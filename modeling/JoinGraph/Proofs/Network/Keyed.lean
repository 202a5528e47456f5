import JoinGraph.Proofs.Network.Built

namespace JoinGraph

/-- Identities tell the nodes apart, links lead between nodes, and no two links have one key. -/
structure Graph.Keyed (graph : Graph) : Prop where
  nodup_ids : (graph.nodes.map Node.id).Nodup
  source_mem : ∀ link ∈ graph.links, link.source ∈ graph.nodes.map Node.id
  target_mem : ∀ link ∈ graph.links, link.target ∈ graph.nodes.map Node.id
  nodup_keys : (graph.links.map Link.key).Nodup

namespace RelationGraph

theorem lookup_statistics {γ : Type} {library : Multigraph γ} (network : RelationGraph library)
    (metric : Metric) : network.statistics.lookup metric = some (network.count metric) := by
  have hmem : ∀ metrics : List Metric, metric ∈ metrics →
      (metrics.map fun other => (other, network.count other)).lookup metric =
        some (network.count metric) := by
    intro metrics hmetric
    induction metrics with
    | nil => cases hmetric
    | cons first rest ih =>
        by_cases hfirst : metric = first
        · rw [List.map_cons, hfirst, List.lookup_cons_self]
        · have hrest : metric ∈ rest := (List.mem_cons.mp hmetric).resolve_left hfirst
          rw [List.map_cons, List.lookup_cons, beq_false_of_ne hfirst]
          exact ih hrest
  apply hmem
  cases metric with
  | totalNodes => decide
  | totalLinks => decide
  | nodes kind => cases kind <;> decide
  | links kind => cases kind <;> decide
  | components => decide

section Keyed

variable {γ : Type} {library : Multigraph γ} {graph : Graph} (h : library.Lawful)
  (hkeyed : graph.Keyed)

include h hkeyed

theorem vertices_of_keyed : (ofGraph library graph).vertices = graph.nodes.map Vertex.ofNode := by
  have hids : (graph.nodes.map Vertex.ofNode).map Vertex.id = graph.nodes.map Node.id :=
    List.map_map
  have hnodes : (graph.nodes.map Vertex.ofNode).foldl (upsert Vertex.id) [] =
      graph.nodes.map Vertex.ofNode := by
    apply foldl_upsert_eq_append
    rw [hids]
    exact hkeyed.nodup_ids
  rw [vertices_ofGraph h, hnodes]
  apply Vertex.foldl_mentionEnds_eq_self
  rw [hids]
  exact fun link hlink => ⟨hkeyed.source_mem link hlink, hkeyed.target_mem link hlink⟩

theorem edges_perm_of_keyed : (ofGraph library graph).edges.Perm graph.links := by
  have hlinks : graph.links.foldl (upsert Link.key) [] = graph.links :=
    foldl_upsert_eq_append hkeyed.nodup_keys
  have hperm := edges_ofGraph_perm h graph
  rwa [hlinks] at hperm

theorem count_nodes_of_keyed (kind : NodeKind) :
    (ofGraph library graph).count (.nodes kind) = (graph.nodesOfKind kind).length := by
  rw [count, countNodes, vertices_of_keyed h hkeyed, List.filter_map, List.length_map]
  rfl

theorem count_links_of_keyed (kind : LinkKind) :
    (ofGraph library graph).count (.links kind) = (graph.linksOfKind kind).length :=
  ((edges_perm_of_keyed h hkeyed).filter _).length_eq

theorem count_totalNodes_of_keyed : (ofGraph library graph).count .totalNodes =
    (NodeKind.all.map fun kind => (graph.nodesOfKind kind).length).sum := by
  have hsum : (NodeKind.all.map fun kind => (graph.nodesOfKind kind).length).sum =
      graph.nodes.length :=
    sum_length_filter (by decide) fun node _ => NodeKind.mem_all node.kind
  rw [hsum, count, h.numberOfNodes_eq, ← vertices, vertices_of_keyed h hkeyed, List.length_map]

theorem count_totalLinks_of_keyed : (ofGraph library graph).count .totalLinks =
    (LinkKind.all.map fun kind => (graph.linksOfKind kind).length).sum := by
  have hsum : (LinkKind.all.map fun kind => (graph.linksOfKind kind).length).sum =
      graph.links.length :=
    sum_length_filter (by decide) fun link _ => LinkKind.mem_all link.kind
  rw [hsum, count, h.numberOfEdges_eq]
  exact (edges_perm_of_keyed h hkeyed).length_eq

end Keyed

end RelationGraph

end JoinGraph
