import JoinGraph.Network.Basic
import JoinGraph.Proofs.Ascending
import JoinGraph.Proofs.Keys
import JoinGraph.Proofs.Network.Laws

namespace JoinGraph

/-- No later one of the links has the key of this one. -/
def Link.LastOf : List Link → Link → Prop :=
  LastBy Link.key

/-- An identity is that of a node, or an end of a link. -/
def Graph.Names (graph : Graph) (id : Text) : Prop :=
  (∃ node ∈ graph.nodes, id = node.id) ∨
    ∃ link ∈ graph.links, id = link.source ∨ id = link.target

/-- The vertex that a node makes. -/
def Vertex.ofNode (node : Node) : Vertex :=
  ⟨node.id, some node.attributes⟩

theorem Link.leading_iff_key {links : List Link} {source target : Text} :
    Link.Leading links source target ↔ ∃ kind, (source, target, kind) ∈ links.map Link.key := by
  constructor
  · rintro ⟨link, hlink, rfl, rfl⟩
    exact ⟨link.kind, List.mem_map_of_mem hlink⟩
  · rintro ⟨kind, hmem⟩
    obtain ⟨link, hlink, hkey⟩ := List.mem_map.mp hmem
    simp only [Link.key, Prod.mk.injEq] at hkey
    exact ⟨link, hlink, hkey.1, hkey.2.1⟩

namespace Vertex

/-- The vertices once both ends of a link are among them. -/
def mentionEnds (vertices : List Vertex) (link : Link) : List Vertex :=
  mention (mention vertices link.source) link.target

theorem ids_mention_of_eq {vertices : List Vertex} {known : List Text} (id : Text)
    (h : vertices.map Vertex.id = known.eraseDups) :
    (mention vertices id).map Vertex.id = (known ++ [id]).eraseDups := by
  rw [ids_mention, h, Firsts.eraseDups_concat]

theorem ids_mentionEnds {vertices : List Vertex} {known : List Text} (link : Link)
    (h : vertices.map Vertex.id = known.eraseDups) :
    (mentionEnds vertices link).map Vertex.id =
      (known ++ [link.source, link.target]).eraseDups := by
  rw [mentionEnds, ids_mention_of_eq link.target (ids_mention_of_eq link.source h),
    List.append_assoc]
  rfl

theorem mentionEnds_eq_self {vertices : List Vertex} {link : Link}
    (hsource : link.source ∈ vertices.map Vertex.id)
    (htarget : link.target ∈ vertices.map Vertex.id) : mentionEnds vertices link = vertices := by
  have hfirst : mention vertices link.source = vertices := if_pos hsource
  rw [mentionEnds, hfirst]
  exact if_pos htarget

theorem foldl_mentionEnds_eq_self {vertices : List Vertex} {links : List Link}
    (hends : ∀ link ∈ links,
      link.source ∈ vertices.map Vertex.id ∧ link.target ∈ vertices.map Vertex.id) :
    links.foldl mentionEnds vertices = vertices := by
  induction links with
  | nil => rfl
  | cons link rest ih =>
      obtain ⟨⟨hsource, htarget⟩, hrest⟩ := List.forall_mem_cons.mp hends
      rw [List.foldl_cons, mentionEnds_eq_self hsource htarget, ih hrest]

end Vertex

namespace RelationGraph

section Loading

variable {γ : Type} {library : Multigraph γ} (h : library.Lawful)

include h

theorem nodes_foldl_addNode (loaded : γ) (nodes : List Node) :
    library.nodes (nodes.foldl
      (fun loaded node => library.addNode loaded node.id node.attributes) loaded) =
        (nodes.map Vertex.ofNode).foldl (upsert Vertex.id) (library.nodes loaded) := by
  induction nodes generalizing loaded with
  | nil => rfl
  | cons node rest ih =>
      rw [List.foldl_cons, ih, h.nodes_addNode, List.map_cons, List.foldl_cons, Vertex.ofNode]

theorem edges_foldl_addNode (loaded : γ) (nodes : List Node) :
    (library.edges (nodes.foldl
      (fun loaded node => library.addNode loaded node.id node.attributes) loaded)).Perm
        (library.edges loaded) := by
  induction nodes generalizing loaded with
  | nil => exact List.Perm.refl _
  | cons node rest ih => exact (ih _).trans (h.edges_addNode loaded _ _)

theorem nodes_foldl_addEdge (loaded : γ) (links : List Link) :
    library.nodes (links.foldl library.addEdge loaded) =
      links.foldl Vertex.mentionEnds (library.nodes loaded) := by
  induction links generalizing loaded with
  | nil => rfl
  | cons link rest ih =>
      rw [List.foldl_cons, ih, h.nodes_addEdge, List.foldl_cons, Vertex.mentionEnds]

theorem edges_foldl_addEdge {loaded : γ} {edges : List Link}
    (hedges : (library.edges loaded).Perm edges) (links : List Link) :
    (library.edges (links.foldl library.addEdge loaded)).Perm
      (links.foldl (upsert Link.key) edges) := by
  induction links generalizing loaded edges with
  | nil => exact hedges
  | cons link rest ih => exact ih ((h.edges_addEdge loaded link).trans (upsert_perm hedges link))

theorem vertices_ofGraph (graph : Graph) : (ofGraph library graph).vertices =
    graph.links.foldl Vertex.mentionEnds
      ((graph.nodes.map Vertex.ofNode).foldl (upsert Vertex.id) []) := by
  rw [vertices, ofGraph, nodes_foldl_addEdge h, nodes_foldl_addNode h, h.nodes_empty]

theorem edges_ofGraph_perm (graph : Graph) :
    (ofGraph library graph).edges.Perm (graph.links.foldl (upsert Link.key) []) := by
  have hnodes := edges_foldl_addNode h library.empty graph.nodes
  rw [h.edges_empty] at hnodes
  exact edges_foldl_addEdge h hnodes graph.links

end Loading

section Loaded

variable {γ : Type} {library : Multigraph γ} (h : library.Lawful) {graph : Graph}

include h

theorem ids_ofGraph (graph : Graph) : (ofGraph library graph).ids =
    (graph.nodes.map Node.id ++
      graph.links.flatMap fun link => [link.source, link.target]).eraseDups := by
  have hnodes : ((graph.nodes.map Vertex.ofNode).foldl (upsert Vertex.id) []).map Vertex.id =
      (graph.nodes.map Node.id).eraseDups := by
    rw [map_key_foldl_upsert, List.map_map]
    rfl
  have hids : (ofGraph library graph).ids = (ofGraph library graph).vertices.map Vertex.id := rfl
  rw [hids, vertices_ofGraph h]
  exact Firsts.foldl_eq_eraseDups (List.map Vertex.id) Vertex.ids_mentionEnds hnodes graph.links

theorem nodup_ids_ofGraph (graph : Graph) : (ofGraph library graph).ids.Nodup := by
  rw [ids_ofGraph h]
  exact Firsts.nodup_eraseDups _

theorem mem_ids_ofGraph_iff {id : Text} : id ∈ (ofGraph library graph).ids ↔ graph.Names id := by
  rw [ids_ofGraph h, List.mem_eraseDups, List.mem_append, List.mem_map, List.mem_flatMap]
  simp only [List.mem_cons, List.not_mem_nil, or_false, Graph.Names, eq_comm]

theorem mem_edges_ofGraph_iff {edge : Link} :
    edge ∈ (ofGraph library graph).edges ↔ Link.LastOf graph.links edge := by
  rw [(edges_ofGraph_perm h graph).mem_iff, mem_foldl_upsert_iff]
  exact or_iff_right fun hedge => List.not_mem_nil hedge.1

theorem keys_ofGraph_perm (graph : Graph) :
    ((ofGraph library graph).edges.map Link.key).Perm (graph.links.map Link.key).eraseDups := by
  rw [← map_key_foldl_upsert]
  exact (edges_ofGraph_perm h graph).map Link.key

theorem nodup_keys_ofGraph (graph : Graph) :
    ((ofGraph library graph).edges.map Link.key).Nodup := by
  rw [(keys_ofGraph_perm h graph).nodup_iff]
  exact Firsts.nodup_eraseDups _

theorem mem_keys_ofGraph_iff {key : Text × Text × LinkKind} :
    key ∈ (ofGraph library graph).edges.map Link.key ↔ key ∈ graph.links.map Link.key := by
  rw [(keys_ofGraph_perm h graph).mem_iff, List.mem_eraseDups]

theorem leading_ofGraph (graph : Graph) :
    Link.Leading (ofGraph library graph).edges = Link.Leading graph.links := by
  funext source target
  simp only [Link.leading_iff_key, mem_keys_ofGraph_iff h]

theorem ends_mem_ids_ofGraph {edge : Link} (hedge : edge ∈ (ofGraph library graph).edges) :
    edge.source ∈ (ofGraph library graph).ids ∧ edge.target ∈ (ofGraph library graph).ids := by
  have hmem : edge ∈ graph.links := LastBy.mem ((mem_edges_ofGraph_iff h).mp hedge)
  constructor
  · exact (mem_ids_ofGraph_iff h).mpr (Or.inr ⟨edge, hmem, Or.inl rfl⟩)
  · exact (mem_ids_ofGraph_iff h).mpr (Or.inr ⟨edge, hmem, Or.inr rfl⟩)

end Loaded

section Answers

variable {id : Text} {found : List Text}

theorem mem_idSet_iff : id ∈ idSet found ↔ id ∈ found := by
  rw [idSet, (Text.sort_perm _).mem_iff, List.mem_eraseDups]

theorem pairwise_idSet (found : List Text) : (idSet found).Pairwise (· < ·) :=
  Text.pairwise_sort (Firsts.nodup_eraseDups found)

end Answers

end RelationGraph

end JoinGraph
