import JoinGraph.Proofs.Draft.Ledger
import JoinGraph.Proofs.Network.Built
import JoinGraph.Proofs.Network.Store

namespace JoinGraph.RelationGraph

section Questions

variable {γ : Type} {library : Multigraph γ} (h : library.Lawful) {graph : Graph} {id other : Text}

theorem mem_edgesOfKind_iff {network : RelationGraph library} {kind : LinkKind} {link : Link} :
    link ∈ network.edgesOfKind kind ↔ link ∈ network.edges ∧ link.kind = kind := by
  rw [edgesOfKind, List.mem_filter, beq_iff_eq]

include h

/-- What is asked of the key of an edge can be asked of the links. -/
theorem exists_edge_iff (p : Text × Text × LinkKind → Prop) :
    (∃ edge ∈ (ofGraph library graph).edges, p edge.key) ↔ ∃ link ∈ graph.links, p link.key := by
  have hmap : ∀ links : List Link,
      (∃ link ∈ links, p link.key) ↔ ∃ key ∈ links.map Link.key, p key := by
    intro links
    simp only [List.mem_map, exists_exists_and_eq_and]
  rw [hmap, hmap]
  exact exists_congr fun key => and_congr_left fun _ => mem_keys_ofGraph_iff h

theorem mem_joinedWith_iff : other ∈ (ofGraph library graph).joinedWith id ↔
    ∃ link ∈ graph.links, link.kind = .join ∧ link.connects id other = true := by
  have hends : ∀ link : Link, (if link.source = id then some link.target
      else if link.target = id then some link.source else none) = some other ↔
        link.pair = s(id, other) := by
    intro link
    rw [Link.pair, Sym2.eq_iff]
    split
    · next hsource =>
        simp only [Option.some.injEq, hsource, true_and]
        refine ⟨Or.inl, ?_⟩
        rintro (htarget | ⟨rfl, htarget⟩)
        · exact htarget
        · exact htarget
    · next hsource =>
        split
        · next htarget => simp [hsource, htarget]
        · next htarget => simp [hsource, htarget]
  simp only [joinedWith, mem_idSet_iff, List.mem_filterMap, mem_edgesOfKind_iff, and_assoc, hends,
    Link.connects_iff_pair]
  exact exists_edge_iff h fun key => key.2.2 = .join ∧ s(key.1, key.2.1) = s(id, other)

theorem mem_cteMembers_iff : other ∈ (ofGraph library graph).cteMembers id ↔
    ∃ link ∈ graph.links, link.kind = .cteDef ∧ link.target = id ∧ link.source = other := by
  simp only [cteMembers, mem_idSet_iff, List.mem_map, List.mem_filter, mem_edgesOfKind_iff,
    beq_iff_eq, and_assoc]
  exact exists_edge_iff h fun key => key.2.2 = .cteDef ∧ key.2.1 = id ∧ key.1 = other

theorem mem_instancesOf_iff : other ∈ (ofGraph library graph).instancesOf id ↔
    ∃ link ∈ graph.links, link.kind = .usage ∧ link.source = id ∧ link.target = other := by
  simp only [instancesOf, mem_idSet_iff, List.mem_map, List.mem_filter, mem_edgesOfKind_iff,
    beq_iff_eq, and_assoc]
  exact exists_edge_iff h fun key => key.2.2 = .usage ∧ key.1 = id ∧ key.2.1 = other

end Questions

/-- Whatever lawful library keeps a graph, joined with an identity are those that a join connects
with it in either direction, so that it is joined with them as well; the members of a common table
expression are the sources of the definition links to it, and its instances the targets of the usage
links from it. Each answer tells an identity once, in order. There is one edge for each source,
target and kind of a link, and it is the last such link. -/
theorem answers_iff_links {γ : Type} {library : Multigraph γ} (h : library.Lawful) (graph : Graph) :
    (∀ id other, (other ∈ (ofGraph library graph).joinedWith id ↔
      ∃ link ∈ graph.links, link.kind = .join ∧ link.connects id other = true) ∧
      (other ∈ (ofGraph library graph).joinedWith id ↔
        id ∈ (ofGraph library graph).joinedWith other)) ∧
    (∀ id other, other ∈ (ofGraph library graph).cteMembers id ↔
      ∃ link ∈ graph.links, link.kind = .cteDef ∧ link.target = id ∧ link.source = other) ∧
    (∀ id other, other ∈ (ofGraph library graph).instancesOf id ↔
      ∃ link ∈ graph.links, link.kind = .usage ∧ link.source = id ∧ link.target = other) ∧
    (∀ id, ((ofGraph library graph).joinedWith id).Pairwise (· < ·) ∧
      ((ofGraph library graph).cteMembers id).Pairwise (· < ·) ∧
      ((ofGraph library graph).instancesOf id).Pairwise (· < ·)) ∧
    ((ofGraph library graph).edges.map Link.key).Nodup ∧
    (∀ key, key ∈ (ofGraph library graph).edges.map Link.key ↔ key ∈ graph.links.map Link.key) ∧
    ∀ edge, edge ∈ (ofGraph library graph).edges ↔ Link.LastOf graph.links edge := by
  refine ⟨?_, fun id other => mem_cteMembers_iff h, fun id other => mem_instancesOf_iff h, ?_,
    nodup_keys_ofGraph h graph, fun key => mem_keys_ofGraph_iff h,
    fun edge => mem_edges_ofGraph_iff h⟩
  · intro id other
    refine ⟨mem_joinedWith_iff h, ?_⟩
    rw [mem_joinedWith_iff h, mem_joinedWith_iff h]
    exact exists_congr fun link => by rw [Link.connects_comm]
  · intro id
    exact ⟨pairwise_idSet _, pairwise_idSet _, pairwise_idSet _⟩

/-- A join that is repeated with another condition, and a relation joined with itself. -/
def repeated : Graph :=
  ⟨[], [⟨['A'], ['B'], .join, ['x']⟩, ⟨['A'], ['A'], .join, []⟩, ⟨['A'], ['B'], .join, ['y']⟩]⟩

theorem answers_iff_links_repeated :
    Store.library.Lawful ∧
    ['A'] ∈ (Network.ofGraph repeated).joinedWith ['A'] ∧
    ['A'] ∈ (Network.ofGraph repeated).joinedWith ['B'] ∧
    ⟨['A'], ['B'], .join, ['y']⟩ ∈ (Network.ofGraph repeated).edges ∧
    ((Network.ofGraph repeated).edges.map Link.key).Nodup := by
  obtain ⟨hjoined, -, -, -, hkeys, -, hedges⟩ := answers_iff_links Store.lawful repeated
  refine ⟨Store.lawful, ?_, ?_, ?_, hkeys⟩
  · exact (hjoined ['A'] ['A']).1.mpr ⟨⟨['A'], ['A'], .join, []⟩, by decide, rfl, by decide⟩
  · exact (hjoined ['B'] ['A']).1.mpr ⟨⟨['A'], ['B'], .join, ['x']⟩, by decide, rfl, by decide⟩
  · refine (hedges _).mpr ⟨[⟨['A'], ['B'], .join, ['x']⟩, ⟨['A'], ['A'], .join, []⟩], [], rfl, ?_⟩
    exact fun later hlater => (List.not_mem_nil hlater).elim

end JoinGraph.RelationGraph
