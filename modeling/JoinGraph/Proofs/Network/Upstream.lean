import JoinGraph.Proofs.Network.Built
import JoinGraph.Proofs.Network.Store

namespace JoinGraph.RelationGraph

open Relation

section Ancestors

variable {γ : Type} {library : Multigraph γ} (h : library.Lawful) {graph : Graph} {id : Text}

include h

theorem hasNode_ofGraph_iff :
    library.hasNode (ofGraph library graph).graph id = true ↔ graph.Names id := by
  rw [h.hasNode_iff]
  exact mem_ids_ofGraph_iff h

theorem mem_ancestorsOf_iff (hfinds : library.FindsAncestors) {other : Text} :
    other ∈ (ofGraph library graph).ancestorsOf id ↔
      other ≠ id ∧ TransGen (Link.Leading graph.links) other id := by
  rw [ancestorsOf]
  split
  · next hnode =>
      rw [mem_idSet_iff, hfinds _ id hnode, ← leading_ofGraph h graph]
      rfl
  · next hunknown =>
      refine ⟨fun hmem => (List.not_mem_nil hmem).elim, ?_⟩
      rintro ⟨-, hpath⟩
      obtain ⟨last, -, link, hlink, -, rfl⟩ := TransGen.tail'_iff.mp hpath
      have hnames : graph.Names link.target := Or.inr ⟨link, hlink, Or.inr rfl⟩
      exact absurd ((hasNode_ofGraph_iff h).mpr hnames) hunknown

end Ancestors

/-- Whatever lawful library that finds ancestors keeps a graph, what lies upstream of an identity
are the other identities with a path of one or more links to it, whatever their kinds. Nothing lies
upstream of an identity that no node has and no link ends in, and what lies upstream of something
upstream lies upstream, or is the identity itself. -/
theorem ancestorsOf_iff_path {γ : Type} {library : Multigraph γ} (h : library.Lawful)
    (hfinds : library.FindsAncestors) (graph : Graph) (id : Text) :
    (∀ other, other ∈ (ofGraph library graph).ancestorsOf id ↔
      other ≠ id ∧ TransGen (Link.Leading graph.links) other id) ∧
    (id ∉ graph.nodes.map Node.id →
      (∀ link ∈ graph.links, link.source ≠ id ∧ link.target ≠ id) →
      (ofGraph library graph).ancestorsOf id = []) ∧
    ∀ middle ∈ (ofGraph library graph).ancestorsOf id,
      ∀ other ∈ (ofGraph library graph).ancestorsOf middle,
        other ∈ (ofGraph library graph).ancestorsOf id ∨ other = id := by
  refine ⟨fun other => mem_ancestorsOf_iff h hfinds, ?_, ?_⟩
  · intro hnode hends
    rw [ancestorsOf, if_neg]
    rw [hasNode_ofGraph_iff h]
    rintro (⟨node, hmem, rfl⟩ | ⟨link, hlink, hsource | htarget⟩)
    · exact hnode (List.mem_map_of_mem hmem)
    · exact (hends link hlink).1 hsource.symm
    · exact (hends link hlink).2 htarget.symm
  · intro middle hmiddle other hother
    rw [mem_ancestorsOf_iff h hfinds] at hmiddle hother ⊢
    by_cases hsame : other = id
    · exact Or.inr hsame
    · exact Or.inl ⟨hsame, hother.2.trans hmiddle.2⟩

/-- A loop, a cycle and a repeated link, between identities that no node has. -/
def cyclic : Graph :=
  ⟨[], [⟨['A'], ['A'], .join, []⟩, ⟨['A'], ['B'], .usage, []⟩, ⟨['A'], ['B'], .usage, []⟩,
    ⟨['B'], ['A'], .cteDef, []⟩, ⟨['C'], ['A'], .cteDef, []⟩]⟩

theorem ancestorsOf_iff_path_cyclic :
    (Store.library.Lawful ∧ Store.library.FindsAncestors) ∧
    (Network.ofGraph cyclic).ancestorsOf ['D'] = [] ∧
    ['A'] ∈ (Network.ofGraph cyclic).ancestorsOf ['B'] ∧
    ['C'] ∈ (Network.ofGraph cyclic).ancestorsOf ['A'] ∧
    ['C'] ∈ (Network.ofGraph cyclic).ancestorsOf ['B'] := by
  have hstore := ancestorsOf_iff_path Store.lawful Store.findsAncestors cyclic
  have hfirst : ['A'] ∈ (Network.ofGraph cyclic).ancestorsOf ['B'] :=
    ((hstore ['B']).1 ['A']).mpr
      ⟨by decide, TransGen.single ⟨⟨['A'], ['B'], .usage, []⟩, by decide, rfl, rfl⟩⟩
  have hsecond : ['C'] ∈ (Network.ofGraph cyclic).ancestorsOf ['A'] :=
    ((hstore ['A']).1 ['C']).mpr
      ⟨by decide, TransGen.single ⟨⟨['C'], ['A'], .cteDef, []⟩, by decide, rfl, rfl⟩⟩
  refine ⟨⟨Store.lawful, Store.findsAncestors⟩,
    (hstore ['D']).2.1 List.not_mem_nil (by decide), hfirst, hsecond, ?_⟩
  exact ((hstore ['B']).2.2 ['A'] hfirst ['C'] hsecond).resolve_right (by decide)

end JoinGraph.RelationGraph
