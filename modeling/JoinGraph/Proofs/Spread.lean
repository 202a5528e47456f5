import JoinGraph.Highlight
import Mathlib.Data.List.Pairwise

namespace JoinGraph

namespace Span

/-- Both places are known, and the first ends before the second begins. -/
def Precedes (first second : Option Span) : Prop :=
  ∃ span next, first = some span ∧ second = some next ∧ span.stop ≤ next.start

/-- Both places are known, and they do not meet. -/
def Apart (first second : Option Span) : Prop :=
  Precedes first second ∨ Precedes second first

end Span

/-- Every node has a place in the text that is not empty, and no two places meet. -/
structure Spread (nodes : List Node) (text : Text) : Prop where
  located : ∀ node ∈ nodes, ∃ span, node.location = some span ∧ span.start < span.stop ∧
    span.stop ≤ text.length
  apart : nodes.Pairwise fun first second => Span.Apart first.location second.location

namespace Graph

theorem mem_locate_iff {nodes : List Node} {node : Node} {span : Span} :
    (node, span) ∈ locate nodes ↔ node ∈ nodes ∧ node.location = some span := by
  rw [locate, (List.mergeSort_perm _ _).mem_iff, List.mem_filterMap]
  constructor
  · rintro ⟨found, hfound, heq⟩
    obtain ⟨place, hplace, hpair⟩ := Option.map_eq_some_iff.mp heq
    obtain ⟨rfl, rfl⟩ := Prod.mk.inj hpair
    exact ⟨hfound, hplace⟩
  · rintro ⟨hnode, hspan⟩
    refine ⟨node, hnode, ?_⟩
    rw [hspan, Option.map_some]

theorem pairwise_start_locate (nodes : List Node) : (locate nodes).Pairwise
    fun first second => first.2.start ≤ second.2.start := by
  have hsorted : (locate nodes).Pairwise
      fun first second => decide (first.2.start ≤ second.2.start) = true := by
    apply List.pairwise_mergeSort
    · intro first second third hfirst hsecond
      exact decide_eq_true
        (Nat.le_trans (of_decide_eq_true hfirst) (of_decide_eq_true hsecond))
    · intro first second
      rw [Bool.or_eq_true, decide_eq_true_iff, decide_eq_true_iff]
      exact Nat.le_total _ _
  simpa only [decide_eq_true_eq] using hsorted

theorem map_fst_filterMap_location {nodes : List Node}
    (hlocated : ∀ node ∈ nodes, ∃ span, node.location = some span) :
    (nodes.filterMap fun node => node.location.map (node, ·)).map Prod.fst = nodes := by
  induction nodes with
  | nil => rfl
  | cons node rest ih =>
      obtain ⟨⟨span, hspan⟩, hrest⟩ := List.forall_mem_cons.mp hlocated
      rw [List.filterMap_cons, hspan, Option.map_some, List.map_cons, ih hrest]

theorem located_eq_nodes {graph : Graph}
    (hlocated : ∀ node ∈ graph.nodes, ∃ span, node.location = some span)
    (hordered : graph.nodes.Pairwise fun first second =>
      Span.Precedes first.location second.location) : graph.located = graph.nodes := by
  rw [located, locate, List.mergeSort_of_pairwise]
  · exact map_fst_filterMap_location hlocated
  · refine hordered.filterMap _ ?_
    rintro node other ⟨span, next, hspan, hnext, hle⟩ entry hentry following hfollowing
    rw [hspan, Option.map_some, Option.some.injEq] at hentry
    rw [hnext, Option.map_some, Option.some.injEq] at hfollowing
    rw [← hentry, ← hfollowing, decide_eq_true_iff]
    exact Nat.le_trans span.start_le_stop hle

end Graph

namespace Spread

variable {nodes : List Node} {text : Text} (h : Spread nodes text)

include h

theorem perm_locate : ((Graph.locate nodes).map Prod.fst).Perm nodes := by
  have hsame : (nodes.filterMap fun node => node.location.map (node, ·)).map Prod.fst = nodes := by
    apply Graph.map_fst_filterMap_location
    intro node hnode
    obtain ⟨span, hspan, -, -⟩ := h.located node hnode
    exact ⟨span, hspan⟩
  have hsorted : ((Graph.locate nodes).map Prod.fst).Perm
      ((nodes.filterMap fun node => node.location.map (node, ·)).map Prod.fst) :=
    (List.mergeSort_perm _ _).map Prod.fst
  rwa [hsame] at hsorted

theorem mem_locate {node : Node} {span : Span} (hmem : (node, span) ∈ Graph.locate nodes) :
    span.start < span.stop ∧ span.stop ≤ text.length := by
  obtain ⟨hnode, hspan⟩ := Graph.mem_locate_iff.mp hmem
  obtain ⟨place, hplace, hbounds⟩ := h.located node hnode
  rw [hspan] at hplace
  obtain rfl := Option.some.inj hplace
  exact hbounds

theorem apart_locate : (Graph.locate nodes).Pairwise fun first second =>
    first.2.stop ≤ second.2.start ∨ second.2.stop ≤ first.2.start := by
  refine List.Perm.pairwise (List.mergeSort_perm _ _).symm ?_ Or.symm
  refine h.apart.filterMap _ ?_
  rintro node other hapart entry hentry following hfollowing
  obtain ⟨span, hspan, rfl⟩ := Option.map_eq_some_iff.mp hentry
  obtain ⟨next, hnext, rfl⟩ := Option.map_eq_some_iff.mp hfollowing
  rw [hspan, hnext] at hapart
  rcases hapart with ⟨_, _, hfirst, hsecond, hle⟩ | ⟨_, _, hfirst, hsecond, hle⟩
  · obtain rfl := Option.some.inj hfirst
    obtain rfl := Option.some.inj hsecond
    exact Or.inl hle
  · obtain rfl := Option.some.inj hfirst
    obtain rfl := Option.some.inj hsecond
    exact Or.inr hle

theorem pairwise_locate : (Graph.locate nodes).Pairwise fun first second =>
    first.2.stop ≤ second.2.start := by
  refine ((Graph.pairwise_start_locate nodes).and h.apart_locate).imp_of_mem ?_
  rintro ⟨node, span⟩ ⟨other, next⟩ hmem hnext ⟨hstart, hle | hle⟩
  · exact hle
  · -- Were the second in front, it would be empty.
    have hbounds := (h.mem_locate hnext).1
    simp only at hstart hle hbounds ⊢
    omega

end Spread

namespace Highlight

theorem filter_segmentsFrom {text : Text} {cursor : Nat} {located : List (Node × Span)}
    (hordered : located.Pairwise fun first second => first.2.stop ≤ second.2.start)
    (hcursor : ∀ entry ∈ located, cursor ≤ entry.2.start)
    (hinside : ∀ entry ∈ located, entry.2.stop ≤ text.length) :
    (segmentsFrom text cursor located).filter Segment.isHighlighted =
      located.map fun (node, span) => Segment.cut text span.start span.stop (some node) := by
  induction located generalizing cursor with
  | nil =>
      unfold segmentsFrom
      split <;> rfl
  | cons entry rest ih =>
      obtain ⟨node, span⟩ := entry
      obtain ⟨hnext, hrest⟩ := List.pairwise_cons.mp hordered
      obtain ⟨hstart, -⟩ := List.forall_mem_cons.mp hcursor
      obtain ⟨hstop, hothers⟩ := List.forall_mem_cons.mp hinside
      have hplain : (if cursor < span.start then [Segment.cut text cursor span.start none]
          else []).filter Segment.isHighlighted = [] := by
        split <;> rfl
      have hmarked : (Segment.cut text span.start span.stop (some node)).isHighlighted = true := rfl
      rw [segmentsFrom_of_fits hstart hstop, List.filter_append, hplain, List.nil_append,
        List.filter_cons_of_pos hmarked, ih hrest hnext hothers, List.map_cons]

theorem filter_segments {nodes : List Node} {text : Text} (h : Spread nodes text) :
    (segments text nodes).filter Segment.isHighlighted =
      (Graph.locate nodes).map fun (node, span) =>
        Segment.cut text span.start span.stop (some node) := by
  refine filter_segmentsFrom h.pairwise_locate (fun _ _ => Nat.zero_le _) ?_
  rintro ⟨node, span⟩ hmem
  exact (h.mem_locate hmem).2

theorem filterMap_node_segments {nodes : List Node} {text : Text} (h : Spread nodes text) :
    (segments text nodes).filterMap Segment.node = (Graph.locate nodes).map Prod.fst := by
  calc
    (segments text nodes).filterMap Segment.node =
        ((segments text nodes).filter Segment.isHighlighted).filterMap Segment.node := by
      rw [List.filterMap_filter]
      congr 1
      funext segment
      cases hnode : segment.node <;> simp [Segment.isHighlighted, hnode]
    _ = (Graph.locate nodes).map Prod.fst := by
      rw [filter_segments h, List.filterMap_map, ← List.filterMap_eq_map]
      rfl

theorem eq_cut_of_mem_segments {nodes : List Node} {text : Text} (h : Spread nodes text)
    {segment : Segment} (hsegment : segment ∈ segments text nodes) {node : Node}
    (hnode : segment.node = some node) : ∃ span, node.location = some span ∧
      segment = Segment.cut text span.start span.stop (some node) := by
  have hmarked : segment ∈ (segments text nodes).filter Segment.isHighlighted := by
    rw [List.mem_filter, Segment.isHighlighted, hnode]
    exact ⟨hsegment, rfl⟩
  rw [filter_segments h] at hmarked
  obtain ⟨⟨found, span⟩, hfound, rfl⟩ := List.mem_map.mp hmarked
  obtain rfl := Option.some.inj hnode
  exact ⟨span, (Graph.mem_locate_iff.mp hfound).2, rfl⟩

end Highlight

end JoinGraph
