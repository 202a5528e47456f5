import JoinGraph.Proofs.Spread
import Mathlib.Data.List.Nodup
import Mathlib.Data.List.Perm.Basic

namespace JoinGraph

namespace Graph

/-- The nodes that have a place, with it, in their order. -/
def placed (nodes : List Node) : List (Node × Span) :=
  nodes.filterMap fun node => node.location.map (node, ·)

/-- The placed nodes by increasing start, where those with one start keep their order. -/
structure StartOrder (nodes : List Node) (located : List (Node × Span)) : Prop where
  perm : located.Perm (placed nodes)
  ordered : located.Pairwise fun first second => first.2.start ≤ second.2.start
  stable : ∀ start, (located.filter fun entry => entry.2.start == start) =
    (placed nodes).filter fun entry => entry.2.start == start

theorem locate_perm (nodes : List Node) : (locate nodes).Perm (placed nodes) :=
  List.mergeSort_perm _ _

theorem filter_start_locate (nodes : List Node) (start : Nat) :
    ((locate nodes).filter fun entry => entry.2.start == start) =
      (placed nodes).filter fun entry => entry.2.start == start := by
  have hsame : ((placed nodes).filter fun entry => entry.2.start == start).Pairwise
      fun first second => decide (first.2.start ≤ second.2.start) = true := by
    apply List.pairwise_of_forall_mem_list
    intro first hfirst second hsecond
    have hfirst := beq_iff_eq.mp (List.mem_filter.mp hfirst).2
    have hsecond := beq_iff_eq.mp (List.mem_filter.mp hsecond).2
    exact decide_eq_true (by omega)
  have hkept : ((placed nodes).filter fun entry => entry.2.start == start).Sublist
      (locate nodes) := by
    refine List.sublist_mergeSort ?_ ?_ hsame List.filter_sublist
    · intro first second third hfirst hsecond
      exact decide_eq_true
        (Nat.le_trans (of_decide_eq_true hfirst) (of_decide_eq_true hsecond))
    · intro first second
      rw [Bool.or_eq_true, decide_eq_true_iff, decide_eq_true_iff]
      exact Nat.le_total _ _
  have hfiltered := hkept.filter fun entry => entry.2.start == start
  rw [List.filter_filter] at hfiltered
  simp only [Bool.and_self] at hfiltered
  exact (hfiltered.eq_of_length ((locate_perm nodes).filter _).length_eq.symm).symm

theorem startOrder_locate (nodes : List Node) : StartOrder nodes (locate nodes) :=
  ⟨locate_perm nodes, pairwise_start_locate nodes, filter_start_locate nodes⟩

theorem map_start_placed (nodes : List Node) : (placed nodes).map (fun entry => entry.2.start) =
    (nodes.filterMap Node.location).map Span.start := by
  rw [placed, List.map_filterMap, List.map_filterMap]
  congr 1
  funext node
  cases node.location <;> rfl

theorem locate_eq_of_perm {nodes others : List Node} (hperm : nodes.Perm others)
    (hstarts : ((nodes.filterMap Node.location).map Span.start).Nodup) :
    locate nodes = locate others := by
  have hsame : (locate nodes).Perm (locate others) :=
    (locate_perm nodes).trans ((hperm.filterMap _).trans (locate_perm others).symm)
  refine List.Perm.eq_of_pairwise ?_ (pairwise_start_locate nodes) (pairwise_start_locate others)
    hsame
  intro first second hfirst hsecond hle hge
  rw [← map_start_placed] at hstarts
  apply List.inj_on_of_nodup_map hstarts
  · exact (locate_perm nodes).subset hfirst
  · exact (locate_perm nodes).subset (hsame.symm.subset hsecond)
  · exact Nat.le_antisymm hle hge

end Graph

namespace Highlight

/-- From `start` on the segments follow one another to the end of the text. Each holds the
characters of its range, and a plain one is not empty. -/
def Tiles (text : Text) : (start : Nat) → List Segment → Prop
  | start, [] => start = text.length
  | start, segment :: rest =>
      segment.start = start ∧ segment.start ≤ segment.stop ∧
        segment.text = text.slice segment.start segment.stop ∧
        (segment.node = none → segment.start < segment.stop) ∧ Tiles text segment.stop rest

namespace Tiles

variable {text : Text} {start : Nat} {segments : List Segment}

theorem flatMap_text (h : Tiles text start segments) :
    segments.flatMap Segment.text = text.drop start := by
  induction segments generalizing start with
  | nil =>
      obtain rfl : start = text.length := h
      rw [List.drop_length, List.flatMap_nil]
  | cons segment rest ih =>
      obtain ⟨rfl, hle, htext, -, hrest⟩ := h
      rw [List.flatMap_cons, ih hrest, htext, Text.slice]
      calc
        _ = (text.drop segment.start).take (segment.stop - segment.start) ++
            (text.drop segment.start).drop (segment.stop - segment.start) := by
          rw [List.drop_drop, Nat.add_sub_cancel' hle]
        _ = text.drop segment.start := List.take_append_drop _ _

theorem le_of_mem (h : Tiles text start segments) {segment : Segment}
    (hsegment : segment ∈ segments) : start ≤ segment.start ∧ segment.start ≤ segment.stop := by
  induction segments generalizing start with
  | nil => cases hsegment
  | cons first rest ih =>
      obtain ⟨rfl, hle, -, -, hrest⟩ := h
      rcases List.mem_cons.mp hsegment with rfl | hsegment
      · exact ⟨Nat.le_refl _, hle⟩
      · obtain ⟨hstart, hstop⟩ := ih hrest hsegment
        exact ⟨Nat.le_trans hle hstart, hstop⟩

end Tiles

variable {text : Text} {cursor : Nat}

theorem tiles_plain_append {stop : Nat} {rest : List Segment} (hle : cursor ≤ stop)
    (hrest : Tiles text stop rest) :
    Tiles text cursor
      ((if cursor < stop then [Segment.cut text cursor stop none] else []) ++ rest) := by
  split
  · next hlt => exact ⟨rfl, hle, rfl, fun _ => hlt, hrest⟩
  · next hnot =>
      obtain rfl : cursor = stop := by omega
      exact hrest

theorem tiles_segmentsFrom (hcursor : cursor ≤ text.length) (located : List (Node × Span)) :
    Tiles text cursor (segmentsFrom text cursor located) := by
  induction located generalizing cursor with
  | nil =>
      have hend : Tiles text text.length [] := rfl
      have hplain := tiles_plain_append hcursor hend
      rwa [List.append_nil] at hplain
  | cons entry rest ih =>
      obtain ⟨node, span⟩ := entry
      by_cases hfits : cursor ≤ span.start ∧ span.stop ≤ text.length
      · rw [segmentsFrom_of_fits hfits.1 hfits.2]
        exact tiles_plain_append hfits.1 ⟨rfl, span.start_le_stop, rfl,
          fun hnode => absurd hnode (Option.some_ne_none node), ih hfits.2⟩
      · rw [segmentsFrom_of_not_fits hfits]
        exact ih hcursor

/-- Which of the places are marked, with the marked text ending at `cursor`. -/
def marks (text : Text) : (cursor : Nat) → List (Node × Span) → List Bool
  | _, [] => []
  | cursor, (_, span) :: rest =>
      if cursor ≤ span.start ∧ span.stop ≤ text.length then true :: marks text span.stop rest
      else false :: marks text cursor rest

/-- All places that are flagged in front of index `i` end before `start`. -/
def BehindFlagged (flags : List Bool) (located : List (Node × Span)) (i start : Nat) : Prop :=
  ∀ j < i, flags[j]? = some true → ∀ earlier : Node × Span, located[j]? = some earlier →
    earlier.2.stop ≤ start

/-- A place is flagged when it lies in the text and behind all that are flagged before it. -/
structure Greedy (text : Text) (located : List (Node × Span)) (flags : List Bool) : Prop where
  length_eq : flags.length = located.length
  flagged_iff : ∀ (i : Nat) (entry : Node × Span), located[i]? = some entry →
    (flags[i]? = some true ↔
      entry.2.stop ≤ text.length ∧ BehindFlagged flags located i entry.2.start)

theorem behindFlagged_zero (flags : List Bool) (located : List (Node × Span)) (start : Nat) :
    BehindFlagged flags located 0 start :=
  fun j hj => absurd hj (Nat.not_lt_zero j)

theorem behindFlagged_cons_iff {flag : Bool} {flags : List Bool} {first : Node × Span}
    {located : List (Node × Span)} {i start : Nat} :
    BehindFlagged (flag :: flags) (first :: located) (i + 1) start ↔
      (flag = true → first.2.stop ≤ start) ∧ BehindFlagged flags located i start := by
  simp only [BehindFlagged, Nat.forall_lt_succ_left, List.getElem?_cons_zero,
    List.getElem?_cons_succ, Option.some.injEq, forall_eq']

theorem length_marks (text : Text) (cursor : Nat) (located : List (Node × Span)) :
    (marks text cursor located).length = located.length := by
  induction located generalizing cursor with
  | nil => rfl
  | cons entry rest ih =>
      rw [marks]
      split
      · rw [List.length_cons, List.length_cons, ih]
      · rw [List.length_cons, List.length_cons, ih]

/-- A place is marked when it lies in the text, not in front of the cursor, and behind all that are
marked before it. -/
theorem marks_iff {located : List (Node × Span)} {i : Nat} {entry : Node × Span}
    (hentry : located[i]? = some entry) :
    (marks text cursor located)[i]? = some true ↔
      entry.2.stop ≤ text.length ∧ cursor ≤ entry.2.start ∧
        BehindFlagged (marks text cursor located) located i entry.2.start := by
  induction located generalizing cursor i with
  | nil => cases hentry
  | cons first rest ih =>
      obtain ⟨node, span⟩ := first
      rw [marks]
      cases i with
      | zero =>
          obtain rfl := Option.some.inj hentry
          rw [and_iff_left (behindFlagged_zero _ _ _)]
          split
          · next hfits => exact iff_of_true rfl hfits.symm
          · next hskipped => exact iff_of_false (by simp) (mt And.symm hskipped)
      | succ i =>
          rw [List.getElem?_cons_succ] at hentry
          split
          · next hfits =>
              have hcursor : span.stop ≤ entry.2.start → cursor ≤ entry.2.start :=
                Nat.le_trans (Nat.le_trans hfits.1 span.start_le_stop)
              rw [List.getElem?_cons_succ, ih hentry, behindFlagged_cons_iff]
              constructor
              · rintro ⟨hstop, hstart, hbehind⟩
                exact ⟨hstop, hcursor hstart, fun _ => hstart, hbehind⟩
              · rintro ⟨hstop, -, hstart, hbehind⟩
                exact ⟨hstop, hstart rfl, hbehind⟩
          · rw [List.getElem?_cons_succ, ih hentry, behindFlagged_cons_iff]
            simp only [Bool.false_eq_true, false_implies, true_and]

theorem greedy_marks (text : Text) (located : List (Node × Span)) :
    Greedy text located (marks text 0 located) := by
  refine ⟨length_marks text 0 located, ?_⟩
  intro i entry hentry
  rw [marks_iff hentry, and_iff_right (Nat.zero_le _)]

theorem filter_segmentsFrom_marks (text : Text) (cursor : Nat) (located : List (Node × Span)) :
    (segmentsFrom text cursor located).filter Segment.isHighlighted =
      ((located.zip (marks text cursor located)).filter Prod.snd).map fun ((node, span), _) =>
        Segment.cut text span.start span.stop (some node) := by
  induction located generalizing cursor with
  | nil =>
      rw [segmentsFrom]
      split <;> rfl
  | cons entry rest ih =>
      obtain ⟨node, span⟩ := entry
      rw [marks]
      split
      · next hfits =>
          have hplain : (if cursor < span.start then [Segment.cut text cursor span.start none]
              else []).filter Segment.isHighlighted = [] := by
            split <;> rfl
          rw [segmentsFrom_of_fits hfits.1 hfits.2, List.filter_append, hplain, List.nil_append,
            List.filter_cons_of_pos rfl, ih, List.zip_cons_cons, List.filter_cons_of_pos rfl,
            List.map_cons]
      · next hskipped =>
          rw [segmentsFrom_of_not_fits hskipped, ih, List.zip_cons_cons,
            List.filter_cons_of_neg Bool.false_ne_true]

/-- For any nodes, the segments lead from the beginning of the text to its end without a gap and
make up the text. Of the nodes with a place, by increasing start and else in their order, those are
marked whose place lies in the text and behind all that are marked before. When no two places have
one start, the order of the nodes does not matter. -/
theorem segments_tile (text : Text) (nodes : List Node) :
    Tiles text 0 (segments text nodes) ∧
    (segments text nodes).flatMap Segment.text = text ∧
    (∃ located flags, Graph.StartOrder nodes located ∧ Greedy text located flags ∧
      (segments text nodes).filter Segment.isHighlighted =
        ((located.zip flags).filter Prod.snd).map fun ((node, span), _) =>
          Segment.cut text span.start span.stop (some node)) ∧
    ∀ others, nodes.Perm others → ((nodes.filterMap Node.location).map Span.start).Nodup →
      segments text nodes = segments text others := by
  have htiles : Tiles text 0 (segments text nodes) := tiles_segmentsFrom (Nat.zero_le _) _
  refine ⟨htiles, ?_, ?_, ?_⟩
  · rw [htiles.flatMap_text, List.drop_zero]
  · exact ⟨_, _, Graph.startOrder_locate nodes, greedy_marks text _,
      filter_segmentsFrom_marks text 0 _⟩
  · intro others hperm hstarts
    rw [segments, segments, Graph.locate_eq_of_perm hperm hstarts]

theorem segments_tile_overlapping : ∃ first second : Node,
    first.location = some ⟨2, 5, by decide⟩ ∧ second.location = some ⟨1, 3, by decide⟩ ∧
      [first, second].Perm [second, first] ∧
      (([first, second].filterMap Node.location).map Span.start).Nodup ∧
      segments "abcdef".toList [first, second] = segments "abcdef".toList [second, first] := by
  refine ⟨⟨['C'], ['c'], ['c'], .main, some ⟨2, 5, by decide⟩, by decide, by decide⟩,
    ⟨['B'], ['b'], ['b'], .join, some ⟨1, 3, by decide⟩, by decide, by decide⟩, rfl, rfl,
    List.Perm.swap _ _ _, by decide, ?_⟩
  exact (segments_tile "abcdef".toList _).2.2.2 _ (List.Perm.swap _ _ _) (by decide)

end Highlight

end JoinGraph
