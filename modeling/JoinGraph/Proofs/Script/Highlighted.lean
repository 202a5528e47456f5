import JoinGraph.Proofs.Extraction.Overlap
import JoinGraph.Proofs.Highlight.Tiling
import JoinGraph.Proofs.Script.Places
import JoinGraph.Report

namespace JoinGraph

namespace Span

theorem Precedes.shiftRight {first second : Option Span} (h : Precedes first second)
    (offset : Nat) : Precedes (first.map fun span => span.shiftRight offset)
      (second.map fun span => span.shiftRight offset) := by
  obtain ⟨span, next, rfl, rfl, hle⟩ := h
  exact ⟨_, _, rfl, rfl, Nat.add_le_add_right hle offset⟩

theorem Apart.shiftRight {first second : Option Span} (h : Apart first second) (offset : Nat) :
    Apart (first.map fun span => span.shiftRight offset)
      (second.map fun span => span.shiftRight offset) :=
  h.imp (fun h => h.shiftRight offset) fun h => h.shiftRight offset

end Span

theorem Spread.shiftRight {nodes : List Node} {text : Text} {start stop : Nat}
    (h : Spread nodes (text.slice start stop)) :
    Spread (nodes.map fun node => node.shiftRight start) (text.take stop) := by
  constructor
  · intro node hnode
    obtain ⟨found, hfound, rfl⟩ := List.mem_map.mp hnode
    obtain ⟨span, hspan, hlt, hle⟩ := h.located found hfound
    refine ⟨span.shiftRight start, ?_, Nat.add_lt_add_right hlt start, ?_⟩
    · rw [Node.shiftRight, hspan]
      rfl
    · rw [Text.length_slice] at hle
      rw [List.length_take]
      simp only [Span.shiftRight]
      omega
  · rw [List.pairwise_map]
    exact h.apart.imp fun hapart => hapart.shiftRight start

namespace Report

open Highlight

variable {text : Text} {cursor lower : Nat}

theorem clip_cut (hcursor : cursor ≤ lower) (stop : Nat) (node : Option Node) :
    clip lower (Segment.cut text cursor stop node) = Segment.cut text lower stop node := by
  rw [clip]
  split
  · have hwidth : stop - cursor - (lower - cursor) = stop - lower := by omega
    simp only [Segment.cut, Text.slice, List.drop_take, List.drop_drop, hwidth,
      Nat.add_sub_cancel' hcursor]
  · next hnot =>
      obtain rfl : cursor = lower := Nat.le_antisymm hcursor (Nat.le_of_not_lt hnot)
      rfl

theorem clip_behind {segments : List Segment}
    (h : ∀ segment ∈ segments, lower ≤ segment.start ∧ lower < segment.stop) :
    (segments.filter fun segment => decide (lower < segment.stop)).map (clip lower) =
      segments := by
  have hkept : (segments.filter fun segment => decide (lower < segment.stop)) = segments :=
    List.filter_eq_self.mpr fun segment hsegment => decide_eq_true (h segment hsegment).2
  have hclip : ∀ segment ∈ segments, clip lower segment = segment := by
    intro segment hsegment
    rw [clip, if_neg (Nat.not_lt.mpr (h segment hsegment).1)]
  rw [hkept, List.map_congr_left hclip, List.map_id']

theorem clip_plain (hcursor : cursor ≤ lower) (stop : Nat) :
    ((if cursor < stop then [Segment.cut text cursor stop none] else []).filter
        fun segment => decide (lower < segment.stop)).map (clip lower) =
      if lower < stop then [Segment.cut text lower stop none] else [] := by
  by_cases hlt : lower < stop
  · have hkept : ∀ segment ∈ [Segment.cut text cursor stop none],
        decide (lower < segment.stop) = true := by
      intro segment hsegment
      rw [List.mem_singleton.mp hsegment]
      exact decide_eq_true hlt
    rw [if_pos (Nat.lt_of_le_of_lt hcursor hlt), if_pos hlt, List.filter_eq_self.mpr hkept,
      List.map_singleton, clip_cut hcursor]
  · have hdropped : ∀ segment ∈ if cursor < stop then [Segment.cut text cursor stop none] else [],
        ¬ decide (lower < segment.stop) = true := by
      intro segment hsegment
      split at hsegment
      · rw [List.mem_singleton.mp hsegment, decide_eq_true_iff]
        exact hlt
      · cases hsegment
    rw [if_neg hlt, List.filter_eq_nil_iff.mpr hdropped, List.map_nil]

/-- With the text cut off in front of all places, the segments are those from the cut on. -/
theorem clip_segmentsFrom {located : List (Node × Span)} (hcursor : cursor ≤ lower)
    (hplaces : ∀ entry ∈ located, lower ≤ entry.2.start ∧ entry.2.start < entry.2.stop ∧
      entry.2.stop ≤ text.length) :
    ((segmentsFrom text cursor located).filter fun segment =>
        decide (lower < segment.stop)).map (clip lower) =
      segmentsFrom text lower located := by
  cases located with
  | nil => exact clip_plain hcursor text.length
  | cons entry rest =>
      obtain ⟨node, span⟩ := entry
      obtain ⟨hlower, hlt, hstop⟩ := hplaces (node, span) List.mem_cons_self
      simp only at hlower hlt hstop
      have hbehind : ∀ segment ∈ Segment.cut text span.start span.stop (some node) ::
          segmentsFrom text span.stop rest, lower ≤ segment.start ∧ lower < segment.stop := by
        intro segment hsegment
        rcases List.mem_cons.mp hsegment with rfl | hsegment
        · exact ⟨hlower, Nat.lt_of_le_of_lt hlower hlt⟩
        · have := (tiles_segmentsFrom hstop rest).le_of_mem hsegment
          omega
      rw [segmentsFrom_of_fits (Nat.le_trans hcursor hlower) hstop,
        segmentsFrom_of_fits hlower hstop, List.filter_append, List.map_append,
        clip_plain hcursor, clip_behind hbehind]

theorem decorate_ne (coloured : Bool) (segment : Segment) :
    (decorate coloured segment != segment.text) = segment.isHighlighted := by
  unfold decorate Segment.isHighlighted
  split
  · next hnode => rw [hnode, bne_self_eq_false, Option.isSome_none]
  · next node hnode =>
      rw [hnode, Option.isSome_some, bne_iff_ne]
      intro heq
      have hlength := congrArg List.length heq
      revert hlength
      split
      · simp only [Terminal.colour, Terminal.select, if_true, List.length_append,
          List.length_cons]
        omega
      · simp only [List.length_append, List.length_cons]
        omega

section Spread

variable {script : Text} {analysed : Analysed} (h : Spread analysed.outcome.graph.nodes
  (script.slice analysed.statement.start analysed.statement.stop))

include h

theorem spread_graph : Spread analysed.graph.nodes (script.take analysed.statement.stop) :=
  h.shiftRight

theorem place_of_mem_locate {entry : Node × Span}
    (hentry : entry ∈ Graph.locate analysed.graph.nodes) :
    analysed.statement.start ≤ entry.2.start ∧ entry.2.start < entry.2.stop ∧
      entry.2.stop ≤ (script.take analysed.statement.stop).length := by
  refine ⟨?_, (spread_graph h).mem_locate hentry⟩
  obtain ⟨hnode, hspan⟩ := Graph.mem_locate_iff.mp hentry
  obtain ⟨node, -, hshift⟩ := List.mem_map.mp hnode
  rw [← hshift] at hspan
  obtain ⟨span, -, hmoved⟩ := Option.map_eq_some_iff.mp hspan
  rw [← hmoved]
  exact Nat.le_add_left _ _

theorem segments_eq : segments script analysed =
    segmentsFrom (script.take analysed.statement.stop) analysed.statement.start
      (Graph.locate analysed.graph.nodes) :=
  clip_segmentsFrom (Nat.zero_le _) fun _ hentry => place_of_mem_locate h hentry

theorem flatMap_text_segments
    (hstart : analysed.statement.start ≤ (script.take analysed.statement.stop).length) :
    (segments script analysed).flatMap Segment.text =
      script.slice analysed.statement.start analysed.statement.stop := by
  rw [segments_eq h, (tiles_segmentsFrom hstart _).flatMap_text, List.drop_take]
  rfl

theorem filter_decorated_segments (coloured : Bool) :
    ((segments script analysed).filter fun segment =>
        decorate coloured segment != segment.text) =
      (Graph.locate analysed.graph.nodes).map fun (node, span) =>
        Segment.cut script span.start span.stop (some node) := by
  have hspread := spread_graph h
  simp only [decorate_ne]
  rw [segments_eq h, filter_segmentsFrom hspread.pairwise_locate]
  · apply List.map_congr_left
    rintro ⟨node, span⟩ hentry
    have hstop := (place_of_mem_locate h hentry).2.2
    rw [List.length_take] at hstop
    have hwidth : min (span.stop - span.start) (analysed.statement.stop - span.start) =
        span.stop - span.start := by
      simp only at hstop
      omega
    simp only [Segment.cut, Text.slice, List.drop_take, List.take_take, hwidth]
  · intro entry hentry
    exact (place_of_mem_locate h hentry).1
  · intro entry hentry
    exact (place_of_mem_locate h hentry).2.2

end Spread

end Report

/-- A statement is shown with all of its nodes marked: the pieces that are joined make up its text,
and those that are decorated are its nodes in the order of their places, each with the characters
that the script has at its place. -/
structure Analysed.Shown (script : Text) (analysed : Analysed) : Prop where
  joined : ∀ coloured, Report.highlighted coloured script analysed =
    [.line "\nHighlighted:".toList, .line (Text.trim (· == '\n')
      ((Report.segments script analysed).flatMap (Report.decorate coloured)))]
  text_eq : analysed.statement.text =
    script.slice analysed.statement.start analysed.statement.stop
  complete : (Report.segments script analysed).flatMap Segment.text = analysed.statement.text
  decorated : ∀ coloured, ((Report.segments script analysed).filter fun segment =>
      Report.decorate coloured segment != segment.text) =
    (Graph.locate analysed.graph.nodes).map fun (node, span) =>
      Segment.cut script span.start span.stop (some node)
  located : analysed.graph.located.Perm analysed.graph.nodes

theorem Script.shown_of_extract {boundariesOf : Text → Option (List Nat)} {config : Config}
    {script : Text} {statement : Statement}
    (hstatement : statement ∈ statementsBy boundariesOf script) {outcome : Outcome}
    (hextract : extract config statement.text = .ok outcome) :
    Analysed.Shown script ⟨statement, outcome⟩ := by
  obtain ⟨htext, hblank⟩ := text_of_mem_statementsBy hstatement
  have hspread : Spread outcome.graph.nodes (script.slice statement.start statement.stop) := by
    obtain ⟨graph, diagnostics, hok, hnodes, -⟩ := Extraction.extract_eq_ok config statement.text
    obtain rfl := Except.ok.inj (hok.symm.trans hextract)
    rw [← htext]
    exact Extraction.spread_nodes hnodes
  constructor
  · intro coloured
    rfl
  · exact htext
  · rw [htext] at hblank ⊢
    have hlt := bounds_of_not_isBlank hblank
    rw [← List.length_take] at hlt
    exact Report.flatMap_text_segments hspread (Nat.le_of_lt hlt)
  · exact Report.filter_decorated_segments hspread
  · exact hspread.shiftRight.perm_locate

/-- However the ends of statements are told, the analysis of a script comes to an answer with one
entry a statement, and each is shown as its text with all of its nodes marked. -/
theorem Script.analyzeBy_highlighted (boundariesOf : Text → Option (List Nat)) (config : Config)
    (script : Text) :
    ∃ results, analyzeBy boundariesOf (extract config) script = .ok results ∧
      results.map Analysed.statement = statementsBy boundariesOf script ∧
      ∀ analysed ∈ results, analysed.Shown script := by
  apply exists_mapM_eq_ok
  intro statement hstatement
  obtain ⟨graph, diagnostics, hextract, -⟩ := Extraction.extract_eq_ok config statement.text
  refine ⟨⟨statement, .success graph diagnostics⟩, ?_, rfl, shown_of_extract hstatement hextract⟩
  rw [hextract]
  rfl

end JoinGraph
