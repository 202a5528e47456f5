import JoinGraph.Proofs.Text.Part
import Mathlib.Algebra.GroupWithZero.Nat

namespace JoinGraph.Text

/-- The line that an offset is in: as many newlines stand in front of the offset. -/
def lineOf (text : Text) (offset : Nat) : Nat :=
  (text.take offset).count '\n'

/-- The offset at which a line starts: behind the lines in front of it and their newlines. -/
def lineStart (text : Text) (index : Nat) : Nat :=
  ((text.lines.take index).map fun line => line.length + 1).sum

/-- An offset is in a line, from its first character up to its end: the line stands in the text
where it starts, and a newline or nothing is behind it. -/
structure InLine (text : Text) (offset : Nat) (found : Text) : Prop where
  line_eq : text.lines[text.lineOf offset]? = some found
  start_le : text.lineStart (text.lineOf offset) ≤ offset
  le_stop : offset ≤ text.lineStart (text.lineOf offset) + found.length
  partAt : PartAt found text (text.lineStart (text.lineOf offset))
  behind : ∀ c, text[text.lineStart (text.lineOf offset) + found.length]? = some c → c = '\n'

theorem InLine.getElem?_eq {text found : Text} {offset : Nat} (h : InLine text offset found)
    {c : Char} (hc : c ≠ '\n') (hat : text[offset]? = some c) :
    found[offset - text.lineStart (text.lineOf offset)]? = some c := by
  have hstart := h.start_le
  rcases Nat.lt_or_eq_of_le h.le_stop with hinside | hend
  · rw [← h.partAt.getElem?_add (by omega), Nat.add_sub_cancel' hstart]
    exact hat
  · exact absurd (h.behind c (hend ▸ hat)) hc

section Shape

variable {line rest : Text} (h : '\n' ∉ line)

include h

theorem lines_append_newline : lines (line ++ '\n' :: rest) = line :: lines rest := by
  induction line with
  | nil => rw [List.nil_append, lines, if_pos rfl]
  | cons c line ih =>
      obtain ⟨hc, hline⟩ := not_or.mp (List.mem_cons.not.mp h)
      rw [List.cons_append, lines, if_neg (Ne.symm hc), ih hline]

theorem lines_eq_singleton : lines line = [line] := by
  induction line with
  | nil => rfl
  | cons c line ih =>
      obtain ⟨hc, hline⟩ := not_or.mp (List.mem_cons.not.mp h)
      rw [lines, if_neg (Ne.symm hc), ih hline]

theorem lineOf_of_le {offset : Nat} (hoffset : offset ≤ line.length) :
    lineOf (line ++ rest) offset = 0 := by
  rw [lineOf, List.take_append_of_le_length hoffset, List.count_eq_zero]
  exact fun hmem => h (List.mem_of_mem_take hmem)

theorem lineOf_append_newline (offset : Nat) :
    lineOf (line ++ '\n' :: rest) (line.length + 1 + offset) = lineOf rest offset + 1 := by
  have htake : (line ++ '\n' :: rest).take (line.length + 1 + offset) =
      line ++ '\n' :: rest.take offset := by
    rw [Nat.add_assoc, List.take_length_add_append, Nat.add_comm 1, List.take_succ_cons]
  rw [lineOf, htake, List.count_append, List.count_eq_zero.mpr h, List.count_cons_self, lineOf,
    Nat.zero_add]

theorem lineStart_append_newline (index : Nat) :
    lineStart (line ++ '\n' :: rest) (index + 1) = line.length + 1 + lineStart rest index := by
  rw [lineStart, lines_append_newline h, List.take_succ_cons, List.map_cons, List.sum_cons,
    lineStart]

theorem inLine_first (hrest : ∀ c ∈ rest.head?, c = '\n') {offset : Nat}
    (hoffset : offset ≤ line.length) : InLine (line ++ rest) offset line := by
  have hindex : lineOf (line ++ rest) offset = 0 := lineOf_of_le h hoffset
  have hstart : lineStart (line ++ rest) (lineOf (line ++ rest) offset) = 0 := by
    rw [hindex]
    rfl
  constructor
  · rw [hindex]
    cases rest with
    | nil => rw [List.append_nil, lines_eq_singleton h, List.getElem?_cons_zero]
    | cons c rest =>
        obtain rfl := hrest c rfl
        rw [lines_append_newline h, List.getElem?_cons_zero]
  · rw [hstart]
    exact Nat.zero_le offset
  · rw [hstart, Nat.zero_add]
    exact hoffset
  · rw [hstart]
    exact ⟨[], rest, rfl, rfl⟩
  · intro c hget
    rw [hstart, Nat.zero_add, List.getElem?_append_right (Nat.le_refl _), Nat.sub_self,
      ← List.head?_eq_getElem?] at hget
    exact hrest c hget

theorem InLine.further {offset : Nat} {found : Text} (hfound : InLine rest offset found) :
    InLine (line ++ '\n' :: rest) (line.length + 1 + offset) found := by
  have hrest : PartAt rest (line ++ '\n' :: rest) (line.length + 1) :=
    ⟨line ++ ['\n'], [], List.length_append, by simp⟩
  have hstart : lineStart (line ++ '\n' :: rest)
      (lineOf (line ++ '\n' :: rest) (line.length + 1 + offset)) =
        line.length + 1 + lineStart rest (lineOf rest offset) := by
    rw [lineOf_append_newline h, lineStart_append_newline h]
  constructor
  · rw [lineOf_append_newline h, lines_append_newline h, List.getElem?_cons_succ]
    exact hfound.line_eq
  · rw [hstart]
    exact Nat.add_le_add_left hfound.start_le _
  · rw [hstart, Nat.add_assoc _ (lineStart _ _)]
    exact Nat.add_le_add_left hfound.le_stop _
  · rw [hstart]
    exact hfound.partAt.trans hrest
  · intro c hget
    rw [hstart, Nat.add_assoc _ (lineStart _ _), List.getElem?_append_right (by omega),
      Nat.add_assoc, Nat.add_sub_cancel_left, Nat.add_comm 1, List.getElem?_cons_succ] at hget
    exact hfound.behind c hget

end Shape

@[elab_as_elim]
theorem line_induction {motive : Text → Prop} (last : ∀ line, '\n' ∉ line → motive line)
    (more : ∀ line rest, '\n' ∉ line → motive rest → motive (line ++ '\n' :: rest))
    (text : Text) : motive text := by
  have hfront : ∀ line, '\n' ∉ line → motive (line ++ text) := by
    induction text with
    | nil =>
        intro line h
        rw [List.append_nil]
        exact last line h
    | cons c rest ih =>
        intro line h
        by_cases hc : c = '\n'
        · subst hc
          exact more line rest h (ih [] List.not_mem_nil)
        · rw [List.append_cons]
          apply ih
          simp [h, Ne.symm hc]
  exact hfront [] List.not_mem_nil

theorem length_lines (text : Text) : text.lines.length = text.count '\n' + 1 := by
  induction text using line_induction with
  | last line h => rw [lines_eq_singleton h, List.count_eq_zero.mpr h, List.length_singleton]
  | more line rest h ih =>
      rw [lines_append_newline h, List.length_cons, ih, List.count_append,
        List.count_eq_zero.mpr h, List.count_cons_self, Nat.zero_add]

theorem exists_inLine {text : Text} {offset : Nat} (hoffset : offset ≤ text.length) :
    ∃ line, InLine text offset line := by
  induction text using line_induction generalizing offset with
  | last line h =>
      have hfirst : InLine (line ++ []) offset line := inLine_first h (by simp) hoffset
      rw [List.append_nil] at hfirst
      exact ⟨line, hfirst⟩
  | more line rest h ih =>
      rcases Nat.lt_or_ge line.length offset with hbehind | hfirst
      · obtain ⟨further, rfl⟩ := Nat.exists_eq_add_of_le (Nat.succ_le_of_lt hbehind)
        rw [List.length_append, List.length_cons] at hoffset
        obtain ⟨found, hfound⟩ := ih (by omega : further ≤ rest.length)
        exact ⟨found, hfound.further h⟩
      · exact ⟨line, inLine_first h (by simp) hfirst⟩

end JoinGraph.Text
