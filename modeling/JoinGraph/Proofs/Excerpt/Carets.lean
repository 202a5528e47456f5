import JoinGraph.Proofs.Excerpt.Rows
import Mathlib.Data.Nat.Digits.Defs

namespace JoinGraph.Excerpt

open Text

/-- How far to the right a line is moved by its number. -/
def indent (index : Nat) : Nat :=
  (row index []).length

/-- The column at which the character at a position is printed, in the row of its line. -/
def printedColumn (text : Text) (position : Nat) : Nat :=
  indent (text.lineOf position) + (position - text.lineStart (text.lineOf position))

def caretColumn (marks : Text) : Nat :=
  marks.idxOf '^'

theorem row_eq_append (index : Nat) (line : Text) : row index line = row index [] ++ line := by
  rw [row, row, List.append_nil]

theorem indent_eq (index : Nat) :
    indent index = 6 + ((Text.decimal (index + 1)).length - 3) := by
  rw [indent, row, Text.padLeft]
  simp only [List.length_append, List.length_replicate, List.length_cons, List.length_nil]
  omega

theorem length_decimal_le_iff (number : Nat) : (Text.decimal number).length ≤ 3 ↔ number < 1000 :=
  Nat.length_toDigits_le_iff (by decide) (by decide)

theorem caretColumn_carets (column : Nat) (length : Int) :
    caretColumn (carets column length) = 6 + column := by
  obtain ⟨more, hmore⟩ : ∃ more, (max length 1).toNat = more + 1 :=
    ⟨(max length 1).toNat - 1, by omega⟩
  have hblanks : '^' ∉ List.replicate ((column : Int) + 6).toNat ' ' := by
    rw [List.mem_replicate]
    exact fun hmem => absurd hmem.2 (by decide)
  rw [caretColumn, carets, List.idxOf_append_of_notMem hblanks, hmore, List.replicate_succ,
    List.idxOf_cons_self, List.length_replicate]
  omega

theorem caret_mem_carets (column length : Int) : '^' ∈ carets column length := by
  rw [carets, List.mem_append, List.mem_replicate, List.mem_replicate]
  exact Or.inr ⟨by omega, rfl⟩

/-- In an excerpt around a position in a line, the row of that line shows the character at the
position, and in the row directly below it the first caret is as far to the left of the character as
the number of the line has digits beyond three. So the caret stands below its character in the lines
up to the 999th, and in no later line. -/
theorem caret_beneath_iff (text : Text) (position context : Nat) (length : Int) (c : Char)
    (hc : text[position]? = some c) (hline : c ≠ '\n') :
    ∃ above line marks below, rows text position length context =
        above ++ [row (text.lineOf position) line, marks] ++ below ∧
      (row (text.lineOf position) line)[printedColumn text position]? = some c ∧
      marks[caretColumn marks]? = some '^' ∧
      printedColumn text position =
        caretColumn marks + ((Text.decimal (text.lineOf position + 1)).length - 3) ∧
      (caretColumn marks = printedColumn text position ↔ text.lineOf position + 1 < 1000) := by
  obtain ⟨hlt, -⟩ := List.getElem?_eq_some_iff.mp hc
  have hposition : position ≤ text.length := Nat.le_of_lt hlt
  obtain ⟨line, hin⟩ := exists_inLine hposition
  have hcolumn : printedColumn text position = caretColumn
      (carets ((position - text.lineStart (text.lineOf position) : Nat) : Int) length) +
        ((Text.decimal (text.lineOf position + 1)).length - 3) := by
    rw [printedColumn, indent_eq, caretColumn_carets]
    omega
  refine ⟨_, line, _, _, rows_eq hin hposition length context, ?_, ?_, hcolumn, ?_⟩
  · rw [row_eq_append, printedColumn, indent, List.getElem?_append_right (Nat.le_add_right _ _),
      Nat.add_sub_cancel_left]
    exact hin.getElem?_eq hline hc
  · exact List.getElem?_idxOf (caret_mem_carets _ length)
  · rw [hcolumn, ← length_decimal_le_iff]
    omega

theorem caret_beneath_iff_second : ∃ above line marks below,
    rows ['a', '\n', 'b'] 2 3 0 = above ++ [row 1 line, marks] ++ below ∧
      (row 1 line)[6]? = some 'b' ∧ caretColumn marks = 6 := by
  obtain ⟨above, line, marks, below, hrows, hprinted, -, -, hbeneath⟩ :=
    caret_beneath_iff ['a', '\n', 'b'] 2 0 3 'b' rfl (by decide)
  exact ⟨above, line, marks, below, hrows, hprinted, hbeneath.mpr (by decide)⟩

theorem caret_left_of_character :
    rows (List.replicate 999 '\n' ++ ['x']) 999 1 0 =
      ["1000 | x".toList, "      ^".toList] ∧
    "1000 | x".toList[printedColumn (List.replicate 999 '\n' ++ ['x']) 999]? = some 'x' ∧
    caretColumn "      ^".toList < printedColumn (List.replicate 999 '\n' ++ ['x']) 999 := by
  decide +kernel

end JoinGraph.Excerpt
