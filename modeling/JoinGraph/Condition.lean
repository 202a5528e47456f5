import JoinGraph.Text.Scan
import JoinGraph.Text.Word

namespace JoinGraph

/-- The comparisons that join two relations. -/
inductive Comparison
  | equal
  | lessGreater
  | bangEqual
deriving DecidableEq, Repr

namespace Comparison

def text : Comparison → Text
  | equal => ['=']
  | lessGreater => ['<', '>']
  | bangEqual => ['!', '=']

def read? : Text → Option (Comparison × Text)
  | '=' :: rest => some (equal, rest)
  | '<' :: '>' :: rest => some (lessGreater, rest)
  | '!' :: '=' :: rest => some (bangEqual, rest)
  | _ => none

theorem append_of_read? {text after : Text} {sign : Comparison}
    (h : read? text = some (sign, after)) : text = sign.text ++ after := by
  unfold read? at h
  split at h <;> simp_all [Comparison.text]
  all_goals (obtain ⟨rfl, rfl⟩ := h; rfl)

end Comparison

/-- A column with the alias that qualifies it. -/
structure Column where
  qualifier : Text
  name : Text
deriving DecidableEq, Repr

namespace Column

def text (column : Column) : Text :=
  column.qualifier ++ '.' :: column.name

def read? (text : Text) : Option (Column × Text) := do
  let (qualifier, afterQualifier) ← Word.identifier? Word.isPlain text
  match afterQualifier with
  | '.' :: afterDot =>
      let (name, after) ← Word.identifier? Word.isPlain afterDot
      return (⟨qualifier, name⟩, after)
  | _ => none

end Column

/-- A comparison of two qualified columns, with the blanks on either side of the sign. -/
structure Condition where
  left : Column
  leftGap : Text
  sign : Comparison
  rightGap : Text
  right : Column
deriving DecidableEq, Repr

namespace Condition

def text (condition : Condition) : Text :=
  condition.left.text ++ condition.leftGap ++ condition.sign.text ++ condition.rightGap ++
    condition.right.text

def read? (text : Text) : Option Condition := do
  let (left, afterLeft) ← Column.read? text
  let leftGap := afterLeft.takeWhile isBlank
  let (sign, afterSign) ← Comparison.read? (afterLeft.dropWhile isBlank)
  let rightGap := afterSign.takeWhile isBlank
  let (right, _) ← Column.read? (afterSign.dropWhile isBlank)
  return { left, leftGap, sign, rightGap, right }

def findAll (text : Text) : List (Nat × Condition) :=
  text.occurrences Word.isPlain fun rest =>
    (read? rest).map fun found => (found, found.text.length)

end Condition

end JoinGraph
