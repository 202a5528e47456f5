import JoinGraph.Count

namespace JoinGraph.Excerpt

/-- The index of the line that holds `position`, and the column in it. The lines given are those
from line `index` on, which starts at `offset`; a newline belongs to the line before it. -/
def locateFrom (position : Int) : (index offset : Nat) → List Text → Option (Nat × Int)
  | _, _, [] => none
  | index, offset, line :: rest =>
      if position < offset + line.length + 1 then some (index, position - offset)
      else locateFrom position (index + 1) (offset + line.length + 1) rest

/-- The line and column of a position. A position beyond the text is the beginning of its last
line. -/
def locate (position : Int) (lines : List Text) : Nat × Int :=
  (locateFrom position 0 0 lines).getD (lines.length - 1, 0)

/-- A line behind its number, counted from one. -/
def row (index : Nat) (line : Text) : Text :=
  Text.padLeft 3 (Text.decimal (index + 1)) ++ [' ', '|', ' '] ++ line

/-- At least one caret, six characters to the right of the column. -/
def carets (column length : Int) : Text :=
  List.replicate (column + 6).toNat ' ' ++ List.replicate (max length 1).toNat '^'

/-- The lines around a position, up to `context` of them on either side, with `length` carets under
the position. -/
def rows (text : Text) (position length context : Int) : List Text :=
  let lines := text.lines
  let (target, column) := locate position lines
  let first := max 0 (target - context)
  let last := target + context
  let shown := lines.zipIdx.filter fun (_, index) => first ≤ index && index ≤ last
  shown.flatMap fun (line, index) =>
    if index = target then [row index line, carets column length] else [row index line]

/-- The rows of an excerpt as one text. -/
def around (text : Text) (position length context : Int) : Text :=
  Text.join ['\n'] (rows text position length context)

/-- The rows of an excerpt as one text, if its carets can be written. Without context there are no
rows at all when it is negative, and so no carets. -/
def draw (text : Text) (position length context : Int) : Except CountFault Text := do
  if 0 ≤ context then
    let (_, column) := locate position text.lines
    let _ ← Count.toWrite (column + 6)
    let _ ← Count.toWrite (max length 1)
  return around text position length context

end JoinGraph.Excerpt
