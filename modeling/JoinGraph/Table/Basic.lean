import JoinGraph.Table.Cell
import JoinGraph.Text.Blank

namespace JoinGraph.Table

def greatest (least : Nat) (numbers : List Nat) : Nat :=
  numbers.foldl max least

/-- Whether `c` ends a line of a cell. -/
def isLineEnd (c : Char) : Bool :=
  let code := c.toNat
  (10 ≤ code && code ≤ 13) || (28 ≤ code && code ≤ 30) || code == 0x85 || code == 0x2028 ||
    code == 0x2029

/-- The lines of a cell. An empty one after the last line end is none. -/
def splitLines : Text → List Text
  | [] => []
  | '\r' :: '\n' :: rest => [] :: splitLines rest
  | c :: rest =>
      if isLineEnd c then [] :: splitLines rest
      else
        match splitLines rest with
        | [] => [[c]]
        | line :: more => (c :: line) :: more

structure Column where
  header : Text
  atRight : Bool
  width : Nat
  cells : List Text
deriving Repr

namespace Column

/-- The cells of a numeric column with blanks behind them, so that the decimal points agree. -/
def alignPoints (cells : List Text) : List Text :=
  let places := cells.map afterPoint
  let most := places.foldl max (-1)
  (cells.zip places).map fun (cell, place) => cell ++ List.replicate (most - place).toNat ' '

def cellWidth (cell : Text) : Nat :=
  greatest 0 (cell.lines.map List.length)

/-- The column of the given cells. Its header has at least two blanks of room. -/
def ofCells (header : Text) (cells : List Text) : Column :=
  let kind := columnKind cells
  let formatted := cells.map (formatCell kind)
  let shown :=
    if kind.isNumeric then alignPoints formatted
    else formatted.map fun cell => Text.trim isBlank cell
  { header
    atRight := kind.isNumeric
    width := greatest (header.length + 2) (shown.map cellWidth)
    cells := shown }

/-- One line of a cell, padded to the width of the column. -/
def pad (column : Column) (line : Text) : Text :=
  if column.atRight then Text.padLeft column.width line else Text.padRight column.width line

end Column

/-- The lines of a row, given the lines of its cells: missing lines are blank. -/
def rowLines (columns : List Column) (cells : List (List Text)) : List Text :=
  let height := greatest 0 (cells.map List.length)
  (List.range height).map fun index =>
    Text.trimRight isBlank (Text.join [' ', ' '] ((columns.zip cells).map fun (column, lines) =>
      match lines[index]? with
      | some line => column.pad line
      | none => List.replicate column.width ' '))

def render (headers : List Text) (rows : List (List Text)) : Text :=
  let columns := headers.zipIdx.map fun (header, index) =>
    Column.ofCells header (rows.map fun row => row.getD index [])
  let isTall := (headers ++ rows.flatten).any fun cell => '\n' ∈ cell
  let lines := fun (cell : Text) => if isTall then splitLines cell else [cell]
  let dashes := Text.join [' ', ' '] (columns.map fun column => List.replicate column.width '-')
  let body := (List.range rows.length).flatMap fun index =>
    rowLines columns (columns.map fun column => lines (column.cells.getD index []))
  Text.join ['\n'] (rowLines columns (columns.map fun column => lines column.header) ++
    dashes :: body)

end JoinGraph.Table
