import JoinGraph.Numeral.Basic

/-!
Cells of a table: what they are, and how a column shows them.

A cell counts as a number when it reads as one: a whole number, a number with a point or an
exponent, `inf` or `nan`. Single underscores may stand between digits. Cells hold names, ranges and
comparisons, all of them ASCII where they could be numerals and none with a sign in front.
-/

namespace JoinGraph

namespace Table

/-- The digits at the front of a text without the underscores between them, and what follows, from
behind a digit on. -/
def moreDigits : Text → Text × Text
  | [] => ([], [])
  | c :: rest =>
      if c.isDigit then
        let (digits, after) := moreDigits rest
        (c :: digits, after)
      else if c = '_' then
        match rest with
        | [] => ([], [c])
        | d :: _ => if d.isDigit then moreDigits rest else ([], c :: rest)
      else ([], c :: rest)

/-- The digits at the front of a text without the underscores between them, and what follows. -/
def digitRun (text : Text) : Text × Text :=
  match text with
  | [] => ([], [])
  | c :: _ => if c.isDigit then moreDigits text else ([], text)

/-- The exponent at the end of a numeral, nothing being the exponent zero. -/
def exponent? : Text → Option Int
  | [] => some 0
  | c :: rest =>
      if c = 'e' ∨ c = 'E' then
        let (negative, unsigned) := match rest with
          | '-' :: tail => (true, tail)
          | '+' :: tail => (false, tail)
          | tail => (false, tail)
        match digitRun unsigned with
        | (first :: others, []) =>
            let size : Int := Numeral.value (first :: others)
            some (if negative then -size else size)
        | _ => none
      else none

/-- The most digits that a whole number may have. -/
def maxWholeDigits : Nat := 4300

/-- The numeral that a cell is, if it is one. -/
def numeral? (text : Text) : Option Numeral :=
  let lower := text.map Char.toLower
  if lower = "inf".toList ∨ lower = "infinity".toList then some .infinite
  else if lower = "nan".toList then some .notANumber
  else
    let (wholeDigits, afterWhole) := digitRun text
    if afterWhole = [] ∧ wholeDigits ≠ [] ∧ wholeDigits.length ≤ maxWholeDigits then
      some (.whole (Numeral.value wholeDigits))
    else
      let (decimals, afterDecimals) := match afterWhole with
        | '.' :: tail => digitRun tail
        | tail => ([], tail)
      if wholeDigits = [] ∧ decimals = [] then none
      else
        (exponent? afterDecimals).map fun exponent =>
          .decimal (Numeral.value (wholeDigits ++ decimals)) (exponent - decimals.length)

/-- What the cells of a column are, from the most special kind to the most general. -/
inductive CellKind
  | blank
  | flag
  | whole
  | number
  | text
deriving DecidableEq, Repr

namespace CellKind

def rank : CellKind → Nat
  | blank => 0
  | flag => 1
  | whole => 2
  | number => 3
  | text => 4

/-- The more general of two kinds. -/
def join (a b : CellKind) : CellKind :=
  if a.rank < b.rank then b else a

def isNumeric : CellKind → Bool
  | whole | number => true
  | blank | flag | text => false

end CellKind

/-- Whether a text counts as a number. One whose size is beyond all numbers does not, unless it is
spelt `inf` or `nan`. -/
def isNumber (cell : Text) : Bool :=
  match numeral? cell with
  | none => false
  | some numeral =>
      let lower := cell.map Char.toLower
      numeral.fraction?.isSome || lower == "inf".toList || lower == "nan".toList

def isWhole (cell : Text) : Bool :=
  match numeral? cell with
  | some (.whole _) => true
  | _ => false

def cellKind (cell : Text) : CellKind :=
  if cell = [] then .blank
  else if cell = "True".toList ∨ cell = "False".toList then .flag
  else if isWhole cell then .whole
  else if isNumber cell then .number
  else .text

/-- The kind of a column: that of its most general cell, and at least that of a flag. -/
def columnKind (cells : List Text) : CellKind :=
  (cells.map cellKind).foldl CellKind.join .flag

/-- A cell as its column shows it. Numbers are rounded; everything else stays as it is. -/
def formatCell (kind : CellKind) (cell : Text) : Text :=
  match kind, numeral? cell with
  | .number, some numeral => numeral.general
  | _, _ => cell

/-- How many characters follow the decimal point of a number, or its exponent mark where it has no
point, and -1 for anything without either. -/
def afterPoint (cell : Text) : Int :=
  if isNumber cell && !isWhole cell then
    let behind := fun (mark : Char → Bool) => (cell.reverse.takeWhile fun c => !mark c).length
    if '.' ∈ cell then behind (· == '.')
    else if cell.any fun c => c == 'e' || c == 'E' then behind fun c => c == 'e' || c == 'E'
    else -1
  else -1

end Table

end JoinGraph
