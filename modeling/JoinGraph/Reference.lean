import JoinGraph.Span
import JoinGraph.Text.Capital
import JoinGraph.Text.Scan
import JoinGraph.Text.Word

/-!
Table references: the relations that FROM and JOIN name.

A reference is an introducing key word, a possibly dotted table name and possibly an alias. What is
written after the table name is an alias unless it is a reserved word; a dotted name without an
alias goes by its last segment.
-/

namespace JoinGraph

/-- One relation named by FROM or JOIN, with offsets into the text it was found in. -/
structure Reference where
  /-- The introducing words in capitals, one blank between them. -/
  keyword : Text
  table : Text
  tableSpan : Span
  /-- The alias as written, with its place. -/
  written : Option (Text × Span)
deriving DecidableEq, Repr

namespace Reference

/-- The phrases that introduce a table name. -/
def introducers : List (List Text) := [
  [['F', 'U', 'L', 'L'], ['O', 'U', 'T', 'E', 'R'], ['J', 'O', 'I', 'N']],
  [['L', 'E', 'F', 'T'], ['J', 'O', 'I', 'N']],
  [['R', 'I', 'G', 'H', 'T'], ['J', 'O', 'I', 'N']],
  [['I', 'N', 'N', 'E', 'R'], ['J', 'O', 'I', 'N']],
  [['C', 'R', 'O', 'S', 'S'], ['J', 'O', 'I', 'N']],
  [['F', 'R', 'O', 'M']],
  [['J', 'O', 'I', 'N']]]

/-- The word that may stand between a table name and its alias. -/
def asWord : Text := ['A', 'S']

/-- Read the first of the introducing phrases that stands at the front of a text. -/
def introducer? (text : Text) : Option (Text × Text) :=
  introducers.findSome? fun words => Word.phrase? words text

/-- Whether the word AS stands alone at the front of a text. -/
def startsWithBareAs (text : Text) : Bool :=
  match Word.key? asWord text with
  | none => false
  | some (_, []) => true
  | some (_, c :: _) => !Word.isFolded c

/-- The identifier at the front of a text, if it may serve as an alias. -/
def aliasIdentifier? (text : Text) : Option Text :=
  match text with
  | [] => none
  | c :: _ =>
      if Word.isInitial c && !startsWithBareAs text then some (text.takeWhile Word.isFolded)
      else none

/-- The alias written at the front of the text that follows a table name, with its distance. The
word AS may precede it. -/
def writtenAlias? (text : Text) : Option (Nat × Text) :=
  let gap := text.takeWhile isBlank
  let afterGap := text.dropWhile isBlank
  match Word.key? asWord afterGap with
  | some (as, afterAs) =>
      match Word.blanks? afterAs with
      | some (space, afterSpace) =>
          (aliasIdentifier? afterSpace).map (gap.length + as.length + space.length, ·)
      | none => (aliasIdentifier? afterGap).map (gap.length, ·)
  | none => (aliasIdentifier? afterGap).map (gap.length, ·)

/-- The words of a phrase in capitals, one blank between them. -/
def normalise (phrase : Text) : Text :=
  Text.join [' '] (Text.words phrase.upper)

/-- A reference as read: the introducing phrase, the blanks after it, the table name, and the
alias that follows, with its distance from the table name. -/
structure Reading where
  phrase : Text
  gap : Text
  table : Text
  follower : Option (Nat × Text)
deriving DecidableEq, Repr

namespace Reading

/-- How far the table name is from the beginning of the reference. -/
def tableOffset (reading : Reading) : Nat :=
  reading.phrase.length + reading.gap.length

/-- How many characters the reference covers. An alias is not among them, so the search for the
next reference starts right behind the table name. -/
def length (reading : Reading) : Nat :=
  reading.tableOffset + reading.table.length

end Reading

def read? (text : Text) : Option Reading := do
  let (phrase, afterPhrase) ← introducer? text
  let (gap, afterGap) ← Word.blanks? afterPhrase
  let (table, after) ← Word.dotted? afterGap
  return { phrase, gap, table, follower := writtenAlias? after }

/-- The reference that was read at offset `place`. A reserved word is no alias. -/
def ofReading (keywords : List Text) (place : Nat) (reading : Reading) : Reference :=
  let tableStart := place + reading.tableOffset
  { keyword := normalise reading.phrase
    table := reading.table
    tableSpan := Span.ofLength tableStart reading.table.length
    written := do
      let (distance, name) ← reading.follower
      if name.upper ∈ keywords then none
      else
        return (name,
          Span.ofLength (tableStart + reading.table.length + distance) name.length) }

def readings (text : Text) : List (Nat × Reading) :=
  text.occurrences Word.isFolded fun rest => (read? rest).map fun found => (found, found.length)

/-- The references in a text, in text order. A table name that is a reserved word is none. -/
def findAll (keywords : List Text) (text : Text) : List Reference :=
  (readings text).filterMap fun (place, reading) =>
    if reading.table.upper ∈ keywords then none else some (ofReading keywords place reading)

def lastSegment? (table : Text) : Option Text :=
  if '.' ∈ table then some (table.reverse.takeWhile (· != '.')).reverse else none

/-- The alias: as written, else the last segment of a dotted table name. -/
def aliasName (reference : Reference) : Option Text :=
  match reference.written with
  | some (name, _) => some name
  | none => lastSegment? reference.table

/-- The alias, or the table name where there is none. -/
def label (reference : Reference) : Text :=
  reference.aliasName.getD reference.table

/-- The identity of the relation: its alias or name in capitals. -/
def id (reference : Reference) : Text :=
  reference.label.upper

/-- The place that stands for the reference: the written alias, else the table name. -/
def location (reference : Reference) : Span :=
  match reference.written with
  | some (_, span) => span
  | none => reference.tableSpan

def isFrom (reference : Reference) : Bool :=
  reference.keyword == ['F', 'R', 'O', 'M']

end Reference

end JoinGraph
