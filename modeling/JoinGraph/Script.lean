import JoinGraph.Extraction
import JoinGraph.Script.Boundary
import JoinGraph.Text.Blank

namespace JoinGraph

structure Statement where
  /-- The number of statements before it. -/
  index : Nat
  start : Nat
  stop : Nat
  text : Text
deriving DecidableEq, Repr

namespace Script

/-- The ranges between the boundaries of a text of the given length, from offset `start` on. -/
def ranges (length : Nat) : (start : Nat) → List Nat → List (Nat × Nat)
  | start, [] => [(start, length)]
  | start, boundary :: rest => (start, boundary) :: ranges length (boundary + 1) rest

/-- The statements between the given boundaries. -/
def cut (script : Text) (boundaries : List Nat) : List Statement :=
  let pieces := (ranges script.length 0 boundaries).map fun (start, stop) =>
    (start, stop, script.slice start stop)
  let kept := pieces.filter fun (_, _, text) => !text.isBlank
  kept.zipIdx.map fun ((start, stop, text), index) => { index, start, stop, text }

/-- The statements of a script, where `boundariesOf` tells the offsets that end one. A script whose
boundaries cannot be told is one statement. -/
def statementsBy (boundariesOf : Text → Option (List Nat)) (script : Text) : List Statement :=
  if script.isBlank then []
  else
    match boundariesOf script with
    | none => [⟨0, 0, script.length, script⟩]
    | some boundaries => cut script boundaries

def statements (script : Text) : List Statement :=
  statementsBy Boundary.offsets script

end Script

/-- A statement of a script with the outcome of its extraction. -/
structure Analysed where
  statement : Statement
  outcome : Outcome
deriving DecidableEq, Repr

namespace Analysed

/-- The graph with its locations as places in the script. -/
def graph (analysed : Analysed) : Graph :=
  analysed.outcome.graph.shiftRight analysed.statement.start

/-- A place in the statement as a place in the script. -/
def place (analysed : Analysed) (position : Int) : Int :=
  position + analysed.statement.start

end Analysed

namespace Script

/-- Extract every statement of a script with the given way to extract one, where `boundariesOf`
tells the offsets that end a statement. -/
def analyzeBy (boundariesOf : Text → Option (List Nat))
    (extractOne : Text → Except ExtractionError Outcome) (script : Text) :
    Except ExtractionError (List Analysed) :=
  (statementsBy boundariesOf script).mapM fun statement =>
    (extractOne statement.text).map fun outcome => ⟨statement, outcome⟩

/-- Extract every statement of a script with the given way to extract one. -/
def analyzeWith (extractOne : Text → Except ExtractionError Outcome) (script : Text) :
    Except ExtractionError (List Analysed) :=
  analyzeBy Boundary.offsets extractOne script

end Script

end JoinGraph
