import JoinGraph.Comment
import JoinGraph.Config
import JoinGraph.Scope
import JoinGraph.WithClause

/-!
Extraction: from the text of a statement to its graph.

The comments are masked, the WITH clause is split into its definitions, and every body and then
the main query is analysed as a scope. When a body is never closed, the whole statement is analysed
as one scope instead of the main query, after the definitions read so far.
-/

namespace JoinGraph

namespace Definition

def scope (definition : Definition) : Scope :=
  ⟨definition.body, definition.bodyStart, some definition.name.upper⟩

end Definition

namespace Extraction

/-- Define a common table expression: remember its name and add its node. -/
def declare (name : Text) (nameSpan : Span) (draft : Draft) : Except Fault Unit × Draft :=
  let registered := draft.registerCte name
  match Node.make name.upper name name .cte (some nameSpan) with
  | .error fault => (.error (.node fault), registered)
  | .ok node => (.ok (), (registered.addNode node).1)

/-- Define one common table expression and analyse its body. -/
def enter (analysis : Analysis) (definition : Definition) (progress : Progress) :
    Except Fault Unit × Progress :=
  match declare definition.name definition.nameSpan progress.draft with
  | (.error fault, draft) => (.error fault, { progress with draft })
  | (.ok (), draft) => analysis definition.scope { progress with draft }

/-- Enter the definitions of a WITH clause in order, and answer where the main query starts. A
body that is never closed is a fault, after the definition of its name. -/
def splitClause (analysis : Analysis) (ending : Ending) :
    List Definition → Progress → Except Fault Nat × Progress
  | definition :: rest, progress =>
      match enter analysis definition progress with
      | (.error fault, stopped) => (.error fault, stopped)
      | (.ok (), entered) => splitClause analysis ending rest entered
  | [], progress =>
      match ending with
      | .main start => (.ok start, progress)
      | .unclosed name nameStart openAt =>
          match declare name (Span.ofLength nameStart name.length) progress.draft with
          | (.error fault, draft) => (.error fault, { progress with draft })
          | (.ok (), draft) => (.error (.unclosedBody name openAt), { progress with draft })

/-- Enter the WITH clause of a statement whose comments are masked, and answer where its main
query starts. -/
def split (analysis : Analysis) (masked : Text) (progress : Progress) :
    Except Fault Nat × Progress :=
  let clause := WithClause.read masked
  splitClause analysis clause.ending clause.definitions progress

def mainScope (masked : Text) (start : Nat) : Scope :=
  ⟨masked.drop start, start, none⟩

def run (analysis : Analysis) (text : Text) (progress : Progress) :
    Except Fault Unit × Progress :=
  let masked := Comment.mask text
  match split analysis masked progress with
  | (.ok start, entered) => analysis (mainScope masked start) entered
  | (.error (.unclosedBody name openAt), entered) =>
      analysis (mainScope masked 0)
        { entered with log := entered.log.add (.unclosedBody name openAt) }
  | (.error fault, entered) => (.error fault, entered)

end Extraction

inductive Outcome
  | success (graph : Graph) (diagnostics : List Diagnostic)
  /-- The extraction failed internally, so its graph is empty. -/
  | failure (fault : Fault) (diagnostics : List Diagnostic)
deriving DecidableEq, Repr

namespace Outcome

def graph : Outcome → Graph
  | success graph _ => graph
  | failure _ _ => .empty

def diagnostics : Outcome → List Diagnostic
  | success _ diagnostics | failure _ diagnostics => diagnostics

def isSuccess : Outcome → Bool
  | success _ _ => true
  | failure _ _ => false

def error? : Outcome → Option Text
  | success _ _ => none
  | failure fault _ => some fault.message

end Outcome

/-- An extraction failed internally and its configuration asks to report that. -/
structure ExtractionError where
  fault : Fault
  /-- What was to be extracted. -/
  source : Json
deriving Repr

namespace ExtractionError

def message (error : ExtractionError) : Text :=
  "Unexpected error during extraction: ".toList ++ error.fault.message

end ExtractionError

namespace Extraction

/-- The answer to a finished run, as the configuration wants faults to be treated. -/
def conclude (onFault : FaultMode) (source : Json) (result : Except Fault Unit × Progress) :
    Except ExtractionError Outcome :=
  match result with
  | (.ok (), progress) => .ok (.success progress.draft.graph progress.log.entries)
  | (.error fault, progress) =>
      match onFault with
      | .fail => .error ⟨fault, source⟩
      | .warn => .ok (.failure fault (progress.log.add (.internalFault fault)).entries)
      | .ignore => .ok (.failure fault progress.log.entries)

def start (config : Config) : Progress :=
  ⟨.empty, .empty config.collectDiagnostics⟩

end Extraction

/-- Extract the graph of a statement with the given way to analyse scopes. -/
def extractWith (analysis : Analysis) (config : Config) (text : Text) :
    Except ExtractionError Outcome :=
  Extraction.conclude config.onFault (.text text)
    (Extraction.run analysis text (Extraction.start config))

def extract (config : Config) (text : Text) : Except ExtractionError Outcome :=
  extractWith (Scope.analyze config.keywords) config text

/-- Extract the graph of a value that should be the text of a statement. Any other value is a
fault before the first step. -/
def extractValue (analysis : Analysis) (config : Config) (value : Json) :
    Except ExtractionError Outcome :=
  match value with
  | .text text => extractWith analysis config text
  | other =>
      Extraction.conclude config.onFault other
        (.error (.notText other.kind), Extraction.start config)

end JoinGraph
