import JoinGraph.Fault
import JoinGraph.Text.Capital

namespace JoinGraph

inductive FaultMode
  /-- Report the fault to the caller. -/
  | fail
  /-- Answer with an empty graph and a diagnostic. -/
  | warn
  /-- Answer with an empty graph. -/
  | ignore
deriving DecidableEq, Repr

namespace FaultMode

def all : List FaultMode :=
  [fail, warn, ignore]

theorem mem_all (mode : FaultMode) : mode ∈ all := by
  cases mode <;> decide

def name : FaultMode → Text
  | fail => "fail".toList
  | warn => "warn".toList
  | ignore => "ignore".toList

def ofName? (text : Text) : Option FaultMode :=
  all.find? fun mode => mode.name == text

theorem ofName?_name (mode : FaultMode) : ofName? mode.name = some mode := by
  cases mode <;> decide

def ofJson (value : Json) : Except Fault FaultMode :=
  match ofName? value.plain, value with
  | some mode, .text _ => .ok mode
  | _, _ => .error (.notMember value.describe "ErrorMode".toList)

end FaultMode

/-- The clause words that may follow a table name, and so are never aliases nor tables. -/
def defaultKeywords : List Text := [
  ['O', 'N'],
  ['W', 'H', 'E', 'R', 'E'],
  ['G', 'R', 'O', 'U', 'P'],
  ['O', 'R', 'D', 'E', 'R'],
  ['H', 'A', 'V', 'I', 'N', 'G'],
  ['L', 'E', 'F', 'T'],
  ['R', 'I', 'G', 'H', 'T'],
  ['I', 'N', 'N', 'E', 'R'],
  ['O', 'U', 'T', 'E', 'R'],
  ['F', 'U', 'L', 'L'],
  ['C', 'R', 'O', 'S', 'S'],
  ['J', 'O', 'I', 'N'],
  ['U', 'N', 'I', 'O', 'N'],
  ['S', 'E', 'L', 'E', 'C', 'T'],
  ['W', 'I', 'T', 'H'],
  ['L', 'I', 'M', 'I', 'T'],
  ['O', 'F', 'F', 'S', 'E', 'T']]

structure Config where
  onFault : FaultMode
  /-- The reserved words in capitals. -/
  keywords : List Text
  collectDiagnostics : Bool
  keywords_ne_nil : keywords ≠ []
deriving DecidableEq, Repr

namespace Config

def default : Config where
  onFault := .warn
  keywords := defaultKeywords
  collectDiagnostics := true
  keywords_ne_nil := by decide

/-- The reserved words by code point order, each once. -/
def sortedKeywords (config : Config) : List Text :=
  Text.sort config.keywords.eraseDups

end Config

/-- A value offered for a setting, before it is checked. -/
inductive Setting
  | mode (mode : FaultMode)
  | flag (flag : Bool)
  | wordSet (words : List Json)
  | other
deriving Repr

/-- Why values offered as settings are refused. -/
inductive ConfigFault
  | modeExpected
  | flagExpected
  | wordSetExpected
  | noWords
  /-- An element of the set of words is no text but of the given kind. -/
  | wordExpected (kind : Text)
deriving DecidableEq, Repr

namespace ConfigFault

def message : ConfigFault → Text
  | modeExpected => "on_internal_error must be an ErrorMode instance".toList
  | flagExpected => "collect_warnings must be a boolean".toList
  | wordSetExpected => "clause_keywords must be a set of strings".toList
  | noWords => "clause_keywords cannot be empty".toList
  | wordExpected kind => ['\''] ++ kind ++ "' object has no attribute 'upper'".toList

end ConfigFault

def keyword (word : Json) : Except ConfigFault Text :=
  match word with
  | .text text => .ok text.upper
  | other => .error (.wordExpected other.kind)

/-- The configuration made of three settings, if each is of its kind and there is a reserved
word. -/
def Config.check (onFault keywords collect : Setting) : Except ConfigFault Config :=
  match onFault with
  | .mode onFault =>
      match collect with
      | .flag collectDiagnostics =>
          match keywords with
          | .wordSet [] => .error .noWords
          | .wordSet (first :: others) => do
              let head ← keyword first
              let tail ← others.mapM keyword
              return ⟨onFault, head :: tail, collectDiagnostics, List.cons_ne_nil head tail⟩
          | _ => .error .wordSetExpected
      | _ => .error .flagExpected
  | _ => .error .modeExpected

end JoinGraph
