import JoinGraph.Fault

namespace JoinGraph

inductive Level
  | info
  | warning
  | error
deriving DecidableEq, Repr

namespace Level

def all : List Level :=
  [info, warning, error]

theorem mem_all (level : Level) : level ∈ all := by
  cases level <;> decide

def name : Level → Text
  | info => "INFO".toList
  | warning => "WARNING".toList
  | error => "ERROR".toList

def ofName? (text : Text) : Option Level :=
  all.find? fun level => level.name == text

theorem ofName?_name (level : Level) : ofName? level.name = some level := by
  cases level <;> decide

def unknownMessage (shown : Text) : Text :=
  "Invalid warning level: ".toList ++ shown ++ ". Must be one of [".toList ++
    Text.join [',', ' '] (all.map fun level => level.name.quoted) ++ [']']

end Level

inductive Diagnostic
  /-- The body of the common table expression `name`, opened at `position`, is never closed. -/
  | unclosedBody (name : Text) (position : Int)
  /-- The comparison `condition` names an alias that its scope does not bind. -/
  | unboundAlias (condition qualifier : Text) (position : Int)
  /-- The extraction failed and its result is empty. -/
  | internalFault (fault : Fault)
  /-- Anything else worth saying. -/
  | remark (level : Level) (message : Text) (context : Option Text) (position : Option Int)
deriving DecidableEq, Repr

namespace Diagnostic

def level : Diagnostic → Level
  | unclosedBody _ _ => .warning
  | unboundAlias _ _ _ => .info
  | internalFault _ => .error
  | remark level _ _ _ => level

def message : Diagnostic → Text
  | unclosedBody name _ =>
      "CTE '".toList ++ name ++ ("' has no closing parenthesis. " ++
        "Analyzing the whole statement as one scope.").toList
  | unboundAlias condition qualifier _ =>
      "Alias '".toList ++ qualifier ++ "' in condition '".toList ++ condition ++
        "' is not bound in this scope. Condition ignored.".toList
  | internalFault fault =>
      "Extraction failed internally (".toList ++ fault.label ++ ": ".toList ++ fault.message ++
        "). Returning an empty graph.".toList
  | remark _ message _ _ => message

def context : Diagnostic → Option Text
  | unclosedBody _ _ | internalFault _ => none
  | unboundAlias condition _ _ => some condition
  | remark _ _ context _ => context

def position : Diagnostic → Option Int
  | unclosedBody _ position | unboundAlias _ _ position => some position
  | internalFault _ => none
  | remark _ _ _ position => position

end Diagnostic

structure Log where
  enabled : Bool
  entries : List Diagnostic
deriving DecidableEq, Repr

namespace Log

def empty (enabled : Bool) : Log :=
  ⟨enabled, []⟩

def add (log : Log) (diagnostic : Diagnostic) : Log :=
  if log.enabled then { log with entries := log.entries ++ [diagnostic] } else log

def clear (log : Log) : Log :=
  { log with entries := [] }

def ofLevel (log : Log) (level : Level) : List Diagnostic :=
  log.entries.filter fun diagnostic => diagnostic.level == level

def hasErrors (log : Log) : Bool :=
  log.entries.any fun diagnostic => diagnostic.level == .error

def summary (log : Log) : List (Level × Nat) :=
  Level.all.map fun level => (level, (log.ofLevel level).length)

end Log

end JoinGraph
