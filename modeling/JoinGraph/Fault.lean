import JoinGraph.Json.Basic
import JoinGraph.Link
import JoinGraph.Node

namespace JoinGraph

inductive Fault
  | span (fault : SpanFault)
  | node (fault : NodeFault)
  | count (fault : CountFault)
  /-- The body of a common table expression is never closed. -/
  | unclosedBody (name : Text) (openAt : Nat)
  /-- An offset lies before the text even when it is counted from the end. -/
  | offsetOutOfRange
  /-- An offset from the end of a text is no count of characters. -/
  | offsetTooWide
  /-- A value that is no text was given where a text is analysed. -/
  | notText (kind : Text)
  /-- A value that names no member of the enumeration `enumeration`. -/
  | notMember (shown enumeration : Text)
  /-- A step of the analysis that was supplied from outside failed. -/
  | raised (label message : Text)
deriving DecidableEq, Repr

namespace Fault

def label : Fault → Text
  | span _ | node _ | notMember _ _ => "ValueError".toList
  | unclosedBody _ _ => "UnbalancedParenthesisError".toList
  | count .tooWide => "OverflowError".toList
  | count .outOfMemory => "MemoryError".toList
  | offsetOutOfRange | offsetTooWide => "IndexError".toList
  | notText _ => "TypeError".toList
  | raised label _ => label

/-- What the fault says. The message of a missing key is the key in quotes. -/
def message : Fault → Text
  | span fault => fault.message
  | node fault => fault.message
  | count fault => fault.message
  | offsetTooWide => CountFault.tooWide.message
  | unclosedBody name openAt =>
      "No closing parenthesis for CTE '".toList ++ name ++ "' (opened at offset ".toList ++
        Text.decimal openAt ++ [')']
  | offsetOutOfRange => "string index out of range".toList
  | notText kind => "expected string or bytes-like object, got '".toList ++ kind ++ ['\'']
  | notMember shown enumeration => shown ++ " is not a valid ".toList ++ enumeration
  | raised label message => if label = "KeyError".toList then message.quoted else message

end Fault

def NodeKind.ofJson (value : Json) : Except Fault NodeKind :=
  match NodeKind.ofName? value.plain, value with
  | some kind, .text _ => .ok kind
  | _, _ => .error (.notMember value.describe "NodeKind".toList)

def LinkKind.ofJson (value : Json) : Except Fault LinkKind :=
  match LinkKind.ofName? value.plain, value with
  | some kind, .text _ => .ok kind
  | _, _ => .error (.notMember value.describe "LinkKind".toList)

end JoinGraph
