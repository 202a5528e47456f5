import JoinGraph.Json.Basic
import JoinGraph.Network.Basic
import JoinGraph.Script

namespace JoinGraph

namespace Json

def ofNat (n : Nat) : Json :=
  .int n

def ofString (s : String) : Json :=
  .text s.toList

def ofOption {α : Type} (write : α → Json) : Option α → Json
  | none => null
  | some value => write value

/-- An object whose field names are given as strings. -/
def record (fields : List (String × Json)) : Json :=
  object (fields.map fun (name, value) => (name.toList, value))

end Json

def Span.toJson (span : Span) : Json :=
  .record [("start", .ofNat span.start), ("end", .ofNat span.stop)]

/-- A location. An empty one is written like an absent one. -/
def Json.ofLocation (location : Option Span) : Json :=
  match location with
  | none => .null
  | some span => if span.length = 0 then .null else span.toJson

def Node.toJson (node : Node) : Json :=
  .record [
    ("id", .text node.id),
    ("tableName", .text node.table),
    ("alias", .text node.label),
    ("type", .text node.kind.name),
    ("location", .ofLocation node.location)]

def Link.toJson (link : Link) : Json :=
  .record [
    ("source", .text link.source),
    ("target", .text link.target),
    ("joinType", .text link.kind.name),
    ("condition", .text link.condition)]

def Graph.fields (graph : Graph) : List (String × Json) := [
  ("nodes", .list (graph.nodes.map Node.toJson)),
  ("links", .list (graph.links.map Link.toJson))]

def Graph.toJson (graph : Graph) : Json :=
  .record graph.fields

/-- A node whose location has a length, as JSON. -/
def Node.toWire (node : Node) : Except CountFault Json := do
  node.location.forM fun span => discard span.size
  return node.toJson

/-- A graph all of whose locations have a length, as JSON. -/
def Graph.toWire (graph : Graph) : Except CountFault Json := do
  let nodes ← graph.nodes.mapM Node.toWire
  return .record [("nodes", .list nodes), ("links", .list (graph.links.map Link.toJson))]

/-- A diagnostic whose position is told by `place`. -/
def Diagnostic.toJsonAt (place : Int → Int) (diagnostic : Diagnostic) : Json :=
  .record [
    ("level", .text diagnostic.level.name),
    ("message", .text diagnostic.message),
    ("context", .ofOption .text diagnostic.context),
    ("position", .ofOption (fun position => .int (place position)) diagnostic.position)]

def Diagnostic.toJson (diagnostic : Diagnostic) : Json :=
  diagnostic.toJsonAt id

inductive Status
  | idle
  | loading
  | success
  | error
deriving DecidableEq, Repr

namespace Status

def all : List Status :=
  [idle, loading, success, error]

def name : Status → Text
  | idle => "IDLE".toList
  | loading => "LOADING".toList
  | success => "SUCCESS".toList
  | error => "ERROR".toList

end Status

def Outcome.status (outcome : Outcome) : Status :=
  if outcome.isSuccess then .success else .error

def Outcome.toJson (outcome : Outcome) : Json :=
  .record (outcome.graph.fields ++ [
    ("status", .text outcome.status.name),
    ("warnings", .list (outcome.diagnostics.map Diagnostic.toJson)),
    ("error", .ofOption .text outcome.error?)])

/-- A statement of a script, with all places told in the script. -/
def Analysed.toJson (analysed : Analysed) : Json :=
  .record ([
    ("statement", Json.ofNat (analysed.statement.index + 1)),
    ("start", Json.ofNat analysed.statement.start),
    ("end", Json.ofNat analysed.statement.stop),
    ("status", Json.text analysed.outcome.status.name)] ++ analysed.graph.fields ++ [
    ("warnings",
      Json.list (analysed.outcome.diagnostics.map fun diagnostic =>
        diagnostic.toJsonAt analysed.place))])

def Script.toJson (results : List Analysed) : Json :=
  .record [("statements", .list (results.map Analysed.toJson))]

/-- A vertex. One without attributes has an identity only. -/
def Vertex.toJson (vertex : Vertex) : Json :=
  .record (("id", Json.text vertex.id) ::
    match vertex.attributes with
    | none => []
    | some attributes => [
        ("table_name", .text attributes.table),
        ("alias", .text attributes.label),
        ("kind", .text attributes.kind.name)])

namespace RelationGraph

variable {γ : Type} {library : Multigraph γ}

def edgeJson (link : Link) : Json :=
  .record [
    ("source", .text link.source),
    ("target", .text link.target),
    ("kind", .text link.kind.name),
    ("condition", .text link.condition)]

def toJson (network : RelationGraph library) : Json :=
  .record [
    ("nodes", .list (network.vertices.map Vertex.toJson)),
    ("edges", .list (network.edges.map edgeJson))]

def statisticsJson (network : RelationGraph library) : Json :=
  .object (network.statistics.map fun (metric, value) => (metric.name, .ofNat value))

end RelationGraph

end JoinGraph
