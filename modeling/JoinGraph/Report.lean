import JoinGraph.CommandLine
import JoinGraph.Excerpt
import JoinGraph.Highlight
import JoinGraph.Json.Wire
import JoinGraph.Network.Dot
import JoinGraph.Table.Basic
import JoinGraph.Terminal

namespace JoinGraph.Report

open Terminal (Print Stream colour)

def success (coloured : Bool) (message : Text) : Print :=
  .line (colour coloured .green ("[OK] ".toList ++ message))

def failure (coloured : Bool) (message : Text) : Print :=
  ⟨Stream.errors, some (colour coloured .red ("[ERROR] ".toList ++ message))⟩

def warning (coloured : Bool) (message : Text) : Print :=
  .line (colour coloured .yellow ("[WARN] ".toList ++ message))

def heading (coloured : Bool) (message : Text) : Print :=
  .line (colour coloured .cyan message)

/-- The location of a node unless it is empty. -/
def visibleLocation (node : Node) : Option Span :=
  node.location.filter fun span => decide (span.length ≠ 0)

def range (location : Option Span) : Text :=
  match location with
  | none => []
  | some span => Text.decimal span.start ++ '-' :: Text.decimal span.stop

def tables (graph : Graph) : List Print :=
  let nodes := Table.render
    ["Id".toList, "Kind".toList, "Table".toList, "Alias".toList, "Location".toList]
    (graph.nodes.map fun node =>
      [node.id, node.kind.name, node.table, node.label, range (visibleLocation node)])
  let links := Table.render
    ["Source".toList, "Target".toList, "Kind".toList, "Condition".toList]
    (graph.links.map fun link => [link.source, link.target, link.kind.name, link.condition])
  Print.line nodes :: if graph.links.isEmpty then [] else [Print.blank, Print.line links]

def nodeLine (coloured : Bool) (node : Node) : Print :=
  let hue := if node.kind = .cte then Terminal.Colour.green else Terminal.Colour.cyan
  let kind := colour coloured hue (Text.padRight 5 node.kind.name)
  let suffix := if node.hasAlias then " AS ".toList ++ node.label else []
  let place := match visibleLocation node with
    | none => []
    | some span => " @".toList ++ Text.decimal span.start
  .line ("  ".toList ++ kind ++ ' ' :: node.id ++ ": ".toList ++ node.table ++ suffix ++ place)

def linkLine (link : Link) : Print :=
  .line ("  ".toList ++ link.source ++ " -> ".toList ++ link.target ++ " [".toList ++
    link.kind.name ++ "] ".toList ++ link.condition)

def summary (coloured : Bool) (graph : Graph) : List Print :=
  Print.line "\nNodes:".toList :: graph.nodes.map (nodeLine coloured) ++
    if graph.links.isEmpty then []
    else Print.line "\nLinks:".toList :: graph.links.map linkLine

/-- What was found in a statement. Statements are numbered when there are several. -/
def statement (coloured numbered asTables : Bool) (analysed : Analysed) : List Print :=
  let graph := analysed.graph
  let title := heading coloured ("\n=== Statement ".toList ++
    Text.decimal (analysed.statement.index + 1) ++ " (offset ".toList ++
    Text.decimal analysed.statement.start ++ ") ===".toList)
  let content :=
    if graph.isEmpty then [warning coloured "No tables recognized".toList]
    else
      success coloured ("Found ".toList ++ Text.decimal graph.nodes.length ++
        " node(s) and ".toList ++ Text.decimal graph.links.length ++ " link(s)".toList) ::
        if asTables then tables graph else summary coloured graph
  (if numbered then [title] else []) ++ content

/-- The part of a segment from offset `start` on. -/
def clip (start : Nat) (segment : Segment) : Segment :=
  if segment.start < start then
    { segment with text := segment.text.drop (start - segment.start), start }
  else segment

/-- The segments of one statement of a script, the names of its nodes marked. -/
def segments (script : Text) (analysed : Analysed) : List Segment :=
  let all := Highlight.segments (script.take analysed.statement.stop) analysed.graph.nodes
  (all.filter fun segment => decide (analysed.statement.start < segment.stop)).map
    (clip analysed.statement.start)

def categoryColour : Category → Terminal.Colour
  | .cte => .onGreen
  | .subquery => .onYellow
  | .table => .onCyan

/-- A segment as shown: names in colour, or in brackets without colours. -/
def decorate (coloured : Bool) (segment : Segment) : Text :=
  match segment.node with
  | none => segment.text
  | some node =>
      if coloured then colour true (categoryColour node.kind.category) segment.text
      else '[' :: segment.text ++ [']']

/-- The text of a statement with the names of its nodes marked. -/
def highlighted (coloured : Bool) (script : Text) (analysed : Analysed) : List Print := [
  .line "\nHighlighted:".toList,
  .line (Text.trim (· == '\n') ((segments script analysed).flatMap (decorate coloured)))]

/-- The counts of nodes and links, by the names of the metrics. -/
def statistics {γ : Type} (library : Multigraph γ) (graph : Graph) : List Print :=
  let counts := (RelationGraph.ofGraph library graph).statistics.map fun (metric, value) =>
    (metric.name, Text.decimal value)
  let sorted := counts.mergeSort fun a b => Text.le a.1 b.1
  [Print.blank,
    .line (Table.render ["Metric".toList, "Count".toList]
      (sorted.map fun (name, value) => [name, value]))]

/-- A diagnostic behind its number, with the place it is about. -/
def diagnosticLines (script : Text) (analysed : Analysed) (number : Nat)
    (diagnostic : Diagnostic) : List Print :=
  .line ("  ".toList ++ Text.decimal number ++ ". [".toList ++ diagnostic.level.name ++
      "] ".toList ++ diagnostic.message) ::
    match diagnostic.position with
    | none => []
    | some position => [.line (Excerpt.around script (analysed.place position) 1 0)]

def diagnostics (coloured : Bool) (script : Text) (analysed : Analysed) : List Print :=
  let entries := analysed.outcome.diagnostics
  if entries.isEmpty then []
  else
    warning coloured ('\n' :: Text.decimal entries.length ++ " warning(s):".toList) ::
      entries.zipIdx.flatMap fun (diagnostic, index) =>
        diagnosticLines script analysed (index + 1) diagnostic

def document (results : List Analysed) : Text :=
  (Script.toJson results).render (some [' ', ' '])

/-- Everything that is printed about the analysis of a script. -/
def results {γ : Type} (library : Multigraph γ) (options : CommandLine.Options) (coloured : Bool)
    (script : Text) (results : List Analysed) : List Print :=
  let detailed := fun asTables => results.flatMap fun analysed =>
    statement coloured (decide (1 < results.length)) asTables analysed ++
      (if options.highlight then highlighted coloured script analysed else []) ++
      (if options.statistics then statistics library analysed.graph else []) ++
      (if options.noWarnings then [] else diagnostics coloured script analysed)
  match options.format with
  | .json => [.line (document results)]
  | .dot => results.map fun analysed =>
      .line (RelationGraph.ofGraph library analysed.graph).toDot
  | .table => detailed true
  | .pretty => detailed false

end JoinGraph.Report
