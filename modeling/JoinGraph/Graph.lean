import JoinGraph.Link
import JoinGraph.Node
import JoinGraph.Text.Capital

namespace JoinGraph

structure Graph where
  nodes : List Node
  links : List Link
deriving DecidableEq, Repr

namespace Graph

/-- The graph without relations, which text without a recognisable table has. -/
def empty : Graph :=
  ⟨[], []⟩

def isEmpty (graph : Graph) : Bool :=
  graph.nodes.isEmpty && graph.links.isEmpty

/-- The first node whose identity is `id` in capitals. -/
def node? (graph : Graph) (id : Text) : Option Node :=
  graph.nodes.find? fun node => node.id == id.upper

def nodesOfKind (graph : Graph) (kind : NodeKind) : List Node :=
  graph.nodes.filter fun node => node.kind == kind

def linksOfKind (graph : Graph) (kind : LinkKind) : List Link :=
  graph.links.filter fun link => link.kind == kind

/-- The nodes of a list that have a location, with it, by increasing start. Nodes with the same
start keep their order. -/
def locate (nodes : List Node) : List (Node × Span) :=
  (nodes.filterMap fun node => node.location.map (node, ·)).mergeSort
    fun a b => decide (a.2.start ≤ b.2.start)

/-- The nodes with a location, by increasing start. -/
def located (graph : Graph) : List Node :=
  (locate graph.nodes).map (·.1)

def shift (graph : Graph) (offset : Int) : Except SpanFault Graph := do
  let nodes ← graph.nodes.mapM fun node => node.shift offset
  return { graph with nodes }

def shiftRight (graph : Graph) (offset : Nat) : Graph :=
  { graph with nodes := graph.nodes.map fun node => node.shiftRight offset }

theorem shift_natCast (graph : Graph) (offset : Nat) :
    graph.shift offset = .ok (graph.shiftRight offset) := by
  have hnodes : ∀ nodes : List Node, (nodes.mapM fun node => node.shift offset) =
      (.ok (nodes.map fun node => node.shiftRight offset) : Except SpanFault (List Node)) := by
    intro nodes
    induction nodes with
    | nil => rfl
    | cons node rest ih =>
        simp [List.mapM_cons, ih, node.shift_natCast, bind, Except.bind, pure, Except.pure]
  simp [Graph.shift, Graph.shiftRight, hnodes, bind, Except.bind, pure, Except.pure]

end Graph

end JoinGraph
