import JoinGraph.Graph
import JoinGraph.Network.Library

namespace JoinGraph

def Node.attributes (node : Node) : Attributes :=
  ⟨node.table, node.label, node.kind⟩

/-- A graph as a library keeps it. -/
structure RelationGraph {γ : Type} (library : Multigraph γ) where
  graph : γ

namespace RelationGraph

variable {γ : Type} {library : Multigraph γ}

/-- Load a graph: its nodes one by one, and then its links. -/
def ofGraph (library : Multigraph γ) (graph : Graph) : RelationGraph library :=
  ⟨graph.links.foldl library.addEdge (graph.nodes.foldl
    (fun loaded node => library.addNode loaded node.id node.attributes) library.empty)⟩

def vertices (network : RelationGraph library) : List Vertex :=
  library.nodes network.graph

def ids (network : RelationGraph library) : List Text :=
  library.ids network.graph

def edges (network : RelationGraph library) : List Link :=
  library.edges network.graph

/-- How many edges lead from one vertex to another. -/
def edgeCount (network : RelationGraph library) (source target : Text) : Nat :=
  (network.edges.filter fun link => link.source == source && link.target == target).length

def edgesOfKind (network : RelationGraph library) (kind : LinkKind) : List Link :=
  network.edges.filter fun link => link.kind == kind

/-- The given identities as a sorted list without repetition. -/
def idSet (found : List Text) : List Text :=
  Text.sort found.eraseDups

/-- The relations that a join links with `id`, in either direction. -/
def joinedWith (network : RelationGraph library) (id : Text) : List Text :=
  idSet ((network.edgesOfKind .join).filterMap fun link =>
    if link.source = id then some link.target
    else if link.target = id then some link.source
    else none)

/-- The relations used in the body of the common table expression `id`. -/
def cteMembers (network : RelationGraph library) (id : Text) : List Text :=
  idSet (((network.edgesOfKind .cteDef).filter fun link => link.target == id).map Link.source)

/-- The aliased uses of the common table expression `id`. -/
def instancesOf (network : RelationGraph library) (id : Text) : List Text :=
  idSet (((network.edgesOfKind .usage).filter fun link => link.source == id).map Link.target)

/-- The other vertices with a directed path to `id`. -/
def ancestorsOf (network : RelationGraph library) (id : Text) : List Text :=
  if library.hasNode network.graph id then idSet (library.ancestors network.graph id) else []

/-- Whether one group of relations is listed before another: larger groups first, groups of one
size by their members. -/
def groupLe (a b : List Text) : Bool :=
  decide (b.length < a.length) || (a.length == b.length && !decide (b < a))

/-- The groups of connected relations, each sorted. -/
def groups (network : RelationGraph library) : List (List Text) :=
  ((library.components network.graph).map Text.sort).mergeSort groupLe

inductive Metric
  | totalNodes
  | totalLinks
  | nodes (kind : NodeKind)
  | links (kind : LinkKind)
  | components
deriving DecidableEq, Repr

namespace Metric

def all : List Metric :=
  [totalNodes, totalLinks] ++ NodeKind.all.map nodes ++ LinkKind.all.map links ++ [components]

def name : Metric → Text
  | totalNodes => "total_nodes".toList
  | totalLinks => "total_links".toList
  | nodes kind => kind.name.map Char.toLower ++ "_nodes".toList
  | links kind => kind.name.map Char.toLower ++ "_links".toList
  | components => "components".toList

end Metric

def countNodes (network : RelationGraph library) (kind : NodeKind) : Nat :=
  (network.vertices.filter fun vertex =>
    vertex.attributes.any fun attributes => attributes.kind == kind).length

def count (network : RelationGraph library) : Metric → Nat
  | .totalNodes => library.numberOfNodes network.graph
  | .totalLinks => library.numberOfEdges network.graph
  | .nodes kind => network.countNodes kind
  | .links kind => (network.edgesOfKind kind).length
  | .components =>
      if library.numberOfNodes network.graph = 0 then 0
      else library.numberOfComponents network.graph

def statistics (network : RelationGraph library) : List (Metric × Nat) :=
  Metric.all.map fun metric => (metric, network.count metric)

end RelationGraph

end JoinGraph
