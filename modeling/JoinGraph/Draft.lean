import JoinGraph.Graph

/-!
Drafts: graphs under construction.

A draft keeps one node for each identity, the first that was offered; one structural link for each
source, target and kind; and one join for each pair of relations, in whichever direction it was
found first. It also remembers which common table expressions have been defined.
-/

namespace JoinGraph

structure Draft where
  nodes : List Node
  links : List Link
  /-- The names of the common table expressions so far, in capitals. -/
  cteNames : List Text
deriving DecidableEq, Repr

namespace Draft

def empty : Draft :=
  ⟨[], [], []⟩

def graph (draft : Draft) : Graph :=
  ⟨draft.nodes, draft.links⟩

/-- The node with exactly the identity `id`. -/
def node? (draft : Draft) (id : Text) : Option Node :=
  draft.nodes.find? fun node => node.id == id

def hasNode (draft : Draft) (id : Text) : Bool :=
  draft.nodes.any fun node => node.id == id

/-- Whether a join links the relations `a` and `b`, in either direction. -/
def hasJoin (draft : Draft) (a b : Text) : Bool :=
  draft.links.any fun link => link.kind == .join && link.connects a b

/-- Whether a link says what an earlier one has said. -/
def hasLink (draft : Draft) (link : Link) : Bool :=
  match link.kind with
  | .join => draft.hasJoin link.source link.target
  | kind =>
      draft.links.any fun other =>
        other.kind == kind && other.source == link.source && other.target == link.target

/-- Add a node unless its identity is taken, and tell whether it was added. -/
def addNode (draft : Draft) (node : Node) : Draft × Bool :=
  if draft.hasNode node.id then (draft, false)
  else ({ draft with nodes := draft.nodes ++ [node] }, true)

/-- Add a link unless it is there already, and tell whether it was added. -/
def addLink (draft : Draft) (link : Link) : Draft × Bool :=
  if draft.hasLink link then (draft, false)
  else ({ draft with links := draft.links ++ [link] }, true)

def registerCte (draft : Draft) (name : Text) : Draft :=
  if name.upper ∈ draft.cteNames then draft
  else { draft with cteNames := draft.cteNames ++ [name.upper] }

/-- Whether a table name is that of a common table expression. -/
def isCte (draft : Draft) (table : Text) : Bool :=
  decide (table.upper ∈ draft.cteNames)

end Draft

end JoinGraph
