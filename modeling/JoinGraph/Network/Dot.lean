import JoinGraph.Network.Basic

namespace JoinGraph.RelationGraph

/-- A label between double quotes: backslashes and double quotes get a backslash in front. -/
def escapeLabel (label : Text) : Text :=
  label.flatMap fun c => if c = '\\' ∨ c = '"' then ['\\', c] else [c]

/-- An attribute of a vertex, where an absent one has a text of its own. -/
def attributeText (read : Attributes → Text) (vertex : Vertex) : Text :=
  match vertex.attributes with
  | some attributes => read attributes
  | none => "None".toList

def vertexLabel (vertex : Vertex) : Text :=
  attributeText Attributes.label vertex ++ " (".toList ++
    attributeText Attributes.table vertex ++ [')']

def vertexShape (vertex : Vertex) : Text :=
  if vertex.attributes.any fun attributes => attributes.kind == .cte then "box".toList
  else "ellipse".toList

def vertexLine (vertex : Vertex) : Text :=
  "  \"".toList ++ vertex.id ++ "\" [label=\"".toList ++ escapeLabel (vertexLabel vertex) ++
    "\", shape=".toList ++ vertexShape vertex ++ "];".toList

def edgeLine (link : Link) : Text :=
  let ends := "  \"".toList ++ link.source ++ "\" -> \"".toList ++ link.target ++
    "\" [label=\"".toList
  if link.kind.isStructural then ends ++ link.kind.name ++ "\", style=dashed];".toList
  else ends ++ escapeLabel link.condition ++ "\"];".toList

variable {γ : Type} {library : Multigraph γ}

/-- The lines of a DOT document: one for each vertex, then one for each edge, between braces. -/
def dotLines (network : RelationGraph library) : List Text :=
  ["digraph G \x7b".toList] ++ network.vertices.map vertexLine ++ network.edges.map edgeLine ++
    [['\x7d']]

def toDot (network : RelationGraph library) : Text :=
  Text.join ['\n'] network.dotLines

end JoinGraph.RelationGraph
