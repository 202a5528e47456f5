import JoinGraph.Network.Library
import Mathlib.Logic.Relation

/-!
What a library for multigraphs promises.

Adding and listing, the search for ancestors and the search for components are promised apart, so
that a statement names what it relies on.
-/

namespace JoinGraph

open Relation

/-- A link of any kind leads from the one identity to the other. -/
def Link.Leading (links : List Link) (source target : Text) : Prop :=
  ∃ link ∈ links, link.source = source ∧ link.target = target

namespace Multigraph

variable {γ : Type}

/-- Vertices are listed in the order in which they came. One that is added again keeps its place and
takes the new attributes. An edge brings the ends that are missing, without attributes, and takes
the place of the edge with its ends and key, if there is one. The edges are listed in any order. -/
structure Lawful (library : Multigraph γ) : Prop where
  nodes_empty : library.nodes library.empty = []
  edges_empty : library.edges library.empty = []
  nodes_addNode : ∀ graph id attributes, library.nodes (library.addNode graph id attributes) =
    upsert Vertex.id (library.nodes graph) ⟨id, some attributes⟩
  edges_addNode : ∀ graph id attributes,
    (library.edges (library.addNode graph id attributes)).Perm (library.edges graph)
  nodes_addEdge : ∀ graph link, library.nodes (library.addEdge graph link) =
    Vertex.mention (Vertex.mention (library.nodes graph) link.source) link.target
  edges_addEdge : ∀ graph link,
    (library.edges (library.addEdge graph link)).Perm (upsert Link.key (library.edges graph) link)
  hasNode_iff : ∀ graph id, library.hasNode graph id = true ↔ id ∈ library.ids graph
  numberOfNodes_eq : ∀ graph, library.numberOfNodes graph = (library.nodes graph).length
  numberOfEdges_eq : ∀ graph, library.numberOfEdges graph = (library.edges graph).length

/-- The ancestors of a vertex are the other vertices from which a path of edges leads to it. -/
def FindsAncestors (library : Multigraph γ) : Prop :=
  ∀ graph id, library.hasNode graph id = true → ∀ other,
    other ∈ library.ancestors graph id ↔
      other ≠ id ∧ TransGen (Link.Leading (library.edges graph)) other id

/-- The components share out the vertices, and each is the class of a vertex under chains of edges
in either direction. They are counted where there is a vertex. -/
structure FindsComponents (library : Multigraph γ) : Prop where
  flatten_perm : ∀ graph, (library.components graph).flatten.Perm (library.ids graph)
  exists_class : ∀ graph, ∀ component ∈ library.components graph, ∃ id, ∀ other,
    other ∈ component ↔ EqvGen (Link.Leading (library.edges graph)) other id
  numberOfComponents_eq : ∀ graph, library.nodes graph ≠ [] →
    library.numberOfComponents graph = (library.components graph).length

end Multigraph

end JoinGraph
