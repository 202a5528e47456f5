import JoinGraph.Link
import JoinGraph.Node

namespace JoinGraph

/-- What a node tells about a vertex. -/
structure Attributes where
  table : Text
  label : Text
  kind : NodeKind
deriving DecidableEq, Repr

/-- A vertex of a multigraph. One that is only named by edges has no attributes. -/
structure Vertex where
  id : Text
  attributes : Option Attributes
deriving DecidableEq, Repr

/-- What the program asks of a library for directed multigraphs, where a `γ` is a graph as the
library keeps it. An edge is written as a link: its kind is the key that tells it from the other
edges between its ends, and its condition is the data that it carries. -/
structure Multigraph (γ : Type) where
  empty : γ
  addNode : γ → Text → Attributes → γ
  addEdge : γ → Link → γ
  nodes : γ → List Vertex
  edges : γ → List Link
  hasNode : γ → Text → Bool
  numberOfNodes : γ → Nat
  numberOfEdges : γ → Nat
  /-- The set of vertices that have a path to the given one. -/
  ancestors : γ → Text → List Text
  /-- The sets of vertices that are connected when the direction of the edges is left out. -/
  components : γ → List (List Text)
  numberOfComponents : γ → Nat

namespace Multigraph

def ids {γ : Type} (library : Multigraph γ) (graph : γ) : List Text :=
  (library.nodes graph).map Vertex.id

end Multigraph

section Grown

variable {κ : Type} [BEq κ] [LawfulBEq κ] {known : List κ} {new : κ}

theorem mem_grown_iff {other : κ} :
    other ∈ (if new ∈ known then known else known ++ [new]) ↔ other ∈ known ∨ other = new := by
  split
  · next hknown => exact (or_iff_left_of_imp fun heq => heq ▸ hknown).symm
  · rw [List.mem_append, List.mem_singleton]

theorem nodup_grown (h : known.Nodup) :
    (if new ∈ known then known else known ++ [new]).Nodup := by
  split
  · exact h
  · next hnew =>
      refine List.nodup_append.mpr ⟨h, List.nodup_cons.mpr ⟨List.not_mem_nil, List.nodup_nil⟩, ?_⟩
      rintro other hother _ hsame rfl
      exact hnew (List.mem_singleton.mp hsame ▸ hother)

end Grown

/-- Put the item in the place of what has its key, or at the end. -/
def upsert {α κ : Type} [BEq κ] [LawfulBEq κ] (key : α → κ) (items : List α) (item : α) :
    List α :=
  if key item ∈ items.map key then
    items.map fun other => if key other == key item then item else other
  else items ++ [item]

section Upsert

variable {α κ : Type} [BEq κ] [LawfulBEq κ] {key : α → κ} {items : List α} {item : α}

theorem map_key_upsert : (upsert key items item).map key =
    if key item ∈ items.map key then items.map key else items.map key ++ [key item] := by
  rw [upsert]
  split
  · rw [List.map_map]
    apply List.map_congr_left
    intro other _
    rw [Function.comp_apply]
    split
    · next hsame => exact (beq_iff_eq.mp hsame).symm
    · rfl
  · rw [List.map_append, List.map_singleton]

theorem mem_map_key_upsert_iff {wanted : κ} :
    wanted ∈ (upsert key items item).map key ↔ wanted ∈ items.map key ∨ wanted = key item := by
  rw [map_key_upsert, mem_grown_iff]

theorem nodup_map_key_upsert (h : (items.map key).Nodup) :
    ((upsert key items item).map key).Nodup := by
  rw [map_key_upsert]
  exact nodup_grown h

theorem mem_upsert_iff {other : α} : other ∈ upsert key items item ↔
    other = item ∨ other ∈ items ∧ key other ≠ key item := by
  rw [upsert]
  split
  · next hknown =>
      obtain ⟨earlier, hearlier, hsame⟩ := List.mem_map.mp hknown
      rw [List.mem_map]
      constructor
      · rintro ⟨found, hfound, rfl⟩
        split
        · exact Or.inl rfl
        · next hdiffer => exact Or.inr ⟨hfound, mt beq_iff_eq.mpr hdiffer⟩
      · rintro (rfl | ⟨hother, hdiffer⟩)
        · exact ⟨earlier, hearlier, if_pos (beq_iff_eq.mpr hsame)⟩
        · exact ⟨other, hother, if_neg (mt beq_iff_eq.mp hdiffer)⟩
  · next hnew =>
      rw [List.mem_append, List.mem_singleton, or_comm]
      refine or_congr_right ⟨fun hother => ⟨hother, ?_⟩, And.left⟩
      intro hsame
      exact hnew (hsame ▸ List.mem_map_of_mem hother)

end Upsert

namespace Vertex

/-- The vertices, with one without attributes at the end if none has the identity. -/
def mention (vertices : List Vertex) (id : Text) : List Vertex :=
  if id ∈ vertices.map Vertex.id then vertices else vertices ++ [⟨id, none⟩]

theorem ids_mention (vertices : List Vertex) (id : Text) : (mention vertices id).map Vertex.id =
    if id ∈ vertices.map Vertex.id then vertices.map Vertex.id
    else vertices.map Vertex.id ++ [id] := by
  rw [mention]
  split
  · rfl
  · rw [List.map_append, List.map_singleton]

theorem mem_ids_mention_iff {vertices : List Vertex} {id other : Text} :
    other ∈ (mention vertices id).map Vertex.id ↔
      other ∈ vertices.map Vertex.id ∨ other = id := by
  rw [ids_mention, mem_grown_iff]

theorem nodup_ids_mention {vertices : List Vertex} (h : (vertices.map Vertex.id).Nodup)
    (id : Text) : ((mention vertices id).map Vertex.id).Nodup := by
  rw [ids_mention]
  exact nodup_grown h

end Vertex

end JoinGraph
