import JoinGraph.Network.Basic
import JoinGraph.Network.Reach

namespace JoinGraph

/-- A multigraph as two lists: the vertices by first mention, and the edges by first mention of
their key. -/
structure Store where
  vertices : List Vertex
  links : List Link
  nodup_ids : (vertices.map Vertex.id).Nodup
  nodup_keys : (links.map Link.key).Nodup
  ends_mem : ∀ link ∈ links,
    link.source ∈ vertices.map Vertex.id ∧ link.target ∈ vertices.map Vertex.id

namespace Store

def ids (store : Store) : List Text :=
  store.vertices.map Vertex.id

def empty : Store where
  vertices := []
  links := []
  nodup_ids := List.nodup_nil
  nodup_keys := List.nodup_nil
  ends_mem _ hlink := (List.not_mem_nil hlink).elim

def addNode (store : Store) (id : Text) (attributes : Attributes) : Store where
  vertices := upsert Vertex.id store.vertices ⟨id, some attributes⟩
  links := store.links
  nodup_ids := nodup_map_key_upsert store.nodup_ids
  nodup_keys := store.nodup_keys
  ends_mem link hlink := by
    obtain ⟨hsource, htarget⟩ := store.ends_mem link hlink
    simp only [mem_map_key_upsert_iff]
    exact ⟨Or.inl hsource, Or.inl htarget⟩

def addEdge (store : Store) (link : Link) : Store where
  vertices := Vertex.mention (Vertex.mention store.vertices link.source) link.target
  links := upsert Link.key store.links link
  nodup_ids := Vertex.nodup_ids_mention (Vertex.nodup_ids_mention store.nodup_ids _) _
  nodup_keys := nodup_map_key_upsert store.nodup_keys
  ends_mem edge hedge := by
    simp only [Vertex.mem_ids_mention_iff]
    rcases mem_upsert_iff.mp hedge with rfl | ⟨hknown, -⟩
    · exact ⟨Or.inl (Or.inr rfl), Or.inr rfl⟩
    · obtain ⟨hsource, htarget⟩ := store.ends_mem edge hknown
      exact ⟨Or.inl (Or.inl hsource), Or.inl (Or.inl htarget)⟩

/-- The edges that leave a vertex, by first edge to their target. -/
def edgesFrom (store : Store) (id : Text) : List Link :=
  let leaving := store.links.filter fun link => link.source == id
  (leaving.map Link.target).eraseDups.flatMap fun target =>
    leaving.filter fun link => link.target == target

/-- All edges, by the order of their source vertices. -/
def edges (store : Store) : List Link :=
  store.ids.flatMap store.edgesFrom

/-- The sources of the edges into a layer of vertices. -/
def predecessors (store : Store) (layer : List Text) : List Text :=
  (store.links.filter fun link => decide (link.target ∈ layer)).map Link.source

/-- The other ends of the edges at a layer of vertices, in either direction. -/
def neighbours (store : Store) (layer : List Text) : List Text :=
  store.predecessors layer ++
    (store.links.filter fun link => decide (link.source ∈ layer)).map Link.target

def ancestors (store : Store) (id : Text) : List Text :=
  spread store.predecessors (store.ids.filter fun other => other != id) [id]

def components (store : Store) : List (List Text) :=
  groupsOf store.neighbours store.ids

/-- The stores as a library for multigraphs. -/
def library : Multigraph Store where
  empty := empty
  addNode := addNode
  addEdge := addEdge
  nodes := vertices
  edges := edges
  hasNode store id := decide (id ∈ store.ids)
  numberOfNodes store := store.vertices.length
  numberOfEdges store := store.links.length
  ancestors := ancestors
  components := components
  numberOfComponents store := store.components.length

end Store

/-- A graph loaded into a store. -/
abbrev Network :=
  RelationGraph Store.library

abbrev Network.ofGraph (graph : Graph) : Network :=
  RelationGraph.ofGraph Store.library graph

end JoinGraph
