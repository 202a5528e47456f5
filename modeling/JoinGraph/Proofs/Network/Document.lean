import JoinGraph.Proofs.Network.Built
import JoinGraph.Proofs.Network.Quoting
import JoinGraph.Proofs.Network.Store

namespace JoinGraph

/-- When all links lead between nodes, there is a vertex for each identity, made by the last of its
nodes. -/
theorem RelationGraph.exists_nodes_vertices {γ : Type} {library : Multigraph γ}
    (h : library.Lawful) {graph : Graph} (hends : ∀ link ∈ graph.links,
      link.source ∈ graph.nodes.map Node.id ∧ link.target ∈ graph.nodes.map Node.id) :
    ∃ nodes : List Node, (ofGraph library graph).vertices = nodes.map Vertex.ofNode ∧
      nodes.map Node.id = (graph.nodes.map Node.id).eraseDups ∧
      ∀ node ∈ nodes, LastBy Node.id graph.nodes node := by
  have hids : (graph.nodes.foldl (upsert Node.id) []).map Node.id =
      (graph.nodes.map Node.id).eraseDups := map_key_foldl_upsert graph.nodes
  have hsame : Node.id = Vertex.id ∘ Vertex.ofNode := rfl
  have hmade : (graph.nodes.foldl (upsert Node.id) []).map Vertex.ofNode =
      (graph.nodes.map Vertex.ofNode).foldl (upsert Vertex.id) [] := by
    rw [hsame]
    exact map_foldl_upsert Vertex.ofNode graph.nodes []
  refine ⟨graph.nodes.foldl (upsert Node.id) [], ?_, hids, ?_⟩
  · rw [vertices_ofGraph h, ← hmade]
    apply Vertex.foldl_mentionEnds_eq_self
    have hnames : ((graph.nodes.foldl (upsert Node.id) []).map Vertex.ofNode).map Vertex.id =
        (graph.nodes.foldl (upsert Node.id) []).map Node.id := List.map_map
    simpa only [hnames, hids, List.mem_eraseDups] using hends
  · intro node hnode
    exact (mem_foldl_upsert_iff.mp hnode).resolve_left fun hbefore => List.not_mem_nil hbefore.1

namespace Dot

def ofVertex (vertex : Vertex) : Statement where
  source := vertex.id
  target := none
  label := RelationGraph.vertexLabel vertex
  further := ", shape=".toList ++ RelationGraph.vertexShape vertex

/-- What a node is declared with: its alias with its table name, as a box if it is a common table
expression. -/
def ofNode (node : Node) : Statement where
  source := node.id
  target := none
  label := node.label ++ " (".toList ++ node.table ++ [')']
  further := if node.kind = .cte then ", shape=box".toList else ", shape=ellipse".toList

/-- What an edge is declared with: the condition of a join, or the name of its kind on a dashed
edge. -/
def ofLink (link : Link) : Statement where
  source := link.source
  target := some link.target
  label := if link.kind.isStructural then link.kind.name else link.condition
  further := if link.kind.isStructural then ", style=dashed".toList else []

theorem ofVertex_ofNode (node : Node) : ofVertex (Vertex.ofNode node) = ofNode node := by
  obtain ⟨id, table, label, kind, location, hid, htable⟩ := node
  cases kind <;> rfl

theorem bracket_notMem_further_ofVertex (vertex : Vertex) : ']' ∉ (ofVertex vertex).further := by
  simp only [ofVertex, RelationGraph.vertexShape]
  split <;> decide

theorem bracket_notMem_further_ofLink (link : Link) : ']' ∉ (ofLink link).further := by
  simp only [ofLink]
  split <;> decide

theorem line_ofVertex (vertex : Vertex) :
    (ofVertex vertex).line = RelationGraph.vertexLine vertex := by
  have hlabel : "\" [label=\"".toList = '"' :: " [label=\"".toList := rfl
  have hshape : "\", shape=".toList = '"' :: ", shape=".toList := rfl
  -- Deriving the equation of a long row of literals is costly, unfolding is not.
  delta RelationGraph.vertexLine
  simp only [Statement.line, ofVertex, targetText_none, hlabel, hshape,
    List.append_assoc, List.cons_append, List.nil_append]

theorem line_ofLink (link : Link) : (ofLink link).line = RelationGraph.edgeLine link := by
  have harrow : "\" -> \"".toList = '"' :: " -> \"".toList := rfl
  have hlabel : "\" [label=\"".toList = '"' :: " [label=\"".toList := rfl
  have hdashed : "\", style=dashed];".toList = '"' :: (", style=dashed".toList ++ "];".toList) :=
    rfl
  have hend : "\"];".toList = '"' :: "];".toList := rfl
  have hname : Verbatim link.kind.name := by
    cases link.kind <;> decide
  cases hkind : link.kind.isStructural with
  | true =>
      simp only [Statement.line, ofLink, targetText_some, RelationGraph.edgeLine, hkind, if_true, harrow,
        hlabel, hdashed, escapeLabel_of_verbatim hname, List.append_assoc, List.cons_append,
        List.nil_append]
  | false =>
      simp only [Statement.line, ofLink, targetText_some, RelationGraph.edgeLine, hkind,
        Bool.false_eq_true, if_false, harrow, hlabel, hend, List.append_assoc, List.cons_append,
        List.nil_append]

theorem join_concat (lines : List Text) (last : Text) :
    Text.join ['\n'] (lines ++ [last]) = lines.flatMap (· ++ ['\n']) ++ last := by
  rw [Text.join]
  induction lines with
  | nil => simp
  | cons line rest ih =>
      have hne : rest ++ [last] ≠ [] := List.append_ne_nil_of_right_ne_nil _ (List.cons_ne_nil _ _)
      rw [List.cons_append, List.intercalate_cons_of_ne_nil hne, ih, List.flatMap_cons]
      simp only [List.append_assoc]

section Documents

variable {γ : Type} {library : Multigraph γ} {network : RelationGraph library}

theorem toDot_eq (network : RelationGraph library) : network.toDot = "digraph G \x7b\n".toList ++
    body (network.vertices.map ofVertex ++ network.edges.map ofLink) := by
  have hlines : network.dotLines = "digraph G \x7b".toList ::
      (network.vertices.map ofVertex ++ network.edges.map ofLink).map Statement.line ++
        [['\x7d']] := by
    simp only [RelationGraph.dotLines, List.map_append, List.map_map, List.append_assoc,
      List.cons_append, List.nil_append, Function.comp_def, line_ofVertex, line_ofLink]
  rw [RelationGraph.toDot, hlines, join_concat, List.flatMap_cons, body, List.flatMap_map,
    List.append_assoc]
  rfl

theorem document?_toDot (network : RelationGraph library) : document? network.toDot =
    statements? (body (network.vertices.map ofVertex ++ network.edges.map ofLink)).length
      (body (network.vertices.map ofVertex ++ network.edges.map ofLink)) := by
  rw [document?, toDot_eq, dropPrefix?_append, Option.bind_eq_bind, Option.bind_some]

theorem document?_toDot_of_verbatim (hids : ∀ id ∈ network.ids, Verbatim id)
    (hends : ∀ link ∈ network.edges, link.source ∈ network.ids ∧ link.target ∈ network.ids) :
    document? network.toDot =
      some (network.vertices.map ofVertex ++ network.edges.map ofLink) := by
  rw [document?_toDot]
  refine statements?_body ?_ (length_lt_length_body _)
  rw [List.forall_mem_append, List.forall_mem_map, List.forall_mem_map]
  constructor
  · intro vertex hvertex
    refine ⟨hids vertex.id (List.mem_map_of_mem hvertex), ?_,
      bracket_notMem_further_ofVertex vertex⟩
    intro target htarget
    cases htarget
  · intro link hlink
    refine ⟨hids link.source (hends link hlink).1, ?_, bracket_notMem_further_ofLink link⟩
    rintro target ⟨⟩
    exact hids link.target (hends link hlink).2

theorem verbatim_of_document?_toDot {read : List Statement}
    (hread : document? network.toDot = some read)
    (hnames : network.ids <+: read.map Statement.source) : ∀ id ∈ network.ids, Verbatim id := by
  rw [document?_toDot] at hread
  have hvertices : ∀ statement ∈ network.vertices.map ofVertex,
      statement.target = none ∧ ']' ∉ statement.further := by
    rw [List.forall_mem_map]
    exact fun vertex _ => ⟨rfl, bracket_notMem_further_ofVertex vertex⟩
  have hsources : (network.vertices.map ofVertex).map Statement.source = network.ids :=
    List.map_map
  rw [← hsources] at hnames ⊢
  rw [List.forall_mem_map]
  exact verbatim_of_statements? hvertices hread hnames

end Documents

/-- Take a graph whose links lead between its nodes, and whatever lawful library keeps it. Its
document is read as one statement for each identity, in the order of the first nodes, with the
alias, the table name and the kind of the last node, and one statement for each source, target and
kind of a link, with the label of the last such link, exactly if no identity holds a double quote or
a backslash. The aliases, the table names and the conditions may hold anything. -/
theorem document?_toDot_iff {γ : Type} {library : Multigraph γ} (h : library.Lawful)
    {graph : Graph} (hends : ∀ link ∈ graph.links,
      link.source ∈ graph.nodes.map Node.id ∧ link.target ∈ graph.nodes.map Node.id) :
    (∃ (nodes : List Node) (edges : List Link),
      document? (RelationGraph.ofGraph library graph).toDot =
        some (nodes.map ofNode ++ edges.map ofLink) ∧
      nodes.map Node.id = (graph.nodes.map Node.id).eraseDups ∧
      (∀ node ∈ nodes, LastBy Node.id graph.nodes node) ∧
      (edges.map Link.key).Nodup ∧
      ∀ edge, edge ∈ edges ↔ Link.LastOf graph.links edge) ↔
    ∀ node ∈ graph.nodes, Verbatim node.id := by
  obtain ⟨nodes, hvertices, hnames, hlast⟩ := RelationGraph.exists_nodes_vertices h hends
  have hids : (RelationGraph.ofGraph library graph).ids = (graph.nodes.map Node.id).eraseDups := by
    have hmap : (RelationGraph.ofGraph library graph).ids =
        (RelationGraph.ofGraph library graph).vertices.map Vertex.id := rfl
    rw [hmap, hvertices, List.map_map, ← hnames]
    rfl
  have hverbatim : (∀ node ∈ graph.nodes, Verbatim node.id) ↔
      ∀ id ∈ (RelationGraph.ofGraph library graph).ids, Verbatim id := by
    rw [hids, ← List.forall_mem_map]
    exact forall_congr' fun id => imp_congr List.mem_eraseDups.symm Iff.rfl
  rw [hverbatim]
  constructor
  · rintro ⟨named, edges, hread, hnamed, -⟩
    refine verbatim_of_document?_toDot hread ?_
    rw [hids, ← hnamed, List.map_append, List.map_map]
    exact List.prefix_append _ _
  · intro hplain
    have hread := document?_toDot_of_verbatim hplain fun link hlink =>
      RelationGraph.ends_mem_ids_ofGraph h hlink
    rw [hvertices, List.map_map, Function.comp_def] at hread
    simp only [ofVertex_ofNode] at hread
    exact ⟨nodes, (RelationGraph.ofGraph library graph).edges, hread, hnames, hlast,
      RelationGraph.nodup_keys_ofGraph h graph, fun edge => RelationGraph.mem_edges_ofGraph_iff h⟩

/-- Two relations and their join, with quotes, backslashes, brackets and ends of lines wherever they
are escaped. -/
def escapes : Graph where
  nodes :=
    [⟨"A".toList, "t\"];\n".toList, "\\\"a".toList, .main, none, by decide, by decide⟩,
      ⟨"B".toList, "s".toList, "\"".toList, .cte, none, by decide, by decide⟩]
  links := [⟨"A".toList, "B".toList, .join, "a.x = \"\\b\"\n.y".toList⟩]

theorem document?_toDot_escapes :
    Store.library.Lawful ∧
    (∀ link ∈ escapes.links,
      link.source ∈ escapes.nodes.map Node.id ∧ link.target ∈ escapes.nodes.map Node.id) ∧
    ∃ (nodes : List Node) (edges : List Link),
      document? (Network.ofGraph escapes).toDot = some (nodes.map ofNode ++ edges.map ofLink) ∧
      nodes.map Node.id = (escapes.nodes.map Node.id).eraseDups ∧
      (∀ node ∈ nodes, LastBy Node.id escapes.nodes node) ∧
      (edges.map Link.key).Nodup ∧
      ∀ edge, edge ∈ edges ↔ Link.LastOf escapes.links edge :=
  ⟨Store.lawful, by decide, (document?_toDot_iff Store.lawful (by decide)).mpr (by decide)⟩

def quoted : Graph :=
  ⟨[⟨"A\"B".toList, "t".toList, "t".toList, .main, none, by decide, by decide⟩], []⟩

theorem document?_toDot_quoted_id : ¬ ∀ (γ : Type) (library : Multigraph γ), library.Lawful →
    ∀ graph : Graph, (∀ link ∈ graph.links,
      link.source ∈ graph.nodes.map Node.id ∧ link.target ∈ graph.nodes.map Node.id) →
        ∃ statements, document? (RelationGraph.ofGraph library graph).toDot = some statements := by
  intro h
  obtain ⟨statements, hread⟩ := h Store Store.library Store.lawful quoted (by decide)
  have hnone : document? (Network.ofGraph quoted).toDot = none := by decide
  rw [hnone] at hread
  cases hread

end Dot

end JoinGraph
