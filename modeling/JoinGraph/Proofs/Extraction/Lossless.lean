import JoinGraph.Proofs.Extraction.Faultless
import JoinGraph.Proofs.Extraction.Links
import JoinGraph.Proofs.Extraction.Nodes
import JoinGraph.Proofs.Network.Keyed
import JoinGraph.Proofs.Network.Store

namespace JoinGraph

theorem Link.repeats_of_key_eq {later earlier : Link} (h : later.key = earlier.key) :
    later.repeats earlier = true := by
  simp only [key, Prod.mk.injEq] at h
  obtain ⟨hsource, htarget, hkind⟩ := h
  rw [repeats, hkind, beq_self_eq_true, Bool.true_and]
  split
  · exact connects_iff.mpr (Or.inl ⟨hsource.symm, htarget.symm⟩)
  · rw [hsource, htarget, beq_self_eq_true, beq_self_eq_true]
    rfl

namespace Extraction

section Defined

variable {masked name : Text} {ending : Ending} {scope : Scope} {known : List Text}

theorem define_mem_definitionSteps {definitions : List Definition} {definition : Definition}
    (h : definition ∈ definitions) (before : List Text) :
    Step.define definition.name definition.nameSpan ∈ definitionSteps before definitions := by
  induction definitions generalizing before with
  | nil => cases h
  | cons first rest ih =>
      rcases List.mem_cons.mp h with rfl | hrest
      · exact List.mem_cons_self
      · exact List.mem_cons_of_mem _ (List.mem_cons_of_mem _ (ih hrest _))

theorem exists_define_of_mem {definitions : List Definition}
    (h : name ∈ definedNames definitions ++ ending.names) (before names : List Text) :
    ∃ written place, written.upper = name ∧ Step.define written place ∈
      definitionSteps before definitions ++ endingSteps masked names ending := by
  rcases List.mem_append.mp h with hclosed | hunclosed
  · obtain ⟨definition, hdefinition, rfl⟩ := List.mem_map.mp hclosed
    exact ⟨definition.name, definition.nameSpan, rfl,
      List.mem_append_left _ (define_mem_definitionSteps hdefinition before)⟩
  · cases ending with
    | main start => cases hunclosed
    | unclosed last nameStart openAt =>
        obtain rfl := List.mem_singleton.mp hunclosed
        exact ⟨last, _, rfl, List.mem_append_right _ List.mem_cons_self⟩

theorem known_subset_of_mem_steps {definitions : List Definition} {before : List Text}
    (h : Step.analyze scope known ∈ definitionSteps before definitions ++
      endingSteps masked (before ++ definedNames definitions) ending) :
    known ⊆ before ++ (definedNames definitions ++ ending.names) := by
  induction definitions generalizing before with
  | nil =>
      rw [definedNames, List.map_nil, List.append_nil] at h
      cases ending with
      | main start =>
          obtain ⟨-, rfl⟩ := Step.analyze.inj (List.mem_singleton.mp h)
          exact List.subset_append_left _ _
      | unclosed last nameStart openAt =>
          rcases List.mem_cons.mp h with hdefine | h
          · cases hdefine
          · obtain ⟨-, rfl⟩ := Step.analyze.inj (List.mem_singleton.mp h)
            exact List.Subset.refl _
  | cons definition rest ih =>
      have hnames : definedNames (definition :: rest) =
          [definition.name.upper] ++ definedNames rest := rfl
      rw [hnames, ← List.append_assoc] at h
      rw [hnames, List.append_assoc, ← List.append_assoc before]
      rcases List.mem_cons.mp h with hdefine | h
      · cases hdefine
      · rcases List.mem_cons.mp h with hanalyze | h
        · obtain ⟨-, rfl⟩ := Step.analyze.inj hanalyze
          exact List.subset_append_left _ _
        · exact ih h

theorem owner_mem_of_mem_definitionSteps {definitions : List Definition} {before : List Text}
    (h : Step.analyze scope known ∈ definitionSteps before definitions)
    (howner : scope.owner = some name) : name ∈ known := by
  induction definitions generalizing before with
  | nil => cases h
  | cons definition rest ih =>
      rcases List.mem_cons.mp h with hdefine | h
      · cases hdefine
      · rcases List.mem_cons.mp h with hanalyze | h
        · obtain ⟨rfl, rfl⟩ := Step.analyze.inj hanalyze
          obtain rfl := Option.some.inj howner
          exact List.mem_append_right before List.mem_cons_self
        · exact ih h

theorem owner_eq_none_of_mem_endingSteps {names : List Text}
    (h : Step.analyze scope known ∈ endingSteps masked names ending) : scope.owner = none := by
  cases ending with
  | main start =>
      obtain ⟨rfl, -⟩ := Step.analyze.inj (List.mem_singleton.mp h)
      rfl
  | unclosed last nameStart openAt =>
      rcases List.mem_cons.mp h with hdefine | h
      · cases hdefine
      · obtain ⟨rfl, -⟩ := Step.analyze.inj (List.mem_singleton.mp h)
        rfl

end Defined

section Mentioned

variable {keywords : List Text} {text : Text} {scope : Scope} {known : List Text}

theorem mentioned_of_mem_known (hstep : Step.analyze scope known ∈ course text) {name : Text}
    (hname : name ∈ known) : ∃ mention ∈ mentions keywords text, mention.id = name := by
  have hnamed := known_subset_of_mem_steps hstep hname
  rw [List.nil_append] at hnamed
  obtain ⟨written, place, hwritten, hdefine⟩ := exists_define_of_mem hnamed [] _
  refine ⟨.ofDefinition written place, ?_, hwritten⟩
  exact List.mem_flatMap.mpr ⟨_, hdefine, List.mem_cons_self⟩

theorem owner_mem_known (hstep : Step.analyze scope known ∈ course text) {owner : Text}
    (howner : scope.owner = some owner) : owner ∈ known := by
  rcases List.mem_append.mp hstep with hdefinition | hending
  · exact owner_mem_of_mem_definitionSteps hdefinition howner
  · rw [owner_eq_none_of_mem_endingSteps hending] at howner
    contradiction

theorem mentioned_of_mem_references (hstep : Step.analyze scope known ∈ course text)
    {reference : Reference} (hreference : reference ∈ Reference.findAll keywords scope.text) :
    ∃ mention ∈ mentions keywords text, mention.id = reference.id := by
  refine ⟨.ofReference scope known reference, ?_, rfl⟩
  exact List.mem_flatMap.mpr ⟨_, hstep, List.mem_map_of_mem hreference⟩

theorem mentioned_of_mem_offers {link : Link} (h : link ∈ offers keywords text) :
    (∃ mention ∈ mentions keywords text, mention.id = link.source) ∧
      ∃ mention ∈ mentions keywords text, mention.id = link.target := by
  obtain ⟨step, hstep, hlink⟩ := mem_offers_iff.mp h
  cases step with
  | define name place => rcases hlink with hlink | hlink <;> cases hlink
  | analyze scope known =>
      rcases hlink with hstructural | hjoin
      · obtain ⟨reference, hreference, ⟨owner, howner, rfl⟩ | ⟨hknown, -, rfl⟩⟩ :=
          Step.mem_structuralLinks_iff.mp hstructural
        · constructor
          · exact mentioned_of_mem_references hstep hreference
          · exact mentioned_of_mem_known hstep (owner_mem_known hstep howner)
        · constructor
          · exact mentioned_of_mem_known hstep hknown
          · exact mentioned_of_mem_references hstep hreference
      · obtain ⟨place, condition, -, hlink⟩ := Step.mem_joins_iff.mp hjoin
        obtain ⟨hleft, hright, rfl⟩ := Condition.link?_eq_some_iff.mp hlink
        obtain ⟨left, hleftMem, hleftId⟩ := List.mem_map.mp hleft
        obtain ⟨right, hrightMem, hrightId⟩ := List.mem_map.mp hright
        rw [← hleftId, ← hrightId]
        constructor
        · exact mentioned_of_mem_references hstep hleftMem
        · exact mentioned_of_mem_references hstep hrightMem

end Mentioned

theorem keyed_of_firsts {keywords : List Text} {text : Text} {graph : Graph}
    (hnodes : graph.nodes.map Node.mention =
      (mentions keywords text).eraseDupsBy Mention.repeats)
    (hlinks : graph.links = (offers keywords text).eraseDupsBy Link.repeats) : graph.Keyed := by
  have hmentioned : ∀ {id : Text}, (∃ mention ∈ mentions keywords text, mention.id = id) →
      id ∈ graph.nodes.map Node.id := by
    rintro id ⟨mention, hmention, rfl⟩
    obtain ⟨node, hnode, hid⟩ := exists_node_of_mem hnodes hmention
    rw [← hid]
    exact List.mem_map_of_mem hnode
  have hoffered : ∀ link ∈ graph.links, link ∈ offers keywords text := by
    rw [hlinks]
    exact (Firsts.eraseDupsBy_sublist _).subset
  constructor
  · exact nodup_ids hnodes
  · intro link hlink
    exact hmentioned (mentioned_of_mem_offers (hoffered link hlink)).1
  · intro link hlink
    exact hmentioned (mentioned_of_mem_offers (hoffered link hlink)).2
  · rw [hlinks, List.Nodup, List.pairwise_map]
    apply (Firsts.pairwise_eraseDupsBy _).imp
    intro earlier later hdiffer hsame
    rw [Link.repeats_of_key_eq hsame.symm] at hdiffer
    contradiction

/-- Every link of an extracted graph leads between nodes of it. Loaded into whatever lawful library,
the graph has its nodes as the vertices, in their order, and its links as the edges, each with its
condition. What is counted there are the nodes and links of the graph, kind by kind. -/
theorem extract_network_lossless {γ : Type} {library : Multigraph γ} (h : library.Lawful)
    (config : Config) (text : Text) :
    ∃ graph diagnostics, extract config text = .ok (.success graph diagnostics) ∧
      (∀ link ∈ graph.links, (∃ node ∈ graph.nodes, node.id = link.source) ∧
        ∃ node ∈ graph.nodes, node.id = link.target) ∧
      (RelationGraph.ofGraph library graph).vertices = graph.nodes.map Vertex.ofNode ∧
      (RelationGraph.ofGraph library graph).edges.Perm graph.links ∧
      (graph.links.map Link.key).Nodup ∧
      (∀ kind, (RelationGraph.ofGraph library graph).statistics.lookup (.nodes kind) =
        some (graph.nodesOfKind kind).length) ∧
      (∀ kind, (RelationGraph.ofGraph library graph).statistics.lookup (.links kind) =
        some (graph.linksOfKind kind).length) ∧
      (RelationGraph.ofGraph library graph).statistics.lookup .totalNodes =
        some (NodeKind.all.map fun kind => (graph.nodesOfKind kind).length).sum ∧
      (RelationGraph.ofGraph library graph).statistics.lookup .totalLinks =
        some (LinkKind.all.map fun kind => (graph.linksOfKind kind).length).sum := by
  obtain ⟨graph, diagnostics, hextract, hnodes, hlinks⟩ := extract_eq_ok config text
  have hkeyed := keyed_of_firsts hnodes hlinks
  refine ⟨graph, diagnostics, hextract, ?_, RelationGraph.vertices_of_keyed h hkeyed,
    RelationGraph.edges_perm_of_keyed h hkeyed, hkeyed.nodup_keys, ?_, ?_, ?_, ?_⟩
  · intro link hlink
    constructor
    · exact List.mem_map.mp (hkeyed.source_mem link hlink)
    · exact List.mem_map.mp (hkeyed.target_mem link hlink)
  · intro kind
    rw [RelationGraph.lookup_statistics, RelationGraph.count_nodes_of_keyed h hkeyed]
  · intro kind
    rw [RelationGraph.lookup_statistics, RelationGraph.count_links_of_keyed h hkeyed]
  · rw [RelationGraph.lookup_statistics, RelationGraph.count_totalNodes_of_keyed h hkeyed]
  · rw [RelationGraph.lookup_statistics, RelationGraph.count_totalLinks_of_keyed h hkeyed]

theorem extract_network_lossless_join :
    Store.library.Lawful ∧
    ∃ graph diagnostics, extract Config.default "FROM a JOIN b ON a.x = b.y".toList =
        .ok (.success graph diagnostics) ∧
      (Network.ofGraph graph).vertices = graph.nodes.map Vertex.ofNode ∧
      (Network.ofGraph graph).edges.Perm graph.links := by
  obtain ⟨graph, diagnostics, hextract, -, hvertices, hedges, -⟩ := extract_network_lossless
    Store.lawful Config.default "FROM a JOIN b ON a.x = b.y".toList
  exact ⟨Store.lawful, graph, diagnostics, hextract, hvertices, hedges⟩

end Extraction

end JoinGraph
