import JoinGraph.Proofs.Extraction.Course
import JoinGraph.Proofs.Firsts
import JoinGraph.Proofs.Reference.Places
import JoinGraph.Proofs.WithClause.Layout

/-!
What an extraction collects.

A draft holds the first mention of every identity and the first link of every meaning, out of all
that was mentioned and offered so far. Every step keeps this and none of them faults, so an
extraction always comes to an answer, and its graph holds the mentions and offers of the statement.
-/

namespace JoinGraph

/-- The draft holds the first of the mentions and of the links, and remembers the `known` names. -/
structure Draft.Holds (draft : Draft) (mentions : List Mention) (links : List Link)
    (known : List Text) : Prop where
  nodes_eq : draft.nodes.map Node.mention = mentions.eraseDupsBy Mention.repeats
  links_eq : draft.links = links.eraseDupsBy Link.repeats
  mem_cteNames_iff : ∀ name, name ∈ draft.cteNames ↔ name ∈ known

namespace Draft

theorem holds_empty : Draft.empty.Holds [] [] [] :=
  ⟨rfl, rfl, fun _ => Iff.rfl⟩

theorem hasLink_eq_any (draft : Draft) (link : Link) :
    draft.hasLink link = draft.links.any link.repeats := by
  obtain ⟨source, target, kind, condition⟩ := link
  unfold hasLink hasJoin Link.repeats
  cases kind <;> simp [Bool.and_assoc]

namespace Holds

variable {draft : Draft} {mentions : List Mention} {links : List Link} {known : List Text}

theorem hasNode_eq_any (h : draft.Holds mentions links known) {mention : Mention} {id : Text}
    (hid : mention.id = id) :
    draft.hasNode id = (mentions.eraseDupsBy Mention.repeats).any mention.repeats := by
  rw [← h.nodes_eq, List.any_map, hasNode, ← hid]
  apply List.any_congr rfl
  intro node
  exact Bool.beq_comm

theorem isCte_eq (h : draft.Holds mentions links known) (table : Text) :
    draft.isCte table = decide (table.upper ∈ known) := by
  rw [isCte, decide_eq_decide]
  exact h.mem_cteNames_iff table.upper

theorem of_hasNode (h : draft.Holds mentions links known) {mention : Mention}
    (hnode : draft.hasNode mention.id = true) :
    draft.Holds (mentions ++ [mention]) links known where
  nodes_eq := by
    rw [h.hasNode_eq_any rfl] at hnode
    rw [Firsts.eraseDupsBy_concat, if_pos hnode]
    exact h.nodes_eq
  links_eq := h.links_eq
  mem_cteNames_iff := h.mem_cteNames_iff

theorem addNode (h : draft.Holds mentions links known) (node : Node) :
    (draft.addNode node).1.Holds (mentions ++ [node.mention]) links known := by
  unfold Draft.addNode
  split
  · next hnode => exact h.of_hasNode hnode
  · next hnode =>
      refine ⟨?_, h.links_eq, h.mem_cteNames_iff⟩
      have hid : node.mention.id = node.id := rfl
      rw [h.hasNode_eq_any hid] at hnode
      rw [Firsts.eraseDupsBy_concat, if_neg hnode, List.map_append, h.nodes_eq]
      rfl

theorem addLink (h : draft.Holds mentions links known) (link : Link) :
    (draft.addLink link).1.Holds mentions (links ++ [link]) known := by
  unfold Draft.addLink
  rw [hasLink_eq_any, h.links_eq]
  split
  · next hlink =>
      refine ⟨h.nodes_eq, ?_, h.mem_cteNames_iff⟩
      rw [Firsts.eraseDupsBy_concat, if_pos hlink]
      exact h.links_eq
  · next hlink =>
      refine ⟨h.nodes_eq, ?_, h.mem_cteNames_iff⟩
      rw [Firsts.eraseDupsBy_concat, if_neg hlink]

theorem addLinks (h : draft.Holds mentions links known) (more : List Link) :
    (more.foldl (fun linked link => (linked.addLink link).1) draft).Holds mentions (links ++ more)
      known := by
  induction more generalizing draft links with
  | nil =>
      rw [List.append_nil]
      exact h
  | cons link more ih =>
      have hnext := ih (h.addLink link)
      rw [List.append_assoc] at hnext
      exact hnext

theorem registerCte (h : draft.Holds mentions links known) (name : Text) :
    (draft.registerCte name).Holds mentions links (known ++ [name.upper]) := by
  unfold Draft.registerCte
  split
  · next hmem =>
      refine ⟨h.nodes_eq, h.links_eq, ?_⟩
      intro other
      rw [List.mem_append, List.mem_singleton, ← h.mem_cteNames_iff]
      constructor
      · exact Or.inl
      · rintro (hother | rfl)
        · exact hother
        · exact hmem
  · refine ⟨h.nodes_eq, h.links_eq, ?_⟩
    intro other
    rw [List.mem_append, List.mem_append, h.mem_cteNames_iff]

end Holds

end Draft

namespace Scope

variable {draft : Draft} {mentions : List Mention} {links : List Link} {known : List Text}

theorem nodeKind_eq (owner : Option Text) (known : List Text) (reference : Reference) :
    nodeKind owner (decide (reference.table.upper ∈ known)) reference =
      if reference.keyword = ['F', 'R', 'O', 'M'] ∧ owner = none ∧
          reference.table.upper ∉ known then .main
      else .join := by
  unfold nodeKind Reference.isFrom
  cases owner <;> simp

theorem node_eq_ok {reference : Reference} {text : Text} (hplaced : reference.Placed text)
    {scope : Scope} {offset : Nat} (hoffset : scope.offset = offset) (known : List Text) :
    ∃ made, node scope.offset scope.owner (decide (reference.table.upper ∈ known)) reference =
      .ok made ∧ made.mention = Mention.ofReference scope known reference := by
  have hid : reference.id ≠ [] := by
    rw [Reference.id, ne_eq, Text.upper_eq_nil_iff]
    exact hplaced.label_ne_nil
  have htoNat : scope.offset.toNat = offset := by
    rw [hoffset, Int.toNat_natCast]
  refine ⟨⟨reference.id, reference.table, reference.label,
    nodeKind scope.owner (decide (reference.table.upper ∈ known)) reference,
    some (reference.location.shiftRight offset), hid, hplaced.table_ne_nil⟩, ?_, ?_⟩
  · rw [node, hoffset, Span.shift_natCast]
    simp only [Node.make, dif_neg hid, dif_neg hplaced.table_ne_nil, Except.mapError]
  · rw [Mention.ofReference, ← nodeKind_eq, htoNat]
    rfl

theorem addReference_holds (h : draft.Holds mentions links known) {reference : Reference}
    {text : Text} (hplaced : reference.Placed text) {scope : Scope} {offset : Nat}
    (hoffset : scope.offset = offset) :
    ∃ next, addReference scope.offset scope.owner draft reference = .ok next ∧
      next.Holds (mentions ++ [Mention.ofReference scope known reference])
        (links ++ structuralLinks scope.owner (decide (reference.table.upper ∈ known)) reference)
        known := by
  have hnode : ∃ withNode, addNode scope.offset scope.owner draft reference = .ok withNode ∧
      withNode.Holds (mentions ++ [Mention.ofReference scope known reference]) links known := by
    unfold addNode
    split
    · next hnode => exact ⟨draft, rfl, h.of_hasNode hnode⟩
    · obtain ⟨made, hmade, hmention⟩ := node_eq_ok hplaced hoffset known
      rw [h.isCte_eq, hmade]
      refine ⟨_, rfl, ?_⟩
      rw [← hmention]
      exact h.addNode made
  obtain ⟨withNode, hadded, hholds⟩ := hnode
  refine ⟨_, ?_, hholds.addLinks _⟩
  rw [addReference, hadded, h.isCte_eq]
  rfl

theorem addReferences_holds (h : draft.Holds mentions links known) (references : List Reference)
    {text : Text} (hplaced : ∀ reference ∈ references, reference.Placed text) {scope : Scope}
    {offset : Nat} (hoffset : scope.offset = offset) :
    ∃ next, addReferences scope.offset scope.owner references draft = (.ok (), next) ∧
      next.Holds (mentions ++ references.map (Mention.ofReference scope known))
        (links ++ references.flatMap fun reference =>
          structuralLinks scope.owner (decide (reference.table.upper ∈ known)) reference)
        known := by
  induction references generalizing draft mentions links with
  | nil =>
      refine ⟨draft, rfl, ?_⟩
      simpa using h
  | cons reference rest ih =>
      have hfirst := hplaced reference List.mem_cons_self
      have hrest : ∀ other ∈ rest, other.Placed text := by
        intro other hother
        exact hplaced other (List.mem_cons_of_mem reference hother)
      obtain ⟨next, hnext, hholds⟩ := addReference_holds h hfirst hoffset
      obtain ⟨last, hlast, hheld⟩ := ih hholds hrest
      refine ⟨last, ?_, ?_⟩
      · rw [addReferences, hnext]
        exact hlast
      · simpa only [List.map_cons, List.flatMap_cons, List.append_assoc, List.cons_append,
          List.nil_append] using hheld

theorem addCondition_holds {progress : Progress} (h : progress.draft.Holds mentions links known)
    (offset : Int) (bound : List Text) (found : Nat × Condition) :
    (addCondition offset bound progress found).draft.Holds mentions
      (links ++ (found.2.link? bound).toList) known := by
  obtain ⟨start, condition⟩ := found
  by_cases hleft : condition.left.qualifier.upper ∈ bound
  · by_cases hright : condition.right.qualifier.upper ∈ bound
    · simp only [addCondition, resolve, Condition.link?, hleft, hright, if_true, and_self,
        Option.toList_some]
      exact h.addLink _
    · simpa [addCondition, resolve, Condition.link?, hleft, hright] using h
  · simpa [addCondition, resolve, Condition.link?, hleft] using h

theorem addConditions_holds (progress : Progress) (h : progress.draft.Holds mentions links known)
    (offset : Int) (bound : List Text) (conditions : List (Nat × Condition)) :
    (conditions.foldl (addCondition offset bound) progress).draft.Holds mentions
      (links ++ conditions.filterMap fun (_, condition) => condition.link? bound) known := by
  induction conditions generalizing progress links with
  | nil => simpa using h
  | cons found rest ih =>
      have hnext := ih _ (addCondition_holds h offset bound found)
      rw [List.append_assoc] at hnext
      rw [List.foldl_cons, List.filterMap_cons]
      cases hlink : found.2.link? bound with
      | none => simpa [hlink] using hnext
      | some link => simpa [hlink] using hnext

theorem analyze_holds (progress : Progress) (h : progress.draft.Holds mentions links known)
    (keywords : List Text) (scope : Scope) {offset : Nat} (hoffset : scope.offset = offset) :
    ∃ next, analyze keywords scope progress = (.ok (), next) ∧
      next.draft.Holds
        (mentions ++ (Extraction.Step.analyze scope known).mentions keywords)
        (links ++ (Extraction.Step.analyze scope known).links keywords) known := by
  obtain ⟨draft, hdraft, hholds⟩ := addReferences_holds h
    (Reference.findAll keywords scope.text)
    (fun _ hreference => Reference.placed_of_mem_findAll hreference) hoffset
  have hconditions := addConditions_holds { progress with draft } hholds
    scope.offset ((Reference.findAll keywords scope.text).map Reference.id)
    (Condition.findAll scope.text)
  rw [List.append_assoc] at hconditions
  refine ⟨_, ?_, hconditions⟩
  simp only [analyze, hdraft]

end Scope

namespace Extraction

section Steps

variable {mentions : List Mention} {links : List Link} {known : List Text}

theorem definition_node_eq_ok {name : Text} (hname : name ≠ []) (place : Span) :
    ∃ made, Node.make name.upper name name .cte (some place) = .ok made ∧
      made.mention = .ofDefinition name place := by
  have hid : name.upper ≠ [] := by
    rw [ne_eq, Text.upper_eq_nil_iff]
    exact hname
  refine ⟨⟨name.upper, name, name, .cte, some place, hid, hname⟩, ?_, rfl⟩
  rw [Node.make, dif_neg hid, dif_neg hname]

theorem declare_holds {draft : Draft} (h : draft.Holds mentions links known) {name : Text}
    (hname : name ≠ []) (place : Span) :
    ∃ next, declare name place draft = (.ok (), next) ∧
      next.Holds (mentions ++ [.ofDefinition name place]) links (known ++ [name.upper]) := by
  obtain ⟨made, hmade, hmention⟩ := definition_node_eq_ok hname place
  refine ⟨((draft.registerCte name).addNode made).1, ?_, ?_⟩
  · simp only [declare, hmade]
  · rw [← hmention]
    exact (h.registerCte name).addNode made

theorem enter_holds {progress : Progress} (h : progress.draft.Holds mentions links known)
    (keywords : List Text) {definition : Definition} (hname : definition.name ≠ []) :
    ∃ next, enter (Scope.analyze keywords) definition progress = (.ok (), next) ∧
      next.draft.Holds
        (mentions ++ (definitionSteps known [definition]).flatMap (Step.mentions keywords))
        (links ++ (definitionSteps known [definition]).flatMap (Step.links keywords))
        (known ++ [definition.name.upper]) := by
  obtain ⟨draft, hdraft, hdeclared⟩ := declare_holds h hname definition.nameSpan
  obtain ⟨next, hnext, hanalyzed⟩ := Scope.analyze_holds { progress with draft } hdeclared
    keywords definition.scope rfl
  refine ⟨next, ?_, ?_⟩
  · simp only [enter, hdraft]
    exact hnext
  · simpa only [definitionSteps, List.flatMap_cons, List.flatMap_nil, Step.mentions, Step.links,
      Step.structuralLinks, Step.joins, List.append_nil, List.append_assoc,
      List.nil_append] using hanalyzed

theorem ending_eq_of_splitClause {analysis : Analysis} {ending : Ending}
    {definitions : List Definition} {progress : Progress} {place : Nat}
    (h : (splitClause analysis ending definitions progress).1 = .ok place) :
    ending = .main place := by
  fun_induction splitClause analysis ending definitions progress with
  | case1 definition rest progress fault stopped henter => cases h
  | case2 definition rest progress entered henter ih => exact ih h
  | case3 progress start hending =>
      obtain rfl := Except.ok.inj h
      exact hending
  | case4 progress name nameStart openAt fault draft hdeclare => cases h
  | case5 progress name nameStart openAt draft hdeclare => cases h

/-- What a run does once the WITH clause is split. -/
def afterSplit (analysis : Analysis) (masked : Text) :
    Except Fault Nat × Progress → Except Fault Unit × Progress
  | (.ok start, entered) => analysis (mainScope masked start) entered
  | (.error (.unclosedBody name openAt), entered) =>
      analysis (mainScope masked 0)
        { entered with log := entered.log.add (.unclosedBody name openAt) }
  | (.error fault, entered) => (.error fault, entered)

theorem run_eq_afterSplit (analysis : Analysis) (text : Text) (progress : Progress) :
    run analysis text progress =
      afterSplit analysis (Comment.mask text) (split analysis (Comment.mask text) progress) := by
  unfold run afterSplit
  rfl

theorem ending_holds {progress : Progress} (h : progress.draft.Holds mentions links known)
    (keywords : List Text) {masked : Text} {lower : Nat} {ending : Ending}
    (hlayout : Layout masked lower [] ending) :
    ∃ next, afterSplit (Scope.analyze keywords) masked
        (splitClause (Scope.analyze keywords) ending [] progress) = (.ok (), next) ∧
      ∃ last, next.draft.Holds
        (mentions ++ (endingSteps masked known ending).flatMap (Step.mentions keywords))
        (links ++ (endingSteps masked known ending).flatMap (Step.links keywords)) last := by
  cases hlayout with
  | @main _ start _ _ =>
      obtain ⟨next, hnext, hanalyzed⟩ :=
        Scope.analyze_holds progress h keywords (mainScope masked start) rfl
      refine ⟨next, hnext, known, ?_⟩
      simpa only [endingSteps, List.flatMap_cons, List.flatMap_nil, List.append_nil] using hanalyzed
  | @unclosed _ nameStart openAt name _ hname =>
      obtain ⟨draft, hdraft, hdeclared⟩ :=
        declare_holds h hname.ne_nil (Span.ofLength nameStart name.length)
      obtain ⟨next, hnext, hanalyzed⟩ := Scope.analyze_holds
        { draft, log := progress.log.add (.unclosedBody name openAt) } hdeclared keywords
        (mainScope masked 0) rfl
      refine ⟨next, ?_, known ++ [name.upper], ?_⟩
      · simp only [splitClause, hdraft]
        exact hnext
      · simpa only [endingSteps, List.flatMap_cons, List.flatMap_nil, Step.mentions, Step.links,
          Step.structuralLinks, Step.joins, List.append_nil, List.append_assoc,
          List.nil_append] using hanalyzed

theorem splitClause_holds (progress : Progress) (h : progress.draft.Holds mentions links known)
    (keywords : List Text) {masked : Text} {lower : Nat} {definitions : List Definition}
    {ending : Ending} (hlayout : Layout masked lower definitions ending) :
    ∃ next, afterSplit (Scope.analyze keywords) masked
        (splitClause (Scope.analyze keywords) ending definitions progress) = (.ok (), next) ∧
      ∃ last, next.draft.Holds
        (mentions ++ (definitionSteps known definitions ++
          endingSteps masked (known ++ definedNames definitions) ending).flatMap
            (Step.mentions keywords))
        (links ++ (definitionSteps known definitions ++
          endingSteps masked (known ++ definedNames definitions) ending).flatMap
            (Step.links keywords)) last := by
  induction definitions generalizing progress mentions links known lower with
  | nil =>
      simpa only [definitionSteps, definedNames, List.map_nil, List.append_nil, List.nil_append]
        using ending_holds h keywords hlayout
  | cons definition rest ih =>
      cases hlayout with
      | definition _ hname _ _ hrest =>
          obtain ⟨entered, hentered, hheld⟩ := enter_holds h keywords hname.ne_nil
          obtain ⟨next, hnext, last, hlast⟩ := ih entered hheld hrest
          refine ⟨next, ?_, last, ?_⟩
          · rw [splitClause, hentered]
            exact hnext
          · simpa only [definitionSteps, definedNames, List.map_cons, List.cons_append,
              List.nil_append, List.flatMap_cons, List.flatMap_nil, List.append_nil,
              List.append_assoc] using hlast

end Steps

theorem run_holds (config : Config) (text : Text) :
    ∃ next, run (Scope.analyze config.keywords) text (start config) = (.ok (), next) ∧
      ∃ known, next.draft.Holds (mentions config.keywords text) (offers config.keywords text)
        known := by
  obtain ⟨next, hnext, known, hheld⟩ := splitClause_holds (start config) Draft.holds_empty
    config.keywords (WithClause.layout_read (Comment.mask text))
  refine ⟨next, ?_, known, hheld⟩
  rw [run_eq_afterSplit]
  unfold split
  exact hnext

/-- Every extraction comes to an answer, whose graph holds the first mentions and the first offers
of the statement. -/
theorem extract_eq_ok (config : Config) (text : Text) :
    ∃ graph diagnostics, extract config text = .ok (.success graph diagnostics) ∧
      graph.nodes.map Node.mention =
        (mentions config.keywords text).eraseDupsBy Mention.repeats ∧
      graph.links = (offers config.keywords text).eraseDupsBy Link.repeats := by
  obtain ⟨next, hnext, known, hheld⟩ := run_holds config text
  refine ⟨next.draft.graph, next.log.entries, ?_, hheld.nodes_eq, hheld.links_eq⟩
  rw [extract, extractWith, hnext]
  rfl

end Extraction

end JoinGraph
