import JoinGraph.Proofs.Extraction.Locations

namespace JoinGraph

/-- The report on a condition with an unbound alias. Of two unbound aliases the left one is named. -/
def Condition.report? (bound : List Text) (position : Int) (condition : Condition) :
    Option Diagnostic :=
  if condition.left.qualifier.upper ∉ bound then
    some (.unboundAlias condition.text condition.left.qualifier position)
  else if condition.right.qualifier.upper ∉ bound then
    some (.unboundAlias condition.text condition.right.qualifier position)
  else none

theorem Condition.exists_of_report? {bound : List Text} {position : Int} {condition : Condition}
    {diagnostic : Diagnostic} (h : condition.report? bound position = some diagnostic) :
    ∃ qualifier, diagnostic = .unboundAlias condition.text qualifier position := by
  unfold report? at h
  split at h
  · exact ⟨_, (Option.some.inj h).symm⟩
  · split at h
    · exact ⟨_, (Option.some.inj h).symm⟩
    · cases h

namespace Log

def addAll (log : Log) (diagnostics : List Diagnostic) : Log :=
  diagnostics.foldl Log.add log

theorem addAll_append (log : Log) (first second : List Diagnostic) :
    log.addAll (first ++ second) = (log.addAll first).addAll second :=
  List.foldl_append

theorem entries_addAll (log : Log) (diagnostics : List Diagnostic) :
    (log.addAll diagnostics).entries =
      if log.enabled then log.entries ++ diagnostics else log.entries := by
  induction diagnostics generalizing log with
  | nil => simp [addAll]
  | cons diagnostic rest ih =>
      change ((log.add diagnostic).addAll rest).entries = _
      rw [ih, add]
      cases henabled : log.enabled <;> simp [henabled]

theorem entries_addAll_empty (diagnostics : List Diagnostic) :
    ((Log.empty true).addAll diagnostics).entries = diagnostics := by
  rw [entries_addAll]
  rfl

end Log

namespace Draft

@[simp] theorem cteNames_addNode (draft : Draft) (node : Node) :
    (draft.addNode node).1.cteNames = draft.cteNames := by
  unfold addNode
  split <;> rfl

@[simp] theorem cteNames_addLink (draft : Draft) (link : Link) :
    (draft.addLink link).1.cteNames = draft.cteNames := by
  unfold addLink
  split <;> rfl

theorem cteNames_foldl_addLink (draft : Draft) (links : List Link) :
    (links.foldl (fun linked link => (linked.addLink link).1) draft).cteNames =
      draft.cteNames := by
  induction links generalizing draft with
  | nil => rfl
  | cons link rest ih => rw [List.foldl_cons, ih, cteNames_addLink]

theorem mem_cteNames_registerCte_iff (draft : Draft) (name other : Text) :
    other ∈ (draft.registerCte name).cteNames ↔ other ∈ draft.cteNames ∨ other = name.upper := by
  unfold registerCte
  split
  · next hmem =>
      constructor
      · exact Or.inl
      · rintro (hother | rfl)
        · exact hother
        · exact hmem
  · rw [List.mem_append, List.mem_singleton]

end Draft

namespace Scope

def reports (keywords : List Text) (scope : Scope) : List Diagnostic :=
  (Condition.findAll scope.text).filterMap fun found =>
    found.2.report? ((Reference.findAll keywords scope.text).map Reference.id)
      (scope.offset + found.1)

section Steps

variable {text : Text} {scope : Scope} {offset : Nat} (hoffset : scope.offset = offset)

include hoffset

theorem addReference_eq_ok (draft : Draft) {reference : Reference}
    (hplaced : reference.Placed text) :
    ∃ next, addReference scope.offset scope.owner draft reference = .ok next ∧
      next.cteNames = draft.cteNames := by
  have hnode : ∃ withNode, addNode scope.offset scope.owner draft reference = .ok withNode ∧
      withNode.cteNames = draft.cteNames := by
    unfold addNode
    split
    · exact ⟨draft, rfl, rfl⟩
    · obtain ⟨made, hmade, -⟩ := node_eq_ok hplaced hoffset draft.cteNames
      rw [Draft.isCte, hmade]
      exact ⟨_, rfl, draft.cteNames_addNode made⟩
  obtain ⟨withNode, hadded, hnames⟩ := hnode
  refine ⟨(structuralLinks scope.owner (draft.isCte reference.table) reference).foldl
    (fun linked link => (linked.addLink link).1) withNode, ?_, ?_⟩
  · rw [addReference, hadded]
    rfl
  · rw [Draft.cteNames_foldl_addLink, hnames]

theorem addReferences_eq_ok (draft : Draft) (references : List Reference)
    (hplaced : ∀ reference ∈ references, reference.Placed text) :
    ∃ next, addReferences scope.offset scope.owner references draft = (.ok (), next) ∧
      next.cteNames = draft.cteNames := by
  induction references generalizing draft with
  | nil => exact ⟨draft, rfl, rfl⟩
  | cons reference rest ih =>
      obtain ⟨hfirst, hrest⟩ := List.forall_mem_cons.mp hplaced
      obtain ⟨next, hnext, hnames⟩ := addReference_eq_ok hoffset draft hfirst
      obtain ⟨last, hlast, hkept⟩ := ih next hrest
      refine ⟨last, ?_, hkept.trans hnames⟩
      rw [addReferences, hnext]
      exact hlast

end Steps

theorem addCondition_frame (offset : Int) (bound : List Text) (progress : Progress)
    (found : Nat × Condition) :
    (addCondition offset bound progress found).log =
        progress.log.addAll (found.2.report? bound (offset + found.1)).toList ∧
      (addCondition offset bound progress found).draft.cteNames = progress.draft.cteNames := by
  obtain ⟨start, condition⟩ := found
  by_cases hleft : condition.left.qualifier.upper ∈ bound
  · by_cases hright : condition.right.qualifier.upper ∈ bound
    · simp [addCondition, resolve, Condition.report?, hleft, hright, Log.addAll]
    · simp [addCondition, resolve, Condition.report?, hleft, hright, Log.addAll]
  · simp [addCondition, resolve, Condition.report?, hleft, Log.addAll]

theorem addConditions_frame (offset : Int) (bound : List Text) (progress : Progress)
    (conditions : List (Nat × Condition)) :
    (conditions.foldl (addCondition offset bound) progress).log =
        progress.log.addAll (conditions.filterMap fun found =>
          found.2.report? bound (offset + found.1)) ∧
      (conditions.foldl (addCondition offset bound) progress).draft.cteNames =
        progress.draft.cteNames := by
  induction conditions generalizing progress with
  | nil => exact ⟨rfl, rfl⟩
  | cons found rest ih =>
      obtain ⟨hlog, hnames⟩ := addCondition_frame offset bound progress found
      obtain ⟨hlogs, hkept⟩ := ih (addCondition offset bound progress found)
      rw [List.foldl_cons, List.filterMap_cons]
      refine ⟨?_, hkept.trans hnames⟩
      rw [hlogs, hlog]
      cases found.2.report? bound (offset + found.1) with
      | none => rfl
      | some diagnostic => rfl

end Scope

/-- From any progress the analysis of a scope comes to its end, adds to the log what `report` tells
of the scope, and defines nothing. -/
def Reporting (analysis : Analysis) (report : Scope → List Diagnostic) : Prop :=
  ∀ (scope : Scope) (offset : Nat) (progress : Progress), scope.offset = offset →
    ∃ next, analysis scope progress = (.ok (), next) ∧
      next.log = progress.log.addAll (report scope) ∧
      next.draft.cteNames = progress.draft.cteNames

theorem Scope.reporting_analyze (keywords : List Text) :
    Reporting (analyze keywords) (reports keywords) := by
  intro scope offset progress hoffset
  obtain ⟨draft, hdraft, hnames⟩ := addReferences_eq_ok hoffset progress.draft
    (Reference.findAll keywords scope.text)
    (fun _ hreference => Reference.placed_of_mem_findAll hreference)
  obtain ⟨hlog, hkept⟩ := addConditions_frame scope.offset
    ((Reference.findAll keywords scope.text).map Reference.id) { progress with draft }
    (Condition.findAll scope.text)
  refine ⟨_, ?_, hlog, hkept.trans hnames⟩
  simp only [analyze, hdraft]

/-- What splitting a clause answers: where the main query starts, or which body is never closed. -/
def Ending.answer : Ending → Except Fault Nat
  | main start => .ok start
  | unclosed name _ openAt => .error (.unclosedBody name openAt)

/-- The names that a clause defines without closing their bodies. -/
def Ending.names : Ending → List Text
  | main _ => []
  | unclosed name _ _ => [name.upper]

namespace Extraction

theorem declare_eq_ok (draft : Draft) {name : Text} (hname : name ≠ []) (place : Span) :
    ∃ next, declare name place draft = (.ok (), next) ∧
      ∀ other, other ∈ next.cteNames ↔ other ∈ draft.cteNames ∨ other = name.upper := by
  obtain ⟨made, hmade, -⟩ := definition_node_eq_ok hname place
  refine ⟨((draft.registerCte name).addNode made).1, ?_, ?_⟩
  · simp only [declare, hmade]
  · intro other
    rw [Draft.cteNames_addNode, Draft.mem_cteNames_registerCte_iff]

section Split

variable {analysis : Analysis} {report : Scope → List Diagnostic} (h : Reporting analysis report)

include h

theorem enter_eq_ok {definition : Definition} (hname : definition.name ≠ [])
    (progress : Progress) :
    ∃ next, enter analysis definition progress = (.ok (), next) ∧
      next.log = progress.log.addAll (report definition.scope) ∧
      ∀ other, other ∈ next.draft.cteNames ↔
        other ∈ progress.draft.cteNames ∨ other = definition.name.upper := by
  obtain ⟨draft, hdraft, hdefined⟩ := declare_eq_ok progress.draft hname definition.nameSpan
  obtain ⟨next, hnext, hlog, hnames⟩ :=
    h definition.scope definition.bodyStart { progress with draft } rfl
  refine ⟨next, ?_, hlog, ?_⟩
  · simp only [enter, hdraft]
    exact hnext
  · intro other
    rw [hnames]
    exact hdefined other

theorem splitClause_eq {masked : Text} {lower : Nat} {definitions : List Definition}
    {ending : Ending} (hlayout : Layout masked lower definitions ending) (progress : Progress) :
    ∃ next, splitClause analysis ending definitions progress = (ending.answer, next) ∧
      next.log = progress.log.addAll
        (definitions.flatMap fun definition => report definition.scope) ∧
      ∀ other, other ∈ next.draft.cteNames ↔ other ∈ progress.draft.cteNames ∨
        other ∈ definedNames definitions ++ ending.names := by
  induction hlayout generalizing progress with
  | main hle hstart =>
      refine ⟨progress, rfl, rfl, ?_⟩
      intro other
      simp [definedNames, Ending.names]
  | @unclosed _ nameStart openAt name hle hname =>
      obtain ⟨draft, hdraft, hdefined⟩ :=
        declare_eq_ok progress.draft hname.ne_nil (Span.ofLength nameStart name.length)
      refine ⟨{ progress with draft }, ?_, rfl, ?_⟩
      · simp only [splitClause, hdraft]
        rfl
      · intro other
        rw [hdefined]
        simp [definedNames, Ending.names]
  | @definition _ definition rest ending hle hname hbehind hbody hrest ih =>
      obtain ⟨entered, hentered, hlog, hdefined⟩ := enter_eq_ok h hname.ne_nil progress
      obtain ⟨next, hnext, hlogs, hothers⟩ := ih entered
      refine ⟨next, ?_, ?_, ?_⟩
      · rw [splitClause, hentered]
        exact hnext
      · rw [hlogs, hlog, List.flatMap_cons, Log.addAll_append]
      · intro other
        have hnames : definedNames (definition :: rest) =
            definition.name.upper :: definedNames rest := rfl
        rw [hothers, hdefined, hnames, List.cons_append, List.mem_cons, or_assoc]

theorem split_eq (masked : Text) (progress : Progress) :
    ∃ next, split analysis masked progress = ((WithClause.read masked).ending.answer, next) ∧
      next.log = progress.log.addAll
        ((WithClause.read masked).definitions.flatMap fun definition =>
          report definition.scope) ∧
      ∀ other, other ∈ next.draft.cteNames ↔ other ∈ progress.draft.cteNames ∨
        other ∈ definedNames (WithClause.read masked).definitions ++
          (WithClause.read masked).ending.names :=
  splitClause_eq h (WithClause.layout_read masked) progress

/-- What a run tells behind the bodies of the clause, where `report` is what it tells of a scope. -/
def endingLog (report : Scope → List Diagnostic) (masked : Text) : Ending → List Diagnostic
  | .main start => report (mainScope masked start)
  | .unclosed name _ openAt => .unclosedBody name openAt :: report (mainScope masked 0)

theorem run_logs (text : Text) (progress : Progress) :
    ∃ next, run analysis text progress = (.ok (), next) ∧
      next.log = progress.log.addAll
        (((WithClause.read (Comment.mask text)).definitions.flatMap fun definition =>
            report definition.scope) ++
          endingLog report (Comment.mask text) (WithClause.read (Comment.mask text)).ending) := by
  obtain ⟨entered, hentered, hlog, -⟩ := split_eq h (Comment.mask text) progress
  rw [run_eq_afterSplit, hentered]
  simp only [Log.addAll_append, ← hlog]
  cases (WithClause.read (Comment.mask text)).ending with
  | main start =>
      obtain ⟨next, hnext, hlog, -⟩ := h (mainScope (Comment.mask text) start) start entered rfl
      exact ⟨next, hnext, hlog⟩
  | unclosed name nameStart openAt =>
      obtain ⟨next, hnext, hlog, -⟩ := h (mainScope (Comment.mask text) 0) 0
        { entered with log := entered.log.add (.unclosedBody name openAt) } rfl
      exact ⟨next, hnext, hlog⟩

end Split

/-- All that a statement gives to report, in order. -/
def reports (keywords : List Text) (text : Text) : List Diagnostic :=
  let masked := Comment.mask text
  let clause := WithClause.read masked
  (clause.definitions.flatMap fun definition => definition.scope.reports keywords) ++
    endingLog (Scope.reports keywords) masked clause.ending

theorem run_eq_ok (keywords : List Text) (text : Text) (progress : Progress) :
    ∃ next, run (Scope.analyze keywords) text progress = (.ok (), next) ∧
      next.log = progress.log.addAll (reports keywords text) :=
  run_logs (Scope.reporting_analyze keywords) text progress

theorem level_of_mem_scope_reports {keywords : List Text} {scope : Scope} {diagnostic : Diagnostic}
    (h : diagnostic ∈ scope.reports keywords) : diagnostic.level = .info := by
  obtain ⟨found, -, hreport⟩ := List.mem_filterMap.mp h
  obtain ⟨qualifier, rfl⟩ := Condition.exists_of_report? hreport
  rfl

theorem level_of_mem_reports {keywords : List Text} {text : Text} {diagnostic : Diagnostic}
    (h : diagnostic ∈ reports keywords text) :
    diagnostic.level = .info ∨ diagnostic.level = .warning := by
  rcases List.mem_append.mp h with h | h
  · obtain ⟨definition, -, hreport⟩ := List.mem_flatMap.mp h
    exact Or.inl (level_of_mem_scope_reports hreport)
  · cases hending : (WithClause.read (Comment.mask text)).ending with
    | main start =>
        rw [hending] at h
        exact Or.inl (level_of_mem_scope_reports h)
    | unclosed name nameStart openAt =>
        rw [hending] at h
        rcases List.mem_cons.mp h with rfl | h
        · exact Or.inr rfl
        · exact Or.inl (level_of_mem_scope_reports h)

/-- The nodes of a step can be made: no name is empty, and no place is moved in front of the text. -/
def Step.Builds (keywords : List Text) : Step → Prop
  | define name place => ∃ made, Node.make name.upper name name .cte (some place) = .ok made
  | analyze scope known =>
      ∀ reference ∈ Reference.findAll keywords scope.text,
        ∃ made, Scope.node scope.offset scope.owner (decide (reference.table.upper ∈ known))
          reference = .ok made

theorem builds_of_mem_course {keywords : List Text} {text : Text} {step : Step}
    (h : step ∈ course text) : step.Builds keywords := by
  have hstands := standsIn_of_mem_course h
  cases step with
  | define name place =>
      obtain ⟨start, hname, -⟩ := hstands
      obtain ⟨made, hmade, -⟩ := definition_node_eq_ok hname.ne_nil place
      exact ⟨made, hmade⟩
  | analyze scope known =>
      obtain ⟨offset, hoffset, -⟩ := hstands
      intro reference hreference
      obtain ⟨made, hmade, -⟩ :=
        Scope.node_eq_ok (Reference.placed_of_mem_findAll hreference) hoffset known
      exact ⟨made, hmade⟩

/-- Every extraction comes to an answer, and its configuration decides whether the reports of the
statement are collected. -/
theorem extract_eq_collected (config : Config) (text : Text) :
    ∃ graph, extract config text = .ok (.success graph
        (if config.collectDiagnostics then reports config.keywords text else [])) ∧
      graph.nodes.map Node.mention =
        (mentions config.keywords text).eraseDupsBy Mention.repeats ∧
      graph.links = (offers config.keywords text).eraseDupsBy Link.repeats := by
  obtain ⟨next, hnext, known, hheld⟩ := run_holds config text
  obtain ⟨last, hlast, hlog⟩ := run_eq_ok config.keywords text (start config)
  obtain rfl : next = last := congrArg Prod.snd (hnext.symm.trans hlast)
  refine ⟨next.draft.graph, ?_, hheld.nodes_eq, hheld.links_eq⟩
  have hentries : next.log.entries =
      if config.collectDiagnostics then reports config.keywords text else [] := by
    rw [hlog, Log.entries_addAll]
    rfl
  rw [extract, extractWith, hnext, ← hentries]
  rfl

/-- Extraction succeeds on every text. Whatever a step makes can be made, the run comes to its end,
its diagnostics are of the two mild levels, and graph and diagnostics are the same however a fault
would be treated. -/
theorem extract_succeeds (config : Config) (text : Text) :
    (∀ step ∈ course text, step.Builds config.keywords) ∧
    (run (Scope.analyze config.keywords) text (start config)).1 = .ok () ∧
    ∃ graph diagnostics,
      (∀ diagnostic ∈ diagnostics, diagnostic.level = .info ∨ diagnostic.level = .warning) ∧
      ∀ mode, extract { config with onFault := mode } text = .ok (.success graph diagnostics) := by
  obtain ⟨next, hnext, hlog⟩ := run_eq_ok config.keywords text (start config)
  refine ⟨fun step hstep => builds_of_mem_course hstep, ?_, next.draft.graph, next.log.entries,
    ?_, ?_⟩
  · rw [hnext]
  · intro diagnostic hdiagnostic
    rw [hlog, Log.entries_addAll] at hdiagnostic
    split at hdiagnostic
    · exact level_of_mem_reports hdiagnostic
    · cases hdiagnostic
  · intro mode
    have hrun : run (Scope.analyze config.keywords) text (start { config with onFault := mode }) =
        (.ok (), next) := hnext
    rw [extract, extractWith, hrun]
    rfl

end Extraction

end JoinGraph
