import JoinGraph.Proofs.Extraction.Handed
import JoinGraph.Proofs.Extraction.Links
import JoinGraph.Proofs.Paren.Balanced
import JoinGraph.Proofs.Scope.Conditions

namespace JoinGraph

open Text Word

namespace WithClause

variable {text : Text} {name : Text} {nameStart openAt : Nat}

theorem neverClosed_readDefinitions {before rest : Text} (htext : text = before ++ rest)
    (h : (readDefinitions before.length rest).ending = .unclosed name nameStart openAt) :
    Paren.NeverClosed text openAt := by
  generalize hstart : before.length = start at h
  fun_induction readDefinitions start rest generalizing before with
  | case1 start rest hhead => cases h
  | case2 start rest head inside hhead foundStart bodyStart =>
      rename_i hclose
      obtain ⟨-, -, rfl⟩ := Ending.unclosed.inj h
      have hbegins := begins_of_head? hhead
      obtain ⟨front, hlink⟩ := hbegins.link_last
      have hcut : text = (before ++ head.lead ++ head.name ++ front) ++ '(' :: inside := by
        rw [htext, hbegins.text_eq, hlink]
        simp only [List.append_assoc, List.cons_append, List.nil_append]
      have hlength : (before ++ head.lead ++ head.name ++ front).length = bodyStart - 1 := by
        simp only [bodyStart, ← hstart, Head.length, hlink, List.length_append, List.length_cons,
          List.length_nil]
        omega
      rw [hcut, ← hlength]
      exact Paren.neverClosed_of_close? hclose _
  | case3 => cases h
  | case4 start rest head inside hhead foundStart bodyStart body after hclose definition stop length
      next hseparator others =>
      rename_i ih
      have hinside := Paren.append_of_close? hclose
      obtain ⟨gap, hgap, rfl⟩ := append_of_separator? hseparator
      have hcut : text = before ++ head.closed body ++ gap ++ [','] ++ next := by
        rw [htext, (begins_of_head? hhead).eq_closed_append hinside, hgap]
        simp only [List.append_assoc, List.cons_append, List.nil_append]
      refine ih hcut ?_ h
      have hclosed := head.length_closed body
      simp only [List.length_append, List.length_cons, List.length_nil]
      omega

theorem neverClosed_read (h : (read text).ending = .unclosed name nameStart openAt) :
    Paren.NeverClosed text openAt := by
  unfold read at h
  cases hopening : opening text with
  | none =>
      rw [hopening] at h
      cases h
  | some found =>
      obtain ⟨start, after⟩ := found
      rw [hopening] at h
      obtain ⟨before, htext, rfl, -⟩ := append_of_opening hopening
      exact neverClosed_readDefinitions htext h

end WithClause

/-- The identities that the references of a scope bind. -/
def Scope.bound (keywords : List Text) (scope : Scope) : List Text :=
  (Reference.findAll keywords scope.text).map Reference.id

/-- A join condition of a scope, with its offset there. -/
structure Sighting where
  scope : Scope
  place : Nat
  condition : Condition

namespace Sighting

/-- The first alias of the condition that its scope does not bind. -/
def unbound? (keywords : List Text) (sighting : Sighting) : Option Text :=
  [sighting.condition.left.qualifier, sighting.condition.right.qualifier].find? fun qualifier =>
    decide (qualifier.upper ∉ sighting.scope.bound keywords)

theorem unbound?_eq_none_iff (keywords : List Text) (sighting : Sighting) :
    sighting.unbound? keywords = none ↔
      sighting.condition.left.qualifier.upper ∈ sighting.scope.bound keywords ∧
        sighting.condition.right.qualifier.upper ∈ sighting.scope.bound keywords := by
  simp [unbound?]

/-- The diagnostic quotes the condition, tells where it stands in the masked statement, and names
the first of its aliases that its scope does not bind. -/
def ReportedBy (keywords : List Text) (masked : Text) (sighting : Sighting)
    (diagnostic : Diagnostic) : Prop :=
  ∃ (qualifier : Text) (position : Nat),
    diagnostic = .unboundAlias sighting.condition.text qualifier position ∧
    sighting.scope.offset + sighting.place = position ∧
    masked.slice position (position + sighting.condition.text.length) =
      sighting.condition.text ∧
    sighting.unbound? keywords = some qualifier

/-- A join of the graph links the two relations that the condition compares. -/
def Joined (graph : Graph) (sighting : Sighting) : Prop :=
  graph.HasJoin sighting.condition.left.qualifier.upper sighting.condition.right.qualifier.upper

end Sighting

namespace Scope

def sightings (scope : Scope) : List Sighting :=
  (Condition.findAll scope.text).map fun found => ⟨scope, found.1, found.2⟩

theorem report?_eq (keywords : List Text) (sighting : Sighting) :
    sighting.condition.report? (sighting.scope.bound keywords)
        (sighting.scope.offset + sighting.place) =
      (sighting.unbound? keywords).map fun qualifier =>
        .unboundAlias sighting.condition.text qualifier
          (sighting.scope.offset + sighting.place) := by
  unfold Condition.report? Sighting.unbound?
  by_cases hleft : sighting.condition.left.qualifier.upper ∈ sighting.scope.bound keywords
  · by_cases hright : sighting.condition.right.qualifier.upper ∈ sighting.scope.bound keywords
    · simp [hleft, hright]
    · simp [hleft, hright]
  · simp [hleft]

end Scope

namespace Extraction

def Step.scope? : Step → Option Scope
  | define _ _ => none
  | analyze scope _ => some scope

/-- The scopes that are analysed when a statement is extracted, in order, as a watch notes them. -/
def analysed (keywords : List Text) (text : Text) : List Scope :=
  (run (watched (Scope.analyze keywords)) text ⟨.empty, .empty true⟩).2.log.entries.filterMap
    noted?

def sightings (keywords : List Text) (text : Text) : List Sighting :=
  (analysed keywords text).flatMap Scope.sightings

/-- What is analysed behind the bodies of a clause. -/
def endingScope (masked : Text) : Ending → Scope
  | .main start => mainScope masked start
  | .unclosed _ _ _ => mainScope masked 0

/-- The warning of a clause with a body that is never closed. -/
def endingWarnings : Ending → List Diagnostic
  | .main _ => []
  | .unclosed name _ openAt => [.unclosedBody name openAt]

theorem endingLog_eq (report : Scope → List Diagnostic) (masked : Text) (ending : Ending) :
    endingLog report masked ending =
      endingWarnings ending ++ report (endingScope masked ending) := by
  cases ending <;> rfl

theorem scopes_course (text : Text) :
    (course text).filterMap Step.scope? =
      (WithClause.read (Comment.mask text)).definitions.map Definition.scope ++
        [endingScope (Comment.mask text) (WithClause.read (Comment.mask text)).ending] := by
  have hbodies : ∀ (definitions : List Definition) (known : List Text),
      (definitionSteps known definitions).filterMap Step.scope? =
        definitions.map Definition.scope := by
    intro definitions
    induction definitions with
    | nil => exact fun _ => rfl
    | cons definition rest ih => exact fun _ => congrArg (List.cons definition.scope) (ih _)
  rw [course, List.filterMap_append, hbodies]
  cases (WithClause.read (Comment.mask text)).ending <;> rfl

theorem analysed_eq (keywords : List Text) (text : Text) :
    analysed keywords text = (course text).filterMap Step.scope? := by
  obtain ⟨next, hnext, hlog⟩ :=
    run_logs (reporting_watched (Scope.reporting_analyze keywords)) text ⟨.empty, .empty true⟩
  have hwarnings : ∀ ending, (endingWarnings ending).filterMap noted? = [] := by
    intro ending
    cases ending <;> rfl
  rw [analysed, hnext, hlog, Log.entries_addAll_empty, List.filterMap_append, filterMap_noted?,
    endingLog_eq, List.filterMap_append, hwarnings, List.nil_append, List.filterMap_cons,
    filterMap_noted?_reports, scopes_course]
  rfl

section Levels

variable (keywords : List Text) (text : Text)

theorem filter_info_reports :
    (reports keywords text).filter (fun diagnostic => diagnostic.level == .info) =
      (analysed keywords text).flatMap (Scope.reports keywords) := by
  have hscope : ∀ scope : Scope, (scope.reports keywords).filter
      (fun diagnostic => diagnostic.level == .info) = scope.reports keywords := by
    intro scope
    apply List.filter_eq_self.mpr
    intro diagnostic hdiagnostic
    rw [level_of_mem_scope_reports hdiagnostic]
    rfl
  have hwarnings : ∀ ending, (endingWarnings ending).filter
      (fun diagnostic => diagnostic.level == .info) = [] := by
    intro ending
    cases ending <;> rfl
  simp only [reports, analysed_eq, scopes_course, List.filter_append, List.filter_flatMap, hscope,
    endingLog_eq, hwarnings, List.flatMap_append, List.flatMap_map, List.flatMap_cons,
    List.flatMap_nil, List.nil_append, List.append_nil]

theorem filter_warning_reports :
    (reports keywords text).filter (fun diagnostic => diagnostic.level == .warning) =
      endingWarnings (WithClause.read (Comment.mask text)).ending := by
  have hscope : ∀ scope : Scope, (scope.reports keywords).filter
      (fun diagnostic => diagnostic.level == .warning) = [] := by
    intro scope
    apply List.filter_eq_nil_iff.mpr
    intro diagnostic hdiagnostic
    rw [level_of_mem_scope_reports hdiagnostic]
    decide
  have hwarnings : ∀ ending, (endingWarnings ending).filter
      (fun diagnostic => diagnostic.level == .warning) = endingWarnings ending := by
    intro ending
    cases ending <;> rfl
  have hbodies : ((WithClause.read (Comment.mask text)).definitions.flatMap fun definition =>
      (definition.scope.reports keywords).filter fun diagnostic => diagnostic.level == .warning) =
        [] :=
    List.flatMap_eq_nil_iff.mpr fun definition _ => hscope definition.scope
  simp only [reports, List.filter_append, List.filter_flatMap, endingLog_eq]
  rw [hbodies, hwarnings, hscope, List.append_nil, List.nil_append]

end Levels

theorem partAt_of_mem_analysed {keywords : List Text} {text : Text} {scope : Scope}
    (h : scope ∈ analysed keywords text) :
    ∃ known, Step.analyze scope known ∈ course text ∧
      ∃ offset : Nat, scope.offset = offset ∧ PartAt scope.text (Comment.mask text) offset := by
  rw [analysed_eq] at h
  obtain ⟨step, hstep, hscope⟩ := List.mem_filterMap.mp h
  cases step with
  | define name place => cases hscope
  | analyze found known =>
      obtain rfl := Option.some.inj hscope
      exact ⟨known, hstep, standsIn_of_mem_course hstep⟩

theorem position_of_mem_reports {keywords : List Text} {text : Text} {diagnostic : Diagnostic}
    (h : diagnostic ∈ reports keywords text) :
    ∃ position : Nat, diagnostic.position = some (position : Int) ∧ position < text.length := by
  rcases level_of_mem_reports h with hlevel | hlevel
  · have hinfo : diagnostic ∈ (analysed keywords text).flatMap (Scope.reports keywords) := by
      rw [← filter_info_reports]
      exact List.mem_filter.mpr ⟨h, by rw [hlevel]; rfl⟩
    obtain ⟨scope, hscope, hreport⟩ := List.mem_flatMap.mp hinfo
    obtain ⟨found, hcondition, hreport⟩ := List.mem_filterMap.mp hreport
    obtain ⟨qualifier, rfl⟩ := Condition.exists_of_report? hreport
    obtain ⟨-, -, offset, hoffset, hpart⟩ := partAt_of_mem_analysed hscope
    have hstop := ((Condition.placed_of_mem_findAll hcondition).partAt.trans hpart).stop_le
    have hpos := found.2.length_text_pos
    rw [Comment.length_mask] at hstop
    refine ⟨offset + found.1, ?_, by omega⟩
    rw [Int.natCast_add, ← hoffset]
    rfl
  · have hwarning : diagnostic ∈ endingWarnings (WithClause.read (Comment.mask text)).ending := by
      rw [← filter_warning_reports keywords]
      exact List.mem_filter.mpr ⟨h, by rw [hlevel]; rfl⟩
    cases hending : (WithClause.read (Comment.mask text)).ending with
    | main start =>
        rw [hending] at hwarning
        cases hwarning
    | unclosed name nameStart openAt =>
        rw [hending] at hwarning
        obtain rfl := List.mem_singleton.mp hwarning
        obtain ⟨before, inside, rfl, htext, -⟩ := WithClause.neverClosed_read hending
        refine ⟨before.length, rfl, ?_⟩
        have hlength := congrArg List.length htext
        rw [Comment.length_mask, List.length_append, List.length_cons] at hlength
        omega

theorem forall₂_reports (keywords : List Text) (text : Text) :
    List.Forall₂ (Sighting.ReportedBy keywords (Comment.mask text))
      ((sightings keywords text).filter fun sighting => (sighting.unbound? keywords).isSome)
      ((analysed keywords text).flatMap (Scope.reports keywords)) := by
  let report : Sighting → Option Diagnostic := fun sighting =>
    sighting.condition.report? (sighting.scope.bound keywords)
      (sighting.scope.offset + sighting.place)
  have hreports : (analysed keywords text).flatMap (Scope.reports keywords) =
      (sightings keywords text).filterMap report := by
    rw [sightings, List.filterMap_flatMap]
    apply List.flatMap_congr
    intro scope _
    rw [Scope.sightings, List.filterMap_map]
    rfl
  rw [hreports, ← List.filterMap_eq_filter]
  have hsame : List.Forall₂ (fun first second => first = second ∧ first ∈ sightings keywords text)
      (sightings keywords text) (sightings keywords text) := by
    rw [List.forall₂_same]
    exact fun _ hsighting => ⟨rfl, hsighting⟩
  refine List.rel_filterMap ?_ hsame
  rintro sighting other ⟨rfl, hsighting⟩
  have hreport := Scope.report?_eq keywords sighting
  change Option.Rel _ _ (sighting.condition.report? _ _)
  rw [hreport]
  cases hunbound : sighting.unbound? keywords with
  | none =>
      rw [Option.guard_eq_none_iff.mpr (by simp [hunbound])]
      exact .none
  | some qualifier =>
      rw [Option.guard_eq_some_iff.mpr ⟨rfl, by simp [hunbound]⟩]
      refine .some ?_
      obtain ⟨scope, hscope, hfound⟩ := List.mem_flatMap.mp hsighting
      obtain ⟨found, hcondition, rfl⟩ := List.mem_map.mp hfound
      obtain ⟨-, -, offset, hoffset, hpart⟩ := partAt_of_mem_analysed hscope
      have hplaced := (Condition.placed_of_mem_findAll hcondition).partAt.trans hpart
      have hposition : scope.offset + (found.1 : Int) = ((offset + found.1 : Nat) : Int) := by
        rw [hoffset, Int.natCast_add]
      exact ⟨qualifier, offset + found.1, congrArg _ hposition, hposition, hplaced.slice_eq,
        hunbound⟩

def collecting (config : Config) : Config :=
  { config with collectDiagnostics := true }

/-- The diagnostics of a statement are exact. Those of the level info report, in order, the
conditions of the analysed scopes with an alias that is not bound. There is one warning if splitting
meets a body that is never closed, at its parenthesis, and none otherwise. Every condition that is
not reported has its join in the graph. -/
theorem extract_diagnostics_exact (config : Config) (text : Text) :
    ∃ graph diagnostics,
      extract (collecting config) text = .ok (.success graph diagnostics) ∧
      (∀ diagnostic ∈ diagnostics, diagnostic.level = .info ∨ diagnostic.level = .warning) ∧
      List.Forall₂ (Sighting.ReportedBy config.keywords (Comment.mask text))
        ((sightings config.keywords text).filter fun sighting =>
          (sighting.unbound? config.keywords).isSome)
        (diagnostics.filter fun diagnostic => diagnostic.level == .info) ∧
      ((∃ mainStart, (split (Scope.analyze config.keywords) (Comment.mask text)
            (start (collecting config))).1 = .ok mainStart ∧
          (diagnostics.filter fun diagnostic => diagnostic.level == .warning) = []) ∨
        ∃ name openAt, (split (Scope.analyze config.keywords) (Comment.mask text)
            (start (collecting config))).1 = .error (.unclosedBody name openAt) ∧
          (diagnostics.filter fun diagnostic => diagnostic.level == .warning) =
            [.unclosedBody name openAt] ∧
          Paren.NeverClosed (Comment.mask text) openAt) ∧
      ∀ sighting ∈ sightings config.keywords text, sighting.unbound? config.keywords = none →
        sighting.Joined graph := by
  obtain ⟨graph, hextract, -, hlinks⟩ :=
    extract_eq_collected (collecting config) text
  refine ⟨graph, reports config.keywords text, hextract, ?_, ?_, ?_, ?_⟩
  · intro diagnostic hdiagnostic
    exact level_of_mem_reports hdiagnostic
  · rw [filter_info_reports]
    exact forall₂_reports config.keywords text
  · obtain ⟨next, hsplit, -⟩ := split_eq (Scope.reporting_analyze config.keywords)
      (Comment.mask text) (start (collecting config))
    rw [filter_warning_reports, hsplit]
    cases hending : (WithClause.read (Comment.mask text)).ending with
    | main mainStart => exact Or.inl ⟨mainStart, rfl, rfl⟩
    | unclosed name nameStart openAt =>
        exact Or.inr ⟨name, openAt, rfl, rfl, WithClause.neverClosed_read hending⟩
  · intro sighting hsighting hbound
    obtain ⟨scope, hscope, hfound⟩ := List.mem_flatMap.mp hsighting
    obtain ⟨found, hcondition, rfl⟩ := List.mem_map.mp hfound
    obtain ⟨known, hstep, -⟩ := partAt_of_mem_analysed hscope
    apply (hasJoin_iff hlinks _ _).mpr
    refine ⟨scope, known, hstep, found.1, found.2, hcondition, Or.inl ⟨rfl, rfl⟩, ?_⟩
    exact (Sighting.unbound?_eq_none_iff config.keywords _).mp hbound

end Extraction

end JoinGraph
