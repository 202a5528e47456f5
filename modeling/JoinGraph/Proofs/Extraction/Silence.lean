import JoinGraph.Proofs.Extraction.Faultless

namespace JoinGraph

/-- The same progress without a log. -/
def Progress.silenced (progress : Progress) : Progress :=
  { progress with log := .empty false }

/-- Without a log the analysis does what it does with one, and keeps no log. -/
def Discreet (analysis : Analysis) : Prop :=
  ∀ (scope : Scope) (progress : Progress),
    analysis scope progress.silenced = (analysis scope progress).map id Progress.silenced

/-- What an outcome says beside its diagnostics. -/
def Outcome.verdict (outcome : Outcome) : Graph × Bool × Option Text :=
  (outcome.graph, outcome.isSuccess, outcome.error?)

/-- The second answer is the first without its diagnostics. -/
structure Silences (told silent : Except ExtractionError Outcome) : Prop where
  verdict_eq : told.map Outcome.verdict = silent.map Outcome.verdict
  diagnostics_eq : ∀ outcome, silent = .ok outcome → outcome.diagnostics = []

namespace Scope

theorem addCondition_silenced (offset : Int) (bound : List Text) (progress : Progress)
    (found : Nat × Condition) :
    addCondition offset bound progress.silenced found =
      (addCondition offset bound progress found).silenced := by
  obtain ⟨start, condition⟩ := found
  simp only [addCondition]
  cases resolve bound condition.left.qualifier with
  | none => rfl
  | some left =>
      cases resolve bound condition.right.qualifier with
      | none => rfl
      | some right => rfl

theorem addConditions_silenced (offset : Int) (bound : List Text) (progress : Progress)
    (conditions : List (Nat × Condition)) :
    conditions.foldl (addCondition offset bound) progress.silenced =
      (conditions.foldl (addCondition offset bound) progress).silenced := by
  induction conditions generalizing progress with
  | nil => rfl
  | cons found rest ih => rw [List.foldl_cons, List.foldl_cons, addCondition_silenced, ih]

theorem discreet_analyze (keywords : List Text) : Discreet (analyze keywords) := by
  intro scope progress
  simp only [analyze]
  have hdraft : progress.silenced.draft = progress.draft := rfl
  rw [hdraft]
  rcases addReferences scope.offset scope.owner (Reference.findAll keywords scope.text)
    progress.draft with ⟨answer, draft⟩
  cases answer with
  | error fault => rfl
  | ok =>
      exact congrArg (Prod.mk _) (addConditions_silenced _ _ { progress with draft } _)

end Scope

namespace Extraction

section Run

variable {analysis : Analysis} (h : Discreet analysis)

include h

theorem enter_silenced (definition : Definition) (progress : Progress) :
    enter analysis definition progress.silenced =
      (enter analysis definition progress).map id Progress.silenced := by
  have hdraft : progress.silenced.draft = progress.draft := rfl
  simp only [enter, hdraft]
  rcases declare definition.name definition.nameSpan progress.draft with ⟨answer, draft⟩
  cases answer with
  | error fault => rfl
  | ok => exact h definition.scope { progress with draft }

theorem splitClause_silenced (ending : Ending) (definitions : List Definition)
    (progress : Progress) :
    splitClause analysis ending definitions progress.silenced =
      (splitClause analysis ending definitions progress).map id Progress.silenced := by
  induction definitions generalizing progress with
  | nil =>
      cases ending with
      | main start => rfl
      | unclosed name nameStart openAt =>
          have hdraft : progress.silenced.draft = progress.draft := rfl
          simp only [splitClause, hdraft]
          rcases declare name (Span.ofLength nameStart name.length) progress.draft with
            ⟨answer, draft⟩
          cases answer with
          | error fault => rfl
          | ok => rfl
  | cons definition rest ih =>
      simp only [splitClause, enter_silenced h]
      rcases enter analysis definition progress with ⟨answer, entered⟩
      cases answer with
      | error fault => rfl
      | ok => exact ih entered

theorem run_silenced (text : Text) (progress : Progress) :
    run analysis text progress.silenced =
      (run analysis text progress).map id Progress.silenced := by
  rw [run_eq_afterSplit, run_eq_afterSplit]
  unfold split
  rw [splitClause_silenced h]
  generalize splitClause analysis _ _ progress = result
  obtain ⟨answer, entered⟩ := result
  cases answer with
  | ok start => exact h (mainScope (Comment.mask text) start) entered
  | error fault =>
      cases fault with
      | unclosedBody name openAt =>
          exact h (mainScope (Comment.mask text) 0)
            { entered with log := entered.log.add (.unclosedBody name openAt) }
      | _ => rfl

end Run

theorem silences_conclude (onFault : FaultMode) (source : Json)
    (result : Except Fault Unit × Progress) :
    Silences (conclude onFault source result)
      (conclude onFault source (result.map id Progress.silenced)) := by
  obtain ⟨answer, progress⟩ := result
  cases answer with
  | ok =>
      refine ⟨rfl, ?_⟩
      rintro outcome ⟨⟩
      rfl
  | error fault =>
      cases onFault with
      | fail => exact ⟨rfl, fun _ houtcome => nomatch houtcome⟩
      | warn | ignore =>
          refine ⟨rfl, ?_⟩
          rintro outcome ⟨⟩
          rfl

theorem silences_extractValue {analysis : Analysis} (h : Discreet analysis) (config : Config)
    (value : Json) :
    Silences (extractValue analysis { config with collectDiagnostics := true } value)
      (extractValue analysis { config with collectDiagnostics := false } value) := by
  have hstart : start { config with collectDiagnostics := false } =
      (start { config with collectDiagnostics := true }).silenced := rfl
  cases value with
  | text text =>
      have hrun := run_silenced h text (start { config with collectDiagnostics := true })
      simp only [extractValue, extractWith, hstart, hrun]
      exact silences_conclude _ _ _
  | _ => exact silences_conclude _ _ (.error (.notText _), start _)

/-- Whether diagnostics are collected shows in the diagnostics alone: graph, success and error are
the same, and where they are not collected there are none. With any analysis that keeps to this,
faulting or not, so do the answers to texts and to other values. -/
theorem extract_diagnostics_inert (config : Config) (text : Text) :
    (∃ told silent,
      extract { config with collectDiagnostics := true } text = .ok told ∧
      extract { config with collectDiagnostics := false } text = .ok silent ∧
      told.graph = silent.graph ∧ told.isSuccess = silent.isSuccess ∧
      told.error? = silent.error? ∧ silent.diagnostics = []) ∧
    ∀ analysis, Discreet analysis → ∀ value,
      Silences (extractValue analysis { config with collectDiagnostics := true } value)
        (extractValue analysis { config with collectDiagnostics := false } value) := by
  constructor
  · obtain ⟨graph, htold, -⟩ := extract_eq_collected { config with collectDiagnostics := true } text
    obtain ⟨other, hsilent, -⟩ :=
      extract_eq_collected { config with collectDiagnostics := false } text
    have hsilences : Silences (extract { config with collectDiagnostics := true } text)
        (extract { config with collectDiagnostics := false } text) :=
      silences_extractValue (Scope.discreet_analyze config.keywords) config (.text text)
    have hverdict := hsilences.verdict_eq
    rw [htold, hsilent] at hverdict
    have hgraph : graph = other := congrArg Prod.fst (Except.ok.inj hverdict)
    exact ⟨_, _, htold, hsilent, hgraph, rfl, rfl, rfl⟩
  · intro analysis hanalysis value
    exact silences_extractValue hanalysis config value

end Extraction

end JoinGraph
