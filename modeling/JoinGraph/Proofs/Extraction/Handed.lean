import JoinGraph.Proofs.Extraction.Faultless
import JoinGraph.Proofs.WithClause.Written

namespace JoinGraph.Extraction

open Text WithClause

def note (scope : Scope) : Diagnostic :=
  .remark .info scope.text scope.owner (some scope.offset)

/-- The analysis, with every scope noted before it is analysed. -/
def watched (analysis : Analysis) : Analysis := fun scope progress =>
  analysis scope { progress with log := progress.log.add (note scope) }

def noted? : Diagnostic → Option Scope
  | .remark _ text owner (some offset) => some ⟨text, offset, owner⟩
  | _ => none

/-- The scopes that are handed over when a text is split, in order. -/
def handed (keywords : List Text) (text : Text) : List Scope :=
  (split (watched (Scope.analyze keywords)) text ⟨.empty, .empty true⟩).2.log.entries.filterMap
    noted?

theorem filterMap_noted?_reports (keywords : List Text) (scope : Scope) :
    (scope.reports keywords).filterMap noted? = [] := by
  apply List.filterMap_eq_nil_iff.mpr
  intro diagnostic hdiagnostic
  obtain ⟨found, -, hreport⟩ := List.mem_filterMap.mp hdiagnostic
  obtain ⟨qualifier, rfl⟩ := Condition.exists_of_report? hreport
  rfl

theorem reporting_watched {analysis : Analysis} {report : Scope → List Diagnostic}
    (h : Reporting analysis report) :
    Reporting (watched analysis) fun scope => note scope :: report scope := by
  intro scope offset progress hoffset
  exact h scope offset { progress with log := progress.log.add (note scope) } hoffset

theorem filterMap_noted? (keywords : List Text) (definitions : List Definition) :
    (definitions.flatMap fun definition =>
        note definition.scope :: definition.scope.reports keywords).filterMap noted? =
      definitions.map Definition.scope := by
  induction definitions with
  | nil => rfl
  | cons definition rest ih =>
      rw [List.flatMap_cons, List.filterMap_append, ih, List.filterMap_cons,
        filterMap_noted?_reports]
      rfl

theorem handed_eq (keywords : List Text) (text : Text) :
    handed keywords text = (WithClause.read text).definitions.map Definition.scope := by
  obtain ⟨next, hnext, hlog, -⟩ := split_eq
    (reporting_watched (Scope.reporting_analyze keywords)) text ⟨.empty, .empty true⟩
  rw [handed, hnext, hlog, Log.entries_addAll]
  exact filterMap_noted? keywords (WithClause.read text).definitions

theorem definedNames_furtherDefinitions (start : Nat) (others : List Further) :
    definedNames (furtherDefinitions start others) =
      others.map fun further => further.item.name.upper := by
  induction others generalizing start with
  | nil => rfl
  | cons further rest ih =>
      rw [List.map_cons, ← ih (start + further.text.length)]
      rfl

theorem definedNames_definitions (written : Written) :
    definedNames written.definitions = written.items.map fun item => item.name.upper := by
  have hothers := definedNames_furtherDefinitions
    (written.opening.length + written.first.text.length) written.others
  rw [Written.items, List.map_cons, List.map_map]
  exact congrArg (List.cons written.first.name.upper) hothers

theorem partAt_of_mem_handed {keywords : List Text} {text : Text} {scope : Scope}
    (h : scope ∈ handed keywords text) :
    ∃ offset : Nat, scope.offset = offset ∧ PartAt scope.text text offset := by
  rw [handed_eq] at h
  obtain ⟨definition, hdefinition, rfl⟩ := List.mem_map.mp h
  exact ⟨definition.bodyStart, rfl, (layout_read text).partAt hdefinition⟩

/-- Splitting a written clause answers the offset behind its last parenthesis and defines the names
that were written, in capitals. What it hands over are the bodies that were written, each with the
offset where it stands and its name in capitals. -/
theorem split_written (keywords : List Text) (written : Written) {main : Text}
    (hmain : ¬ Continues main) :
    (∀ progress, ∃ next,
      split (Scope.analyze keywords) (written.text ++ main) progress =
        (.ok written.text.length, next) ∧
      ∀ name, name ∈ next.draft.cteNames ↔
        name ∈ progress.draft.cteNames ∨ ∃ item ∈ written.items, name = item.name.upper) ∧
    handed keywords (written.text ++ main) = written.definitions.map Definition.scope ∧
    ∀ scope ∈ handed keywords (written.text ++ main), ∃ offset : Nat,
      scope.offset = offset ∧ PartAt scope.text (written.text ++ main) offset := by
  have hread := read_written written hmain
  refine ⟨?_, ?_, fun scope hscope => partAt_of_mem_handed hscope⟩
  · intro progress
    obtain ⟨next, hnext, -, hnames⟩ := split_eq (Scope.reporting_analyze keywords)
      (written.text ++ main) progress
    rw [hread] at hnext hnames
    refine ⟨next, hnext, ?_⟩
    intro name
    rw [hnames, definedNames_definitions, Ending.names, List.append_nil, List.mem_map]
    simp only [eq_comm]
  · rw [handed_eq, hread]

/-- A definition whose body holds parentheses, commas and the words AS and WITH. -/
def nestedItem : Item where
  name := ['a']
  gap := [' ']
  as := "As".toList
  space := ['\n']
  body := "SELECT (1), 2 AS x, WITH AS (y)".toList
  name_ne_nil := by decide
  name_folded := List.all_eq_true.mp (by decide)
  gap_ne_nil := by decide
  gap_blank := List.all_eq_true.mp (by decide)
  as_spelled := by decide
  space_blank := List.all_eq_true.mp (by decide)
  body_balanced := by decide

/-- A clause with one more definition, whose body holds nothing but parentheses. -/
def nested : Written where
  lead := ['\n']
  opener := "wItH".toList
  gap := ['\t']
  recursion := some
    { word := "Recursive".toList
      space := [' ', ' ']
      word_spelled := by decide
      space_ne_nil := by decide
      space_blank := List.all_eq_true.mp (by decide) }
  first := nestedItem
  others :=
    [{ before := [' ']
       after := []
       item := { nestedItem with
         name := ['b']
         space := []
         body := "()()".toList
         name_ne_nil := by decide
         name_folded := List.all_eq_true.mp (by decide)
         space_blank := List.forall_mem_nil _
         body_balanced := by decide }
       before_blank := List.all_eq_true.mp (by decide)
       after_blank := List.forall_mem_nil _ }]
  lead_blank := List.all_eq_true.mp (by decide)
  opener_spelled := by decide
  gap_ne_nil := by decide
  gap_blank := List.all_eq_true.mp (by decide)
  first_named := by decide

theorem split_written_nested :
    ¬ Continues " SELECT 1, 2 FROM a".toList ∧
    (∃ next, split (Scope.analyze []) (nested.text ++ " SELECT 1, 2 FROM a".toList)
      ⟨.empty, .empty true⟩ = (.ok 67, next)) ∧
    handed [] (nested.text ++ " SELECT 1, 2 FROM a".toList) =
      [⟨"SELECT (1), 2 AS x, WITH AS (y)".toList, 23, some ['A']⟩,
        ⟨"()()".toList, 62, some ['B']⟩] := by
  obtain ⟨hsplit, hhanded, -⟩ :=
    @split_written [] nested " SELECT 1, 2 FROM a".toList (by decide)
  obtain ⟨next, hnext, -⟩ := hsplit ⟨.empty, .empty true⟩
  exact ⟨by decide, ⟨next, hnext⟩, hhanded⟩

end JoinGraph.Extraction
