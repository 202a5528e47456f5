import JoinGraph.App
import JoinGraph.Proofs.Files.Written
import JoinGraph.Proofs.Json.RoundTrip

namespace JoinGraph

namespace Json

theorem whole_record {fields : List (String × Json)} (h : ∀ field ∈ fields, Whole field.2) :
    Whole (.record fields) := by
  refine .object ?_
  rw [List.forall_mem_map]
  exact h

theorem whole_list_map {α : Type} {write : α → Json} (h : ∀ item, Whole (write item))
    (items : List α) : Whole (.list (items.map write)) := by
  refine .list ?_
  rw [List.forall_mem_map]
  exact fun item _ => h item

theorem whole_ofOption {α : Type} {write : α → Json} (h : ∀ value, Whole (write value))
    (value : Option α) : Whole (.ofOption write value) := by
  cases value with
  | none => exact .null
  | some value => exact h value

theorem whole_ofLocation (location : Option Span) : Whole (.ofLocation location) := by
  cases location with
  | none => exact .null
  | some span =>
      rw [ofLocation]
      split
      · exact .null
      · refine whole_record ?_
        rw [List.forall_mem_cons, List.forall_mem_singleton]
        exact ⟨.int _, .int _⟩

end Json

open Json (Whole whole_record whole_list_map)

theorem Node.whole_toJson (node : Node) : Whole node.toJson := by
  refine whole_record ?_
  simp only [List.forall_mem_cons, List.not_mem_nil, false_imp_iff, implies_true, and_true]
  exact ⟨.text _, .text _, .text _, .text _, Json.whole_ofLocation _⟩

theorem Link.whole_toJson (link : Link) : Whole link.toJson := by
  refine whole_record ?_
  simp only [List.forall_mem_cons, List.not_mem_nil, false_imp_iff, implies_true, and_true]
  exact ⟨.text _, .text _, .text _, .text _⟩

theorem Diagnostic.whole_toJsonAt (place : Int → Int) (diagnostic : Diagnostic) :
    Whole (diagnostic.toJsonAt place) := by
  refine whole_record ?_
  simp only [List.forall_mem_cons, List.not_mem_nil, false_imp_iff, implies_true, and_true]
  exact ⟨.text _, .text _, Json.whole_ofOption .text _, Json.whole_ofOption (fun _ => .int _) _⟩

theorem Analysed.whole_toJson (analysed : Analysed) : Whole analysed.toJson := by
  refine whole_record ?_
  simp only [Graph.fields, List.forall_mem_append, List.forall_mem_cons, List.not_mem_nil,
    false_imp_iff, implies_true, and_true]
  exact ⟨⟨⟨.int _, .int _, .int _, .text _⟩, whole_list_map Node.whole_toJson _,
    whole_list_map Link.whole_toJson _⟩,
    whole_list_map (Diagnostic.whole_toJsonAt analysed.place) _⟩

theorem Script.whole_toJson (results : List Analysed) : Whole (Script.toJson results) := by
  refine whole_record ?_
  rw [List.forall_mem_singleton]
  exact whole_list_map Analysed.whole_toJson results

namespace Terminal

theorem write_plain : write .plain = pure :=
  rfl

theorem transcript_plain (stream : Stream) (prints : List Print) :
    transcript .plain stream prints =
      .ok ((prints.filter fun print => print.stream == stream).flatMap Print.pieces).flatten := by
  rw [transcript, write_plain, List.mapM_pure, List.map_id']
  rfl

end Terminal

namespace App

open CommandLine (Options)
open Report (document)
open Terminal (Print)

variable {γ : Type} {boundariesOf : Text → Option (List Nat)} {library : Multigraph γ}
  {analysis : Config → Analysis} {world : World} {arguments : List Text} {options : Options}
  {script : Text} {results : List Analysed} {transcript : Transcript} {files : FileTree}

def exportTarget? (options : Options) : Option Text :=
  options.exportTo.filter fun target => !target.isEmpty

/-- How the options ask to analyse a script. -/
def analyse (boundariesOf : Text → Option (List Nat)) (analysis : Config → Analysis)
    (options : Options) (script : Text) : Except ExtractionError (List Analysed) :=
  Script.analyzeBy boundariesOf (extractWith (analysis (config options)) (config options)) script

def confirmation (target : Text) : Text :=
  "[OK] Exported to ".toList ++ (Path.ofText target).spelling ++ ['\n']

theorem plan_cases (boundariesOf : Text → Option (List Nat)) (library : Multigraph γ)
    (analysis : Config → Analysis) (options : Options) (loaded : Except SourceFault Text) :
    ((plan boundariesOf library analysis options loaded).status = 1 ∧
      (plan boundariesOf library analysis options loaded).toWrite = none) ∨
      ∃ script results, loaded = .ok script ∧
        analyse boundariesOf analysis options script = .ok results ∧ results ≠ [] := by
  cases loaded with
  | error fault => exact Or.inl ⟨rfl, rfl⟩
  | ok script =>
      cases hanalyse : analyse boundariesOf analysis options script with
      | error fault =>
          left
          rw [analyse] at hanalyse
          simp only [plan, hanalyse, and_self]
      | ok results =>
          cases results with
          | nil =>
              left
              rw [analyse] at hanalyse
              simp only [plan, hanalyse, and_self]
          | cons first rest =>
              exact Or.inr ⟨script, first :: rest, rfl, hanalyse, List.cons_ne_nil first rest⟩

theorem plan_of_analyse (hformat : options.format = .json)
    (hanalyse : analyse boundariesOf analysis options script = .ok results) (hne : results ≠ []) :
    plan boundariesOf library analysis options (.ok script) = ⟨[.line (document results)], 0,
      (exportTarget? options).map fun target => ⟨target, document results⟩⟩ := by
  rw [analyse] at hanalyse
  cases results with
  | nil => contradiction
  | cons first rest =>
      simp only [plan, hanalyse, Report.results, hformat]
      rfl

theorem isColoured_of_json (hformat : options.format = .json) : isColoured options = false := by
  rw [isColoured, hformat, bne_self_eq_false, Bool.and_false, Bool.false_and]

/-- The lines of one stream, as they are. -/
def linesOn (stream : Terminal.Stream) (prints : List Print) : Text :=
  ((prints.filter fun print => print.stream == stream).flatMap Print.pieces).flatten

theorem print_of_json (hformat : options.format = .json) (isTerminal : Bool) (plan : Plan) :
    print options isTerminal plan =
      .ok ⟨plan.status, linesOn .output plan.prints, linesOn .errors plan.prints⟩ := by
  have hmode : Terminal.Mode.of (isColoured options) isTerminal = .plain := by
    rw [isColoured_of_json hformat]
    rfl
  simp only [print, hmode, Terminal.transcript_plain]
  rfl

theorem linesOn_output_line (text : Text) (prints : List Print) :
    linesOn .output (.line text :: prints) = text ++ '\n' :: linesOn .output prints :=
  rfl

section Runs

variable (hparse : CommandLine.parse arguments = .ok (.run options))
  (hformat : options.format = .json)

include hparse hformat

theorem runBy_of_failure
    (hstatus : (plan boundariesOf library analysis options (world.load options.source)).status = 1)
    (hnone :
      (plan boundariesOf library analysis options (world.load options.source)).toWrite = none) :
    ∃ transcript, transcript.status = 1 ∧
      runBy boundariesOf library analysis world arguments = .ok (transcript, world.files) := by
  simp only [runBy, hparse, hnone, print_of_json hformat]
  exact ⟨_, hstatus, rfl⟩

section Results

variable (hload : world.load options.source = .ok script)
  (hanalyse : analyse boundariesOf analysis options script = .ok results) (hne : results ≠ [])

include hload hanalyse hne

theorem runBy_of_no_export (hnone : exportTarget? options = none) :
    runBy boundariesOf library analysis world arguments =
      .ok (⟨0, document results ++ ['\n'], []⟩, world.files) := by
  simp only [runBy, hparse, hload, plan_of_analyse hformat hanalyse hne, hnone, Option.map_none,
    print_of_json hformat, linesOn_output_line]
  rfl

theorem runBy_of_export {target : Text} (htarget : exportTarget? options = some target) :
    runBy boundariesOf library analysis world arguments =
      if '\x00' ∈ target then .error .nullInPath
      else
        match world.files.write (Path.ofText target) (document results) with
        | .ok files =>
            .ok (⟨0, document results ++ '\n' :: confirmation target, []⟩, files)
        | .error fault =>
            .ok (⟨1, document results ++ ['\n'], linesOn .errors [Report.failure false
              ("Cannot read input: ".toList ++ fault.message (Path.ofText target))]⟩,
              world.files) := by
  simp only [runBy, hparse, hload, plan_of_analyse hformat hanalyse hne, htarget, Option.map_some,
    print_of_json hformat]
  split
  · rfl
  · cases world.files.write (Path.ofText target) (document results) with
    | ok files =>
        simp only [finish, isColoured_of_json hformat, List.cons_append, List.nil_append]
        rfl
    | error fault =>
        simp only [finish, isColoured_of_json hformat, List.cons_append, List.nil_append]
        rfl

end Results

theorem runBy_eq_ok_iff :
    runBy boundariesOf library analysis world arguments = .ok (transcript, files) ∧
        transcript.status = 0 ↔
      ∃ script results, world.load options.source = .ok script ∧
        analyse boundariesOf analysis options script = .ok results ∧ results ≠ [] ∧
        transcript =
          ⟨0, document results ++ '\n' :: (exportTarget? options).elim [] confirmation, []⟩ ∧
        (exportTarget? options = none → files = world.files) ∧
        ∀ target ∈ exportTarget? options, '\x00' ∉ target ∧
          world.files.write (Path.ofText target) (document results) = .ok files := by
  constructor
  · rintro ⟨hrun, hstatus⟩
    obtain ⟨hfailed, hnone⟩ | ⟨script, results, hload, hanalyse, hne⟩ :=
      plan_cases boundariesOf library analysis options (world.load options.source)
    · obtain ⟨failed, hone, hfailure⟩ := runBy_of_failure hparse hformat hfailed hnone
      rw [hfailure] at hrun
      cases hrun
      rw [hone] at hstatus
      contradiction
    refine ⟨script, results, hload, hanalyse, hne, ?_⟩
    cases htarget : exportTarget? options with
    | none =>
        rw [runBy_of_no_export hparse hformat hload hanalyse hne htarget] at hrun
        cases hrun
        exact ⟨rfl, fun _ => rfl, fun target hmem => nomatch hmem⟩
    | some target =>
        rw [runBy_of_export hparse hformat hload hanalyse hne htarget] at hrun
        split at hrun
        · cases hrun
        · next hnull =>
            split at hrun
            · next hwrite =>
                cases hrun
                refine ⟨rfl, (fun hnone => nomatch hnone), ?_⟩
                rintro _ ⟨⟩
                exact ⟨hnull, hwrite⟩
            · cases hrun
              contradiction
  · rintro ⟨script, results, hload, hanalyse, hne, rfl, hkept, hwritten⟩
    refine ⟨?_, rfl⟩
    cases htarget : exportTarget? options with
    | none =>
        rw [runBy_of_no_export hparse hformat hload hanalyse hne htarget, hkept htarget]
        rfl
    | some target =>
        obtain ⟨hnull, hwrite⟩ := hwritten target htarget
        rw [runBy_of_export hparse hformat hload hanalyse hne htarget, if_neg hnull, hwrite]
        rfl

end Runs

theorem gap_indent : ∀ unit ∈ some [' ', ' '], Json.Gap unit := by
  rintro unit ⟨⟩ c hc
  simp only [List.mem_cons, List.not_mem_nil, or_false, or_self] at hc
  rw [hc]
  rfl

theorem parse?_document (results : List Analysed) :
    Json.parse? (document results) = some (Script.toJson results) :=
  Json.parse?_render gap_indent (Script.whole_toJson results)

theorem parse?_document_append (results : List Analysed) (rest : Text) :
    Json.parse? (document results ++ '\n' :: rest) =
      if Json.skipGaps rest = [] then some (Script.toJson results) else none := by
  have hends : Json.Ends ('\n' :: rest) := by
    rintro c ⟨⟩
    decide
  exact Json.parse?_render_append gap_indent (Script.whole_toJson results) hends

theorem parse?_output (results : List Analysed) (target : Option Text) :
    Json.parse? (document results ++ '\n' :: target.elim [] confirmation) =
      if target = none then some (Script.toJson results) else none := by
  rw [parse?_document_append]
  cases target <;> rfl

section Exporting

def scriptWorld : World :=
  ⟨⟨[(["q.sql".toList], some "SELECT 1".toList)]⟩, [], false⟩

/-- A command line that asks for the script as JSON and for an export. -/
def exportArguments : List Text :=
  ["q.sql".toList, "--format".toList, "json".toList, "--export".toList, "g.json".toList]

def exportOptions : Options where
  source := "q.sql".toList
  format := .json
  highlight := false
  statistics := false
  exportTo := some "g.json".toList
  noColour := false
  strict := false
  noWarnings := false

/-- The only statement of the script names no relation. -/
def scriptResults : List Analysed :=
  [⟨⟨0, 0, 8, "SELECT 1".toList⟩, .success ⟨[], []⟩ []⟩]

theorem parse_exportArguments : CommandLine.parse exportArguments = .ok (.run exportOptions) := by
  decide +kernel

theorem exists_run_exportArguments : ∃ files,
    run App.analysis scriptWorld exportArguments =
      .ok (⟨0, document scriptResults ++ '\n' :: confirmation "g.json".toList, []⟩, files) := by
  have hstatements : Script.statements "SELECT 1".toList = [⟨0, 0, 8, "SELECT 1".toList⟩] := by
    cbv
  have hrun : Extraction.run (App.analysis (config exportOptions)) "SELECT 1".toList
      (Extraction.start (config exportOptions)) = (.ok (), ⟨.empty, .empty true⟩) := by
    decide +kernel
  have hextract : extractWith (App.analysis (config exportOptions)) (config exportOptions)
      "SELECT 1".toList = .ok (.success ⟨[], []⟩ []) := by
    rw [extractWith, hrun]
    rfl
  have hanalyse : analyse Boundary.offsets App.analysis exportOptions "SELECT 1".toList =
      .ok scriptResults := by
    rw [analyse, Script.analyzeBy, ← Script.statements, hstatements, List.mapM_cons, hextract]
    rfl
  have hload : scriptWorld.load exportOptions.source = .ok "SELECT 1".toList := by
    decide
  have htarget : exportTarget? exportOptions = some "g.json".toList := rfl
  have hrun : run App.analysis scriptWorld exportArguments = _ :=
    runBy_of_export parse_exportArguments rfl hload hanalyse (List.cons_ne_nil _ _) htarget
  exact ⟨_, hrun⟩

end Exporting

end App

end JoinGraph
