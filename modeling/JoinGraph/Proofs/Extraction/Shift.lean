import JoinGraph.Proofs.Comment.Closed
import JoinGraph.Proofs.Extraction.Faultless
import JoinGraph.Proofs.Scope.Shift

namespace JoinGraph

open Text Word

namespace Comment

theorem mask_cons {c : Char} (hc : isBlank c = true) (text : Text) :
    mask (c :: text) = c :: mask text := by
  have hslash : ¬ ['/', '*'] <+: c :: text := by
    rw [pair_isPrefix_cons_iff]
    rintro ⟨rfl, -⟩
    exact absurd hc (by decide)
  have hdash : ¬ ['-', '-'] <+: c :: maskBlocks false text := by
    rw [pair_isPrefix_cons_iff]
    rintro ⟨rfl, -⟩
    exact absurd hc (by decide)
  rw [mask, mask, maskBlocks_false_cons hslash]
  by_cases hnewline : c = '\n'
  · rw [hnewline, maskLines]
  · rw [maskLines_false_cons hnewline hdash]

theorem mask_blanks_append {blanks : Text} (hblanks : ∀ c ∈ blanks, isBlank c = true)
    (text : Text) : mask (blanks ++ text) = blanks ++ mask text := by
  induction blanks with
  | nil => rfl
  | cons c rest ih =>
      obtain ⟨hc, hrest⟩ := List.forall_mem_cons.mp hblanks
      rw [List.cons_append, mask_cons hc, ih hrest, List.cons_append]

end Comment

def Definition.shiftRight (definition : Definition) (offset : Nat) : Definition :=
  { definition with
    nameStart := definition.nameStart + offset
    bodyStart := definition.bodyStart + offset }

def Ending.shiftRight (ending : Ending) (offset : Nat) : Ending :=
  match ending with
  | main start => main (start + offset)
  | unclosed name nameStart openAt => unclosed name (nameStart + offset) (openAt + offset)

namespace WithClause

def shiftRight (clause : WithClause) (offset : Nat) : WithClause :=
  ⟨clause.definitions.map fun definition => definition.shiftRight offset,
    clause.ending.shiftRight offset⟩

theorem readDefinitions_shiftRight (start offset : Nat) (text : Text) :
    readDefinitions (start + offset) text = (readDefinitions start text).shiftRight offset := by
  fun_induction readDefinitions start text with
  | case1 start text hhead =>
      rw [readDefinitions_end hhead]
      rfl
  | case2 start text head inside hhead nameStart bodyStart hclose =>
      have hpos := (length_of_head? hhead).2
      rw [readDefinitions_unclosed hhead hclose]
      simp only [shiftRight, Ending.shiftRight, List.map_nil, WithClause.mk.injEq, true_and,
        Ending.unclosed.injEq]
      omega
  | case3 start text head inside hhead nameStart bodyStart body after hclose definition stop hnone =>
      rw [readDefinitions_last hhead hclose hnone]
      simp only [shiftRight, Ending.shiftRight, List.map_cons, List.map_nil, Definition.shiftRight,
        definition, nameStart, bodyStart, stop, Nat.add_right_comm _ offset]
  | case4 start text head inside hhead nameStart bodyStart body after hclose definition stop length
      next hseparator others =>
      rename_i ih
      have hothers : readDefinitions (start + offset + head.length + body.length + 1 + length) next =
          others.shiftRight offset := by
        rw [← ih]
        congr 1
        omega
      rw [readDefinitions_more hhead hclose hseparator, hothers]
      simp only [shiftRight, List.map_cons, Definition.shiftRight, definition, nameStart, bodyStart,
        Nat.add_right_comm _ offset]

end WithClause

namespace Extraction

variable (offset : Nat)

theorem declare_shiftRight (name : Text) (place : Span) (draft : Draft) :
    declare name (place.shiftRight offset) (draft.shiftRight offset) =
      (declare name place draft).map id fun next => next.shiftRight offset := by
  have hmake : Node.make name.upper name name .cte (some (place.shiftRight offset)) =
      (Node.make name.upper name name .cte (some place)).map fun made => made.shiftRight offset := by
    unfold Node.make
    split
    · rfl
    · split <;> rfl
  simp only [declare, hmake, Draft.registerCte_shiftRight]
  cases Node.make name.upper name name .cte (some place) with
  | error fault => rfl
  | ok made => exact congrArg (Prod.mk _) (Draft.addNode_shiftRight _ offset made)

variable (keywords : List Text)

theorem enter_shiftRight (definition : Definition) (progress : Progress) :
    enter (Scope.analyze keywords) (definition.shiftRight offset) (progress.shiftRight offset) =
      (enter (Scope.analyze keywords) definition progress).map id
        fun next => next.shiftRight offset := by
  have hplace : (definition.shiftRight offset).nameSpan = definition.nameSpan.shiftRight offset := by
    simp only [Definition.nameSpan, Definition.shiftRight, Span.ofLength, Span.shiftRight,
      Nat.add_right_comm _ offset]
  have hdeclare := declare_shiftRight offset definition.name definition.nameSpan progress.draft
  rw [← hplace] at hdeclare
  have hname : (definition.shiftRight offset).name = definition.name := rfl
  simp only [enter, Progress.shiftRight, hname, hdeclare]
  rcases declare definition.name definition.nameSpan progress.draft with ⟨answer, draft⟩
  cases answer with
  | error fault => rfl
  | ok =>
      have hoffset : definition.scope.offset = definition.bodyStart := rfl
      exact Scope.analyze_shiftRight keywords hoffset offset { progress with draft }

section Run

variable {blanks : Text} (hblanks : ∀ c ∈ blanks, isBlank c = true) (masked : Text)

theorem mainScope_blanks_append (start : Nat) :
    mainScope (blanks ++ masked) (start + blanks.length) =
      (mainScope masked start).shiftRight blanks.length := by
  rw [mainScope, Nat.add_comm start, ← List.drop_drop, List.drop_left, Nat.add_comm]
  rfl

include hblanks

theorem analyze_whole_blanks_append (progress : Progress) :
    Scope.analyze keywords (mainScope (blanks ++ masked) 0) (progress.shiftRight blanks.length) =
      (Scope.analyze keywords (mainScope masked 0) progress).map id
        fun next => next.shiftRight blanks.length := by
  have hoffset : (mainScope masked 0).offset = (0 : Nat) := rfl
  rw [← Scope.analyze_shiftRight keywords hoffset]
  exact Scope.analyze_blanks_append keywords hblanks masked 0 none _

theorem ending_shiftRight {lower : Nat} {ending : Ending}
    (hlayout : Layout masked lower [] ending) (progress : Progress) :
    afterSplit (Scope.analyze keywords) (blanks ++ masked)
        (splitClause (Scope.analyze keywords) (ending.shiftRight blanks.length) []
          (progress.shiftRight blanks.length)) =
      (afterSplit (Scope.analyze keywords) masked
        (splitClause (Scope.analyze keywords) ending [] progress)).map id
          fun next => next.shiftRight blanks.length := by
  cases hlayout with
  | @main _ start _ _ =>
      change Scope.analyze keywords (mainScope (blanks ++ masked) (start + blanks.length)) _ = _
      rw [mainScope_blanks_append]
      have hoffset : (mainScope masked start).offset = start := rfl
      exact Scope.analyze_shiftRight keywords hoffset blanks.length progress
  | @unclosed _ nameStart openAt name _ hname =>
      have hplace : Span.ofLength (nameStart + blanks.length) name.length =
          (Span.ofLength nameStart name.length).shiftRight blanks.length := by
        simp only [Span.ofLength, Span.shiftRight, Nat.add_right_comm _ blanks.length]
      obtain ⟨draft, hdraft, -⟩ :=
        declare_eq_ok progress.draft hname.ne_nil (Span.ofLength nameStart name.length)
      have hmoved := declare_shiftRight blanks.length name (Span.ofLength nameStart name.length)
        progress.draft
      rw [hdraft, ← hplace] at hmoved
      simp only [splitClause, Ending.shiftRight, Progress.shiftRight, hmoved, hdraft, Prod.map,
        id_eq, afterSplit]
      have hlog := progress.log.add_shiftRight (.unclosedBody name openAt) blanks.length
      simp only [Diagnostic.shiftRight] at hlog
      rw [Int.natCast_add, hlog]
      exact analyze_whole_blanks_append keywords hblanks masked
        ⟨draft, progress.log.add (.unclosedBody name openAt)⟩

theorem splitClause_shiftRight {lower : Nat} {definitions : List Definition} {ending : Ending}
    (hlayout : Layout masked lower definitions ending) (progress : Progress) :
    afterSplit (Scope.analyze keywords) (blanks ++ masked)
        (splitClause (Scope.analyze keywords) (ending.shiftRight blanks.length)
          (definitions.map fun definition => definition.shiftRight blanks.length)
          (progress.shiftRight blanks.length)) =
      (afterSplit (Scope.analyze keywords) masked
        (splitClause (Scope.analyze keywords) ending definitions progress)).map id
          fun next => next.shiftRight blanks.length := by
  induction definitions generalizing lower progress with
  | nil => exact ending_shiftRight keywords hblanks masked hlayout progress
  | cons definition rest ih =>
      cases hlayout with
      | definition _ hname _ _ hrest =>
          obtain ⟨entered, hentered, -, -⟩ :=
            enter_eq_ok (Scope.reporting_analyze keywords) hname.ne_nil progress
          have hmoved := enter_shiftRight blanks.length keywords definition progress
          rw [hentered] at hmoved
          simp only [List.map_cons, splitClause, hmoved, hentered, Prod.map, id_eq]
          exact ih hrest entered

theorem run_blanks_append (text : Text) (progress : Progress) :
    run (Scope.analyze keywords) (blanks ++ text) (progress.shiftRight blanks.length) =
      (run (Scope.analyze keywords) text progress).map id
        fun next => next.shiftRight blanks.length := by
  rw [run_eq_afterSplit, run_eq_afterSplit, Comment.mask_blanks_append hblanks]
  generalize Comment.mask text = masked
  have hlayout := WithClause.layout_read masked
  unfold split
  rw [WithClause.read, WithClause.opening_blanks_append hblanks]
  rw [WithClause.read] at hlayout ⊢
  cases hopening : WithClause.opening masked with
  | none => exact analyze_whole_blanks_append keywords hblanks masked progress
  | some found =>
      obtain ⟨start, after⟩ := found
      rw [hopening] at hlayout
      simp only [Option.map_some, WithClause.readDefinitions_shiftRight]
      exact splitClause_shiftRight keywords hblanks masked hlayout progress

end Run

/-- Blanks in front of a statement move its graph and the positions of its diagnostics right by
their number, and nothing else. So does the offset of a scope that is analysed by itself. -/
theorem extract_blanks_append (config : Config) {blanks : Text}
    (hblanks : ∀ c ∈ blanks, isBlank c = true) (text : Text) :
    (∃ graph moved diagnostics,
      extract config text = .ok (.success graph diagnostics) ∧
      graph.shift blanks.length = .ok moved ∧
      extract config (blanks ++ text) = .ok (.success moved
        (diagnostics.map fun diagnostic => diagnostic.shiftRight blanks.length))) ∧
    ∀ (owner : Option Text) (distance : Nat), ∃ next other,
      Scope.analyze config.keywords ⟨text, 0, owner⟩ (start config) = (.ok (), next) ∧
      Scope.analyze config.keywords ⟨text, distance, owner⟩ (start config) = (.ok (), other) ∧
      next.draft.graph.shift distance = .ok other.draft.graph ∧
      other.log.entries =
        next.log.entries.map fun diagnostic => diagnostic.shiftRight distance := by
  have hstart : ∀ distance, (start config).shiftRight distance = start config := fun _ => rfl
  constructor
  · obtain ⟨next, hnext, -⟩ := run_eq_ok config.keywords text (start config)
    have hmoved := run_blanks_append config.keywords hblanks text (start config)
    rw [hstart, hnext] at hmoved
    refine ⟨next.draft.graph, _, next.log.entries, ?_, Graph.shift_natCast _ _, ?_⟩
    · rw [extract, extractWith, hnext]
      rfl
    · rw [extract, extractWith, hmoved]
      rfl
  · intro owner distance
    obtain ⟨next, hnext, -⟩ :=
      Scope.reporting_analyze config.keywords ⟨text, 0, owner⟩ 0 (start config) rfl
    have hoffset : (Scope.mk text 0 owner).offset = (0 : Nat) := rfl
    have hmoved := Scope.analyze_shiftRight config.keywords hoffset distance (start config)
    rw [hstart, hnext] at hmoved
    refine ⟨next, next.shiftRight distance, hnext, ?_, Graph.shift_natCast _ _, rfl⟩
    rw [Scope.shiftRight, Int.zero_add] at hmoved
    exact hmoved

theorem extract_blanks_append_unclosed :
    (∀ c ∈ ['\n', '\t'], isBlank c = true) ∧
    ∃ graph moved diagnostics,
      extract .default "with c as (select 1 from a where a.i = x.j".toList =
        .ok (.success graph diagnostics) ∧
      graph.shift (['\n', '\t'].length : Nat) = .ok moved ∧
      extract .default (['\n', '\t'] ++ "with c as (select 1 from a where a.i = x.j".toList) =
        .ok (.success moved
          (diagnostics.map fun diagnostic => diagnostic.shiftRight ['\n', '\t'].length)) := by
  have hall : ['\n', '\t'].all isBlank = true := by decide
  have hblanks := List.all_eq_true.mp hall
  exact ⟨hblanks, (extract_blanks_append .default hblanks
    "with c as (select 1 from a where a.i = x.j".toList).1⟩

end Extraction

end JoinGraph
