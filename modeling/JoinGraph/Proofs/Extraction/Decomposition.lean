import JoinGraph.Proofs.Extraction.Handed
import JoinGraph.Proofs.Reference.Borders

namespace JoinGraph

open Text Word

section Filters

variable {α β : Type}

theorem filter_or_of_pairwise {p q : α → Bool} {items : List α}
    (hordered : items.Pairwise fun first second => q first = true → p second = false)
    (hdisjoint : ∀ item ∈ items, p item = true → q item = false) :
    (items.filter fun item => p item || q item) = items.filter p ++ items.filter q := by
  induction items with
  | nil => rfl
  | cons item rest ih =>
      obtain ⟨hbehind, hrest⟩ := List.pairwise_cons.mp hordered
      obtain ⟨hitem, hothers⟩ := List.forall_mem_cons.mp hdisjoint
      have htail := ih hrest hothers
      cases hp : p item with
      | true => simp [hp, hitem hp, htail]
      | false =>
          cases hq : q item with
          | false => simp [hp, hq, htail]
          | true =>
              have hnone : rest.filter p = [] := by
                apply List.filter_eq_nil_iff.mpr
                intro other hother
                simp [hbehind other hother hq]
              simp [hp, hq, htail, hnone]

/-- Where items and places are in the same order, the items that lie in any place are those of the
first place, then those of the second, and so on. -/
theorem filter_any_of_pairwise {before : α → α → Prop} {lies : β → α → Bool} {items : List α}
    {places : List β} (hitems : items.Pairwise before)
    (hordered : places.Pairwise fun first second => ∀ item other, before item other →
      lies second item = true → lies first other = false)
    (hdisjoint : places.Pairwise fun first second => ∀ item ∈ items,
      lies first item = true → lies second item = false) :
    (items.filter fun item => places.any fun place => lies place item) =
      places.flatMap fun place => items.filter (lies place) := by
  induction places with
  | nil => simp
  | cons place rest ih =>
      obtain ⟨hbefore, hrestOrdered⟩ := List.pairwise_cons.mp hordered
      obtain ⟨hapart, hrestDisjoint⟩ := List.pairwise_cons.mp hdisjoint
      rw [List.flatMap_cons, ← ih hrestOrdered hrestDisjoint, ← filter_or_of_pairwise]
      · simp only [List.any_cons]
      · apply hitems.imp
        intro item other hle hany
        obtain ⟨next, hnext, hlies⟩ := List.any_eq_true.mp hany
        exact hbefore next hnext item other hle hlies
      · intro item hitem hlies
        apply List.any_eq_false.mpr
        intro next hnext
        simp [hapart next hnext item hitem hlies]

end Filters

namespace WithClause

open Reference

theorem clear_of_endsOpening {before : Text} (h : EndsOpening before) (after : Text) :
    Clear before after := by
  obtain ⟨front, last, gap, rfl, hlast, hne, hgap⟩ := h
  have hletters : (['H', 'E'].all fun letter => isPlain letter && decide (letter ∉ finals)) =
      true := by
    decide
  have hletter := List.all_eq_true.mp hletters (fold last) hlast
  rw [Bool.and_eq_true, decide_eq_true_eq] at hletter
  exact clear_blanks hletter.1 hletter.2 hne hgap after

theorem clear_take_drop {text front back : Text} {start : Nat} (htext : text = front ++ back)
    (hstart : front.length = start) (h : Clear front back) :
    Clear (text.take start) (text.drop start) := by
  subst htext hstart
  rw [List.take_left, List.drop_left]
  exact h

theorem clear_readDefinitions {text before rest : Text} (htext : text = before ++ rest)
    (h : Clear before rest) {start : Nat}
    (hending : (readDefinitions before.length rest).ending = .main start) :
    Clear (text.take start) (text.drop start) := by
  generalize hlower : before.length = lower at hending
  fun_induction readDefinitions lower rest generalizing before with
  | case1 lower rest hhead =>
      obtain rfl := Ending.main.inj hending
      exact clear_take_drop htext hlower h
  | case2 lower rest head inside hhead => cases hending
  | case3 lower rest head inside hhead nameStart bodyStart body after hclose =>
      subst hlower
      obtain rfl := Ending.main.inj hending
      have hsplit : text = before ++ head.closed body ++ after := by
        rw [htext, (begins_of_head? hhead).eq_closed_append (Paren.append_of_close? hclose),
          List.append_assoc]
      have hclear : Clear (before ++ head.closed body) after := by
        rw [Head.closed, ← List.append_assoc]
        exact clear_concat (by decide) _ after
      apply clear_take_drop hsplit _ hclear
      have hclosed := head.length_closed body
      rw [List.length_append]
      omega
  | case4 lower rest head inside hhead nameStart bodyStart body after hclose definition stop length
      next hseparator others =>
      rename_i ih
      subst hlower
      obtain ⟨gap, hgap, rfl⟩ := append_of_separator? hseparator
      have hsplit : text = before ++ head.closed body ++ gap ++ [','] ++ next := by
        rw [htext, (begins_of_head? hhead).eq_closed_append (Paren.append_of_close? hclose), hgap]
        simp only [List.append_assoc, List.cons_append, List.nil_append]
      apply ih hsplit (clear_concat (by decide) _ next) _ hending
      have hclosed := head.length_closed body
      simp only [List.length_append, List.length_cons, List.length_nil]
      omega

theorem clear_read {text : Text} {start : Nat} (h : (read text).ending = .main start) :
    Clear (text.take start) (text.drop start) := by
  unfold read at h
  cases hopening : opening text with
  | none =>
      rw [hopening] at h
      obtain rfl := Ending.main.inj h
      exact clear_nil text
  | some found =>
      obtain ⟨lower, after⟩ := found
      rw [hopening] at h
      obtain ⟨before, htext, rfl, hends⟩ := append_of_opening hopening
      exact clear_readDefinitions htext (clear_of_endsOpening hends after) h

end WithClause

namespace Scope

def stop (scope : Scope) : Int :=
  scope.offset + scope.text.length

def covers (scope : Scope) (span : Span) : Bool :=
  decide (scope.offset ≤ span.start) && decide (span.stop ≤ scope.stop)

def references (keywords : List Text) (scope : Scope) : List Reference :=
  (Reference.findAll keywords scope.text).map fun reference =>
    reference.shiftRight scope.offset.toNat

theorem covers_eq {scope : Scope} {offset : Nat} (h : scope.offset = offset) (span : Span) :
    scope.covers span =
      (decide (offset ≤ span.start) && decide (span.stop ≤ offset + scope.text.length)) := by
  rw [covers, stop, h, Bool.eq_iff_iff]
  simp only [Bool.and_eq_true, decide_eq_true_eq]
  omega

theorem covers_eq_false {first second : Scope} (h : first.stop ≤ second.offset) {span next : Span}
    (hspan : second.covers span = true) (hlt : span.start < next.stop) :
    first.covers next = false := by
  simp only [covers, Bool.and_eq_true, decide_eq_true_eq] at hspan
  by_contra hcovers
  simp only [covers, Bool.and_eq_true, decide_eq_true_eq, Bool.not_eq_false] at hcovers
  omega

end Scope

namespace Extraction

open WithClause

theorem covers_mainScope {keywords : List Text} {text : Text} {reference : Reference}
    (h : reference ∈ Reference.findAll keywords text) {start : Nat} (hstart : start ≤ text.length) :
    (mainScope text start).covers reference.tableSpan =
      decide (start ≤ reference.tableSpan.start) := by
  have hstop := (Reference.tableSpan_of_mem_findAll h).2
  rw [Scope.covers_eq (rfl : (mainScope text start).offset = (start : Int)), mainScope,
    List.length_drop, Bool.eq_iff_iff]
  simp only [Bool.and_eq_true, decide_eq_true_eq]
  omega

theorem references_mainScope {text : Text} {start : Nat}
    (h : (read text).ending = .main start) (keywords : List Text) :
    (mainScope text start).references keywords =
      (Reference.findAll keywords text).filter fun reference =>
        (mainScope text start).covers reference.tableSpan := by
  have hlayout := layout_read text
  rw [h] at hlayout
  have hwidth : (text.take start).length = start := by
    rw [List.length_take, Nat.min_eq_left hlayout.start_le]
  have hreferences := Reference.filter_findAll_clear (clear_read h) keywords
  rw [List.take_append_drop, hwidth] at hreferences
  refine hreferences.symm.trans (List.filter_congr ?_)
  intro reference hreference
  exact (covers_mainScope hreference hlayout.start_le).symm

theorem references_body {text : Text} {definition : Definition}
    (h : definition ∈ (read text).definitions) (keywords : List Text) :
    definition.scope.references keywords =
      (Reference.findAll keywords text).filter fun reference =>
        definition.scope.covers reference.tableSpan := by
  have hlayout := layout_read text
  have hpos := hlayout.lower_lt_bodyStart h
  obtain ⟨before, after, hlength, htext⟩ := hlayout.partAt_parenthesised h
  have hcut : text = (before ++ ['(']) ++ (definition.body ++ ')' :: after) := by
    rw [htext]
    simp only [List.append_assoc, List.cons_append, List.nil_append]
  have hstart : (before ++ ['(']).length = definition.bodyStart := by
    rw [List.length_append, hlength]
    exact Nat.sub_add_cancel hpos
  have hclear : Reference.Clear (before ++ ['(']) (definition.body ++ ')' :: after) :=
    Reference.clear_concat (by decide) before _
  have hreferences := Reference.filter_findAll_between hclear (by decide) keywords
  rw [← hcut, hstart] at hreferences
  refine hreferences.symm.trans (List.filter_congr ?_)
  intro reference _
  exact (Scope.covers_eq (rfl : definition.scope.offset = (definition.bodyStart : Int)) _).symm

theorem pairwise_tableSpan_lt (keywords : List Text) (text : Text) :
    (Reference.findAll keywords text).Pairwise fun reference next =>
      reference.tableSpan.start < next.tableSpan.stop := by
  refine (Reference.pairwise_tableSpan keywords text).imp_of_mem ?_
  intro reference next _ hnext hle
  have hpos := (Reference.tableSpan_of_mem_findAll hnext).1
  have hspan := reference.tableSpan.start_le_stop
  omega

/-- The bodies that are handed over and the main query behind them. -/
def scopes (keywords : List Text) (text : Text) (start : Nat) : List Scope :=
  handed keywords text ++ [mainScope text start]

section Scopes

variable {text : Text} {start : Nat} (h : (read text).ending = .main start) (keywords : List Text)

include h

theorem pairwise_scopes :
    (scopes keywords text start).Pairwise fun first second => first.stop ≤ second.offset := by
  have hlayout := layout_read text
  rw [h] at hlayout
  rw [scopes, handed_eq]
  refine List.pairwise_append.mpr ⟨?_, List.pairwise_singleton _ _, ?_⟩
  · apply List.pairwise_map.mpr
    refine hlayout.pairwise_bodies.imp ?_
    intro first second hlt
    simp only [Definition.scope, Scope.stop]
    omega
  · intro scope hscope other hother
    obtain ⟨definition, hdefinition, rfl⟩ := List.mem_map.mp hscope
    obtain rfl := List.mem_singleton.mp hother
    have hlt := hlayout.stop_lt_start.2 definition hdefinition
    simp only [Definition.scope, Scope.stop, mainScope]
    omega

theorem partAt_of_mem_scopes {scope : Scope} (hscope : scope ∈ scopes keywords text start) :
    ∃ offset : Nat, scope.offset = offset ∧ PartAt scope.text text offset := by
  have hlayout := layout_read text
  rw [h] at hlayout
  rcases List.mem_append.mp hscope with hscope | hscope
  · exact partAt_of_mem_handed hscope
  · obtain rfl := List.mem_singleton.mp hscope
    exact ⟨start, rfl, PartAt.drop hlayout.start_le⟩

theorem references_of_mem_scopes {scope : Scope} (hscope : scope ∈ scopes keywords text start) :
    scope.references keywords = (Reference.findAll keywords text).filter fun reference =>
      scope.covers reference.tableSpan := by
  rcases List.mem_append.mp hscope with hscope | hscope
  · rw [handed_eq] at hscope
    obtain ⟨definition, hdefinition, rfl⟩ := List.mem_map.mp hscope
    exact references_body hdefinition keywords
  · obtain rfl := List.mem_singleton.mp hscope
    exact references_mainScope h keywords

theorem flatMap_references :
    (scopes keywords text start).flatMap (Scope.references keywords) =
      (Reference.findAll keywords text).filter fun reference =>
        (scopes keywords text start).any fun scope => scope.covers reference.tableSpan := by
  have hordered := pairwise_scopes h keywords
  rw [List.flatMap_congr fun scope hscope => references_of_mem_scopes h keywords hscope,
    ← filter_any_of_pairwise (pairwise_tableSpan_lt keywords text)]
  · refine hordered.imp ?_
    intro first second hle reference next hlt hcovers
    exact Scope.covers_eq_false hle hcovers hlt
  · refine hordered.imp ?_
    intro first second hle reference hreference hfirst
    have hlt := (Reference.tableSpan_of_mem_findAll hreference).1
    cases hsecond : second.covers reference.tableSpan with
    | false => rfl
    | true =>
        rw [Scope.covers_eq_false hle hsecond hlt] at hfirst
        contradiction

end Scopes

/-- Where splitting comes to its end, the bodies that it hands over and the main query are disjoint
parts of the text, in text order. Their references, one part after the other, are those references
of the whole text whose table name lies in a body or in the main query. -/
theorem findAll_scopes (keywords : List Text) (text : Text) (progress : Progress) {start : Nat}
    (h : (split (Scope.analyze keywords) text progress).1 = .ok start) :
    (scopes keywords text start).Pairwise (fun first second => first.stop ≤ second.offset) ∧
    (∀ scope ∈ scopes keywords text start, ∃ offset : Nat,
      scope.offset = offset ∧ PartAt scope.text text offset) ∧
    (scopes keywords text start).flatMap (Scope.references keywords) =
      (Reference.findAll keywords text).filter fun reference =>
        (handed keywords text).any (fun scope => scope.covers reference.tableSpan) ||
          decide (start ≤ reference.tableSpan.start) := by
  have hending : (read text).ending = .main start := ending_eq_of_splitClause h
  refine ⟨pairwise_scopes hending keywords,
    fun scope hscope => partAt_of_mem_scopes hending keywords hscope, ?_⟩
  rw [flatMap_references hending keywords]
  apply List.filter_congr
  intro reference hreference
  have hlayout := layout_read text
  rw [hending] at hlayout
  rw [scopes, List.any_append, List.any_cons, List.any_nil, Bool.or_false,
    covers_mainScope hreference hlayout.start_le]

theorem findAll_scopes_outside :
    (split (Scope.analyze Config.default.keywords)
      "FROM z; WITH a AS (SELECT 1 FROM t u), b AS (FROM a) SELECT 2 FROM b JOIN c d".toList
      (start .default)).1 = .ok 52 ∧
    ((scopes Config.default.keywords
      "FROM z; WITH a AS (SELECT 1 FROM t u), b AS (FROM a) SELECT 2 FROM b JOIN c d".toList
      52).flatMap (Scope.references Config.default.keywords)).map Reference.table =
      [['t'], ['a'], ['b'], ['c']] := by
  have hsplit : (split (Scope.analyze Config.default.keywords)
      "FROM z; WITH a AS (SELECT 1 FROM t u), b AS (FROM a) SELECT 2 FROM b JOIN c d".toList
      (start .default)).1 = .ok 52 := by
    decide +kernel
  obtain ⟨-, -, hreferences⟩ := findAll_scopes Config.default.keywords _ _ hsplit
  refine ⟨hsplit, ?_⟩
  rw [hreferences]
  decide +kernel

end Extraction

end JoinGraph
