import JoinGraph.Proofs.Reference.Cuts

/-!
Borders that no reference reaches across.

From such a border on, the references of a text are those of the rest of the text. A border stands
at the front of a text, behind a barrier, and behind blanks that follow a word in which no
introducing phrase has a word end.
-/

namespace JoinGraph.Reference

open Text Word

/-- The letters that end a word of an introducing phrase. -/
def finals : List Char :=
  ['L', 'R', 'T', 'S', 'M', 'N']

theorem final_of_mem_introducers : ∀ words ∈ introducers, ∀ word ∈ words,
    ∃ letter ∈ word.getLast?, letter ∈ finals := by
  have hall : (introducers.all fun words => words.all fun word =>
      word.getLast?.any fun letter => finals.contains letter) = true := by
    decide
  simpa [List.all_eq_true, Option.any_eq_true] using hall

/-- A blank follows a blank or the end of an introducing word. -/
def Follows (c d : Char) : Prop :=
  isBlank d = true → isBlank c = true ∨ fold c ∈ finals

theorem isChain_word {word : Text} (h : ∀ c ∈ word, isFolded c = true) :
    word.IsChain Follows := by
  apply List.Pairwise.isChain
  apply List.pairwise_of_forall_mem_list
  intro c _ d hd hblank
  rw [isBlank_eq_false_of_isFolded (h d hd)] at hblank
  contradiction

theorem isChain_blanks {gap : Text} (h : ∀ c ∈ gap, isBlank c = true) :
    gap.IsChain Follows := by
  apply List.Pairwise.isChain
  apply List.pairwise_of_forall_mem_list
  intro c hc d _ _
  exact Or.inl (h c hc)

/-- Words and blanks in which every blank follows a blank or the end of an introducing word, and
which end in such a word. -/
structure Introduces (phrase : Text) : Prop where
  chain : phrase.IsChain Follows
  last : ∃ c ∈ phrase.getLast?, fold c ∈ finals

theorem Introduces.append_blanks {phrase gap : Text} (h : Introduces phrase)
    (hgap : ∀ c ∈ gap, isBlank c = true) : (phrase ++ gap).IsChain Follows := by
  apply h.chain.append (isChain_blanks hgap)
  intro c hc d _ _
  obtain ⟨last, hlast, hfinal⟩ := h.last
  rw [hlast, Option.mem_def, Option.some.injEq] at hc
  exact Or.inr (hc ▸ hfinal)

theorem Introduces.append {first gap rest : Text} (hfirst : Introduces first) (hne : gap ≠ [])
    (hgap : ∀ c ∈ gap, isBlank c = true) (hrest : Introduces rest) :
    Introduces (first ++ gap ++ rest) where
  chain := by
    apply (hfirst.append_blanks hgap).append hrest.chain
    intro c hc d _ _
    rw [List.getLast?_append_of_ne_nil _ hne] at hc
    exact Or.inl (hgap c (List.mem_of_getLast? hc))
  last := by
    obtain ⟨c, hc, hfinal⟩ := hrest.last
    refine ⟨c, ?_, hfinal⟩
    rw [List.getLast?_append, Option.mem_def.mp hc]
    rfl

theorem introduces_key {word read : Text} (hspelled : read.map fold = word) (hkey : IsKey word)
    (hfinal : ∃ letter ∈ word.getLast?, letter ∈ finals) : Introduces read where
  chain := isChain_word (hkey.isName hspelled).folded
  last := by
    obtain ⟨letter, hletter, hmem⟩ := hfinal
    rw [← hspelled, List.getLast?_map] at hletter
    obtain ⟨c, hc, rfl⟩ := Option.map_eq_some_iff.mp hletter
    exact ⟨c, hc, hmem⟩

theorem introduces_of_spells {words : List Text} {phrase : Text} (h : Spells words phrase)
    (hwords : ∀ word ∈ words, IsKey word)
    (hfinal : ∀ word ∈ words, ∃ letter ∈ word.getLast?, letter ∈ finals) : Introduces phrase := by
  induction h with
  | single hread =>
      exact introduces_key hread (hwords _ List.mem_cons_self) (hfinal _ List.mem_cons_self)
  | more hread hne hgap hrest ih =>
      obtain ⟨hword, hothers⟩ := List.forall_mem_cons.mp hwords
      obtain ⟨hend, hends⟩ := List.forall_mem_cons.mp hfinal
      rw [← List.append_assoc]
      exact (introduces_key hread hword hend).append hne hgap (ih hothers hends)

theorem isChain_of_read? {text : Text} {reading : Reading} (h : read? text = some reading) :
    (reading.phrase ++ reading.gap).IsChain Follows := by
  simp only [read?, Option.bind_eq_bind, Option.bind_eq_some_iff, Prod.exists, Option.pure_def,
    Option.some.injEq] at h
  obtain ⟨phrase, afterPhrase, hphrase, gap, afterGap, hgap, table, after, htable, rfl⟩ := h
  obtain ⟨-, words, hwords, hspells⟩ := spells_of_introducer? hphrase
  have hintroduces := introduces_of_spells hspells (isKey_of_mem_introducers words hwords)
    (final_of_mem_introducers words hwords)
  exact hintroduces.append_blanks fun c hc => isBlank_of_mem_blanks? hgap hc

/-- No reading that begins in `before` reaches into `after`. -/
def Clear (before after : Text) : Prop :=
  Border isFolded (fun rest => (read? rest).map fun found => (found, found.length)) before after

theorem clear_of_read? {before after : Text} (houtside : ∀ c ∈ before.getLast?, isFolded c = false)
    (h : ∀ tail reading, tail ≠ [] → tail <:+ before → read? (tail ++ after) = some reading →
      reading.length ≤ tail.length) : Clear before after where
  outside := houtside
  within := by
    intro tail found length hne htail hfound
    obtain ⟨reading, hread, heq⟩ := Option.map_eq_some_iff.mp hfound
    obtain ⟨rfl, rfl⟩ := Prod.mk.inj heq
    exact h tail reading hne htail hread

theorem clear_nil (after : Text) : Clear [] after := by
  apply clear_of_read?
  · intro c hc
    cases hc
  · intro tail reading hne htail
    exact absurd (List.suffix_nil.mp htail) hne

theorem clear_concat {c : Char} (hc : IsBarrier c) (before after : Text) :
    Clear (before ++ [c]) after := by
  apply clear_of_read?
  · intro d hd
    obtain rfl : c = d := by simpa using hd
    exact hc.not_folded
  · intro tail reading hne htail hread
    rcases List.suffix_concat_iff.mp htail with hnil | ⟨front, rfl, -⟩
    · exact absurd hnil hne
    · rw [List.append_assoc, List.singleton_append, read?_append hc] at hread
      obtain ⟨behind, hbegins⟩ := begins_of_read? hread
      have hle := hbegins.length_le
      rw [List.length_append]
      omega

/-- A letter with a blank behind it, both inside a reading, ends an introducing word. -/
theorem Reading.Begins.fold_mem_finals {reading : Reading} {text after front rest : Text}
    {last blank : Char} (h : reading.Begins text after)
    (hchain : (reading.phrase ++ reading.gap).IsChain Follows)
    (htext : text = front ++ last :: blank :: rest) (hlast : isFolded last = true)
    (hblank : isBlank blank = true) (hlength : front.length + 1 < reading.length) :
    fold last ∈ finals := by
  have hat : text[front.length + 1]? = some blank := by
    simp [htext]
  by_cases hgap : front.length + 1 < reading.tableOffset
  · have hfront : front ++ [last, blank] <+: text := by
      rw [htext]
      exact ⟨rest, by simp⟩
    have hintroduction : reading.phrase ++ reading.gap <+: text := by
      rw [h.text_eq, ← List.append_assoc]
      exact List.prefix_append _ _
    have hwidth : (front ++ [last, blank]).length ≤ (reading.phrase ++ reading.gap).length := by
      simp only [List.length_append, List.length_cons, List.length_nil]
      unfold Reading.tableOffset at hgap
      omega
    obtain ⟨more, hmore⟩ := List.prefix_of_prefix_length_le hfront hintroduction hwidth
    have hcut : reading.phrase ++ reading.gap = front ++ last :: blank :: more := by
      rw [← hmore, List.append_assoc]
      rfl
    rw [hcut, List.isChain_append_cons_cons] at hchain
    rcases hchain.2.1 hblank with hlastBlank | hfinal
    · rw [isFolded_eq_false_of_isBlank hlastBlank] at hlast
      contradiction
    · exact hfinal
  · -- The blank would belong to the table name.
    exfalso
    have hmem := h.delimitedAt_table.partAt.mem_of_getElem? (Nat.le_of_not_lt hgap) hlength hat
    have hdotted := isDotted_of_mem_dotted? h.dotted hmem
    rw [isDotted_eq_false_of_isBlank hblank] at hdotted
    contradiction

theorem clear_blanks {front gap : Text} {last : Char} (hlast : isFolded last = true)
    (hfinal : fold last ∉ finals) (hne : gap ≠ []) (hgap : ∀ c ∈ gap, isBlank c = true)
    (after : Text) : Clear (front ++ last :: gap) after := by
  apply clear_of_read?
  · intro c hc
    rw [List.append_cons, List.getLast?_append_of_ne_nil _ hne] at hc
    exact isFolded_eq_false_of_isBlank (hgap c (List.mem_of_getLast? hc))
  · intro tail reading htailNe htail hread
    obtain ⟨behind, hbegins⟩ := begins_of_read? hread
    have hmeets : ¬ tail <:+ gap := by
      intro hblanks
      obtain ⟨c, rest, rfl⟩ := List.exists_cons_of_ne_nil htailNe
      have hblank := hgap c (hblanks.subset List.mem_cons_self)
      rw [List.cons_append, read?_of_isBlank hblank] at hread
      contradiction
    have hcovers : last :: gap <:+ tail := by
      rcases List.suffix_or_suffix_of_suffix (List.suffix_append front (last :: gap)) htail with
        hcovers | hinside
      · exact hcovers
      · rcases List.suffix_cons_iff.mp hinside with rfl | hblanks
        · exact List.suffix_refl _
        · exact absurd hblanks hmeets
    obtain ⟨start, rfl⟩ := hcovers
    obtain ⟨blank, gapRest, rfl⟩ := List.exists_cons_of_ne_nil hne
    by_contra hlt
    have hcut : start ++ last :: blank :: gapRest ++ after =
        start ++ last :: blank :: (gapRest ++ after) := by
      rw [List.append_assoc]
      rfl
    apply hfinal
    apply hbegins.fold_mem_finals (isChain_of_read? hread) hcut hlast
      (hgap blank List.mem_cons_self)
    simp only [List.length_append, List.length_cons] at hlt
    omega

section Filters

variable {before after : Text}

theorem filter_findAll_clear (h : Clear before after) (keywords : List Text) :
    (findAll keywords (before ++ after)).filter
        (fun reference => decide (before.length ≤ reference.tableSpan.start)) =
      (findAll keywords after).map fun reference => reference.shiftRight before.length := by
  obtain ⟨front, hfront, hmem⟩ := occurrences_border h
  have hreadings : readings (before ++ after) = front ++ (readings after).map _ := hfront
  have hall : ((findAll keywords after).map fun reference =>
      reference.shiftRight before.length).filter
        (fun reference => decide (before.length ≤ reference.tableSpan.start)) =
      (findAll keywords after).map fun reference => reference.shiftRight before.length := by
    apply List.filter_eq_self.mpr
    intro reference hreference
    obtain ⟨found, -, rfl⟩ := List.mem_map.mp hreference
    exact decide_eq_true (Nat.le_add_left before.length found.tableSpan.start)
  rw [findAll, hreadings, List.filterMap_append, filterMap_readings_add, List.filter_append, hall,
    List.append_left_eq_self, List.filter_eq_nil_iff]
  intro reference hreference
  obtain ⟨⟨place, reading⟩, hplace, heq⟩ := List.mem_filterMap.mp hreference
  obtain ⟨tail, length, hne, htail, hfound, hsum⟩ := hmem place reading hplace
  have hlength := h.within tail reading length hne htail hfound
  obtain ⟨found, hread, hfoundEq⟩ := Option.map_eq_some_iff.mp hfound
  obtain ⟨rfl, rfl⟩ := Prod.mk.inj hfoundEq
  obtain ⟨behind, hbegins⟩ := begins_of_read? hread
  have htable := List.length_pos_iff.mpr hbegins.table_ne_nil
  simp only at heq
  split at heq
  · cases heq
  · obtain rfl := Option.some.inj heq
    rw [decide_eq_true_eq]
    change ¬ before.length ≤ place + found.tableOffset
    rw [Reading.length] at hlength
    omega

theorem filter_findAll_between {body : Text} {c : Char} (h : Clear before (body ++ c :: after))
    (hc : IsBarrier c) (keywords : List Text) :
    (findAll keywords (before ++ (body ++ c :: after))).filter
        (fun reference => decide (before.length ≤ reference.tableSpan.start) &&
          decide (reference.tableSpan.stop ≤ before.length + body.length)) =
      (findAll keywords body).map fun reference => reference.shiftRight before.length := by
  have hinside : ∀ reference ∈ (findAll keywords body).map (fun reference =>
      reference.shiftRight before.length),
      decide (reference.tableSpan.stop ≤ before.length + body.length) = true := by
    intro reference hreference
    obtain ⟨found, hfound, rfl⟩ := List.mem_map.mp hreference
    have hstop := (tableSpan_of_mem_findAll hfound).2
    apply decide_eq_true
    change found.tableSpan.stop + before.length ≤ before.length + body.length
    omega
  have hbehind : ∀ reference ∈ ((findAll keywords after).map fun reference =>
      reference.shiftRight (body.length + 1)).map (fun reference =>
        reference.shiftRight before.length),
      ¬ decide (reference.tableSpan.stop ≤ before.length + body.length) = true := by
    intro reference hreference
    rw [List.map_map] at hreference
    obtain ⟨found, hfound, rfl⟩ := List.mem_map.mp hreference
    rw [decide_eq_true_eq]
    change ¬ found.tableSpan.stop + (body.length + 1) + before.length ≤
      before.length + body.length
    omega
  have hfilter := congrArg (List.filter fun reference =>
    decide (reference.tableSpan.stop ≤ before.length + body.length))
      (filter_findAll_clear h keywords)
  rw [findAll_append hc, List.map_append, List.filter_append, List.filter_eq_self.mpr hinside,
    List.filter_eq_nil_iff.mpr hbehind, List.append_nil, List.filter_filter] at hfilter
  simp only [Bool.and_comm] at hfilter ⊢
  exact hfilter

end Filters

end JoinGraph.Reference
