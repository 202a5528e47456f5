import Mathlib.Data.List.Forall2
import Mathlib.Data.List.Induction

/-!
The first elements of a list, up to a relation between a later element and an earlier one.

`List.eraseDupsBy` keeps them. Here it meets a collection that grows at its end: an element is added
unless one of those kept says the same, and a search among those kept finds what a search through
the whole list finds.
-/

namespace JoinGraph.Firsts

variable {α : Type} {repeats : α → α → Bool}

theorem loop_concat (items kept : List α) (item : α) :
    List.eraseDupsBy.loop repeats (items ++ [item]) kept =
      if (List.eraseDupsBy.loop repeats items kept).any (repeats item) then
        List.eraseDupsBy.loop repeats items kept
      else List.eraseDupsBy.loop repeats items kept ++ [item] := by
  induction items generalizing kept with
  | nil =>
      simp only [List.nil_append, List.eraseDupsBy.loop, List.any_reverse]
      rcases Bool.eq_false_or_eq_true (kept.any (repeats item)) with hany | hany <;> simp [hany]
  | cons first rest ih =>
      simp only [List.cons_append, List.eraseDupsBy.loop]
      rcases Bool.eq_false_or_eq_true (kept.any (repeats first)) with hany | hany <;>
        simp only [hany] <;> exact ih _

theorem eraseDupsBy_concat (items : List α) (item : α) :
    (items ++ [item]).eraseDupsBy repeats =
      if (items.eraseDupsBy repeats).any (repeats item) then items.eraseDupsBy repeats
      else items.eraseDupsBy repeats ++ [item] :=
  loop_concat items [] item

theorem eraseDupsBy_sublist (items : List α) : (items.eraseDupsBy repeats).Sublist items := by
  induction items using List.reverseRecOn with
  | nil => exact List.Sublist.refl _
  | append_singleton items item ih =>
      rw [eraseDupsBy_concat]
      split
      · exact ih.trans (List.sublist_append_left items [item])
      · exact ih.append (List.Sublist.refl _)

theorem pairwise_eraseDupsBy (items : List α) : (items.eraseDupsBy repeats).Pairwise
    fun earlier later => repeats later earlier = false := by
  induction items using List.reverseRecOn with
  | nil => exact List.Pairwise.nil
  | append_singleton items item ih =>
      rw [eraseDupsBy_concat]
      split
      · exact ih
      · next hnew =>
          refine List.pairwise_append.mpr ⟨ih, List.pairwise_singleton _ _, ?_⟩
          intro earlier hearlier later hlater
          obtain rfl := List.mem_singleton.mp hlater
          rw [Bool.not_eq_true, List.any_eq_false] at hnew
          simpa using hnew earlier hearlier

theorem nodup_eraseDups [BEq α] [LawfulBEq α] (items : List α) : items.eraseDups.Nodup := by
  apply (pairwise_eraseDupsBy items).imp
  intro earlier later hdiffer heq
  rw [heq, beq_self_eq_true] at hdiffer
  contradiction

theorem eraseDups_concat [BEq α] [LawfulBEq α] (items : List α) (item : α) :
    (items ++ [item]).eraseDups =
      if item ∈ items.eraseDups then items.eraseDups else items.eraseDups ++ [item] := by
  have hany : (items.eraseDups.any fun other => item == other) = true ↔
      item ∈ items.eraseDups := by
    rw [List.any_beq, List.elem_iff]
  simp only [← hany]
  exact eraseDupsBy_concat items item

/-- What a fold collects without repetitions, step by step, is what its items bring. -/
theorem foldl_eq_eraseDups [BEq α] {σ β : Type} {step : σ → β → σ} (read : σ → List α)
    {brings : β → List α}
    (hstep : ∀ {state : σ} {known : List α} (item : β), read state = known.eraseDups →
      read (step state item) = (known ++ brings item).eraseDups)
    {state : σ} {known : List α} (hstate : read state = known.eraseDups) (items : List β) :
    read (items.foldl step state) = (known ++ items.flatMap brings).eraseDups := by
  induction items generalizing state known with
  | nil => simpa using hstate
  | cons item rest ih =>
      rw [List.foldl_cons, ih (hstep item hstate), List.flatMap_cons, List.append_assoc]

theorem find?_eraseDupsBy {p : α → Bool}
    (hrepeats : ∀ later earlier, repeats later earlier = true → p later = p earlier)
    (items : List α) : (items.eraseDupsBy repeats).find? p = items.find? p := by
  induction items using List.reverseRecOn with
  | nil => rfl
  | append_singleton items item ih =>
      rw [eraseDupsBy_concat, List.find?_append, ← ih]
      split
      · next hany =>
          obtain ⟨earlier, hearlier, hrepeated⟩ := List.any_eq_true.mp hany
          cases hfound : (items.eraseDupsBy repeats).find? p with
          | some found => rfl
          | none =>
              have hnot := List.find?_eq_none.mp hfound earlier hearlier
              rw [← hrepeats item earlier hrepeated] at hnot
              simp [hnot]
      · rw [List.find?_append]

/-- Where all that answer a question say the same, at most one of them is kept: the first. -/
theorem filter_eraseDupsBy {p : α → Bool}
    (hrepeats : ∀ later earlier, repeats later earlier = true → p later = p earlier)
    (hsame : ∀ later earlier, p later = true → p earlier = true → repeats later earlier = true)
    (items : List α) : (items.eraseDupsBy repeats).filter p = (items.find? p).toList := by
  rw [← find?_eraseDupsBy hrepeats items]
  have hpairwise : (items.eraseDupsBy repeats).Pairwise
      fun earlier later => repeats later earlier = false := pairwise_eraseDupsBy items
  generalize items.eraseDupsBy repeats = kept at hpairwise ⊢
  induction kept with
  | nil => rfl
  | cons first rest ih =>
      obtain ⟨hfirst, hrest⟩ := List.pairwise_cons.mp hpairwise
      cases hp : p first with
      | false =>
          rw [List.filter_cons_of_neg (by simp [hp]), List.find?_cons_of_neg (by simp [hp])]
          exact ih hrest
      | true =>
          have hnone : rest.filter p = [] := by
            rw [List.filter_eq_nil_iff]
            intro later hlater hpLater
            have hnot := hfirst later hlater
            rw [hsame later first hpLater hp] at hnot
            contradiction
          rw [List.filter_cons_of_pos hp, List.find?_cons_of_pos hp, hnone]
          rfl

theorem exists_mem_eraseDupsBy_iff {p : α → Bool}
    (hrepeats : ∀ later earlier, repeats later earlier = true → p later = p earlier)
    {items : List α} :
    (∃ item ∈ items.eraseDupsBy repeats, p item = true) ↔ ∃ item ∈ items, p item = true := by
  rw [← List.find?_isSome, ← List.find?_isSome, find?_eraseDupsBy hrepeats]

section Pointwise

variable {β : Type} {others : β → β → Bool} {R : α → β → Prop}
  (hrepeats : ∀ later earlier other another, R later other → R earlier another →
    repeats later earlier = others other another)

include hrepeats

theorem any_eq_of_forall₂ {kept : List α} {keptOthers : List β}
    (h : List.Forall₂ R kept keptOthers) {later : α} {other : β} (hlater : R later other) :
    kept.any (repeats later) = keptOthers.any (others other) := by
  induction h with
  | nil => rfl
  | @cons earlier another rest more hfirst _ ih =>
      rw [List.any_cons, List.any_cons, hrepeats later earlier other another hlater hfirst, ih]

theorem forall₂_loop {items : List α} {otherItems : List β}
    (h : List.Forall₂ R items otherItems) {kept : List α} {keptOthers : List β}
    (hkept : List.Forall₂ R kept keptOthers) :
    List.Forall₂ R (List.eraseDupsBy.loop repeats items kept)
      (List.eraseDupsBy.loop others otherItems keptOthers) := by
  induction h generalizing kept keptOthers with
  | nil => exact List.rel_reverse hkept
  | cons hfirst _ ih =>
      unfold List.eraseDupsBy.loop
      rw [any_eq_of_forall₂ hrepeats hkept hfirst]
      split
      · exact ih hkept
      · exact ih (.cons hfirst hkept)

theorem forall₂_eraseDupsBy {items : List α} {otherItems : List β}
    (h : List.Forall₂ R items otherItems) :
    List.Forall₂ R (items.eraseDupsBy repeats) (otherItems.eraseDupsBy others) :=
  forall₂_loop hrepeats h .nil

end Pointwise

end JoinGraph.Firsts
