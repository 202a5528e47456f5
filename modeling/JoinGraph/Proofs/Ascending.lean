import JoinGraph.Text.Basic
import Mathlib.Data.Char
import Mathlib.Data.List.Lex
import Mathlib.Data.List.Nodup
import Mathlib.Data.List.Perm.Basic

namespace JoinGraph

namespace Ascending

variable {α : Type} {before : α → α → Prop} [IsStrictTotalOrder α before]

theorem eq_of_mem_iff {items others : List α} (hitems : items.Pairwise before)
    (hothers : others.Pairwise before) (hmem : ∀ item, item ∈ items ↔ item ∈ others) :
    items = others := by
  have hperm : items.Perm others :=
    (List.perm_ext_iff_of_nodup hitems.nodup hothers.nodup).mpr hmem
  apply hperm.eq_of_pairwise _ hitems hothers
  intro a b _ _ hab hba
  exact absurd hba (asymm hab)

theorem pairwise_mergeSort [DecidableRel before] {items : List α} (h : items.Nodup) :
    (items.mergeSort fun a b => !decide (before b a)).Pairwise before := by
  have hsorted : (items.mergeSort fun a b => !decide (before b a)).Pairwise
      fun a b => (!decide (before b a)) = true := by
    apply List.pairwise_mergeSort
    · intro a b c hab hbc
      simp only [Bool.not_eq_true', decide_eq_false_iff_not] at hab hbc ⊢
      exact IsOrderConnected.neg_trans hbc hab
    · intro a b
      simp only [Bool.or_eq_true, Bool.not_eq_true', decide_eq_false_iff_not]
      by_cases hba : before b a
      · exact Or.inr (asymm hba)
      · exact Or.inl hba
  have hnodup : (items.mergeSort fun a b => !decide (before b a)).Nodup :=
    (List.mergeSort_perm _ _).nodup_iff.mpr h
  apply (hsorted.and hnodup).imp
  intro a b ⟨hle, hne⟩
  simp only [Bool.not_eq_true', decide_eq_false_iff_not] at hle
  rcases trichotomous_of before a b with hab | heq | hba
  · exact hab
  · exact absurd heq hne
  · exact absurd hba hle

end Ascending

namespace Text

theorem sort_perm (texts : List Text) : (sort texts).Perm texts :=
  List.mergeSort_perm texts le

theorem pairwise_sort {texts : List Text} (h : texts.Nodup) : (sort texts).Pairwise (· < ·) :=
  Ascending.pairwise_mergeSort h

end Text

end JoinGraph
