import JoinGraph.Comment
import JoinGraph.Proofs.Text.Part
import Mathlib.Data.List.Forall2

namespace JoinGraph.Comment

open Text

/-- A character of a text and what may stand in its place once the comments are masked. -/
def Masked (written masked : Char) : Prop :=
  masked = written ∨ masked = ' '

theorem masked_maskBlocks (inside : Bool) (text : Text) :
    List.Forall₂ Masked text (maskBlocks inside text) := by
  fun_induction maskBlocks inside text with
  | case1 => exact .nil
  | case2 rest ih => exact .cons (Or.inr rfl) (.cons (Or.inr rfl) ih)
  | case3 c rest _ ih => exact .cons (Or.inl rfl) ih
  | case4 rest ih => exact .cons (Or.inr rfl) (.cons (Or.inr rfl) ih)
  | case5 c rest _ ih => exact .cons (Or.inr rfl) ih

theorem masked_maskLines (inside : Bool) (text : Text) :
    List.Forall₂ Masked text (maskLines inside text) := by
  fun_induction maskLines inside text with
  | case1 => exact .nil
  | case2 _ rest ih => exact .cons (Or.inl rfl) ih
  | case3 rest ih => exact .cons (Or.inr rfl) (.cons (Or.inr rfl) ih)
  | case4 c rest _ _ ih => exact .cons (Or.inl rfl) ih
  | case5 c rest _ ih => exact .cons (Or.inr rfl) ih

theorem masked_trans {first second third : Text} (hfirst : List.Forall₂ Masked first second)
    (hsecond : List.Forall₂ Masked second third) : List.Forall₂ Masked first third := by
  induction hfirst generalizing third with
  | nil => exact hsecond
  | cons hhead _ ih =>
      cases hsecond with
      | cons hnext hrest =>
          refine .cons ?_ (ih hrest)
          rcases hnext with rfl | rfl
          · exact hhead
          · exact Or.inr rfl

theorem masked_mask (text : Text) : List.Forall₂ Masked text (mask text) :=
  masked_trans (masked_maskBlocks false text) (masked_maskLines false _)

theorem eq_of_masked {written masked : Text} (h : List.Forall₂ Masked written masked)
    (hblank : ' ' ∉ masked) : written = masked := by
  induction h with
  | nil => rfl
  | cons hhead _ ih =>
      rw [List.mem_cons, not_or] at hblank
      rcases hhead with rfl | rfl
      · rw [ih hblank.2]
      · exact absurd rfl hblank.1

theorem partAt_of_partAt_mask {part text : Text} {start : Nat}
    (h : PartAt part (mask text) start) (hblank : ' ' ∉ part) : PartAt part text start := by
  obtain ⟨before, after, hlength, hmask⟩ := h
  have hall : List.Forall₂ Masked text (before ++ (part ++ after)) := by
    rw [← List.append_assoc, ← hmask]
    exact masked_mask text
  have hrest := List.forall₂_drop_append text before (part ++ after) hall
  have hpart := List.forall₂_take_append _ part after hrest
  refine ⟨text.take before.length, (text.drop before.length).drop part.length, ?_, ?_⟩
  · have hsame := hall.length_eq
    rw [List.length_append] at hsame
    rw [List.length_take]
    omega
  · calc
      text = text.take before.length ++ text.drop before.length :=
        (List.take_append_drop _ _).symm
      _ = text.take before.length ++ ((text.drop before.length).take part.length ++
            (text.drop before.length).drop part.length) := by
        rw [List.take_append_drop part.length]
      _ = _ := by
        rw [eq_of_masked hpart hblank, List.append_assoc]

end JoinGraph.Comment
