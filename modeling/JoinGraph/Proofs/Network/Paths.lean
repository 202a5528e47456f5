import JoinGraph.Network.Reach
import Mathlib.Logic.Relation

namespace JoinGraph.Store

open Relation

/-- A step of a path, from one of the places. -/
def StepFrom (places : List Text) (leads : Text → Text → Prop) (place next : Text) : Prop :=
  place ∈ places ∧ leads place next

theorem StepFrom.mono {places others : List Text} (h : places ⊆ others)
    {leads : Text → Text → Prop} {place next : Text}
    (hpath : TransGen (StepFrom places leads) place next) :
    TransGen (StepFrom others leads) place next :=
  TransGen.mono (fun _ _ hstep => ⟨h hstep.1, hstep.2⟩) _ _ hpath

variable {step : List Text → List Text} {leads : Text → Text → Prop}
  (hstep : ∀ {layer : List Text} {place : Text},
    place ∈ step layer ↔ ∃ next ∈ layer, leads place next)

include hstep

/-- A path into a layer meets the layer in front of it, and up to there it runs through places that
are not reached yet. -/
theorem exists_seen_of_path {remaining layer : List Text} {place goal : Text}
    (hpath : TransGen (StepFrom remaining leads) place goal) (hgoal : goal ∈ layer) :
    place ∈ seen remaining (step layer) ∨ ∃ next ∈ seen remaining (step layer),
      TransGen (StepFrom (unseen remaining (step layer)) leads) place next := by
  induction hpath using TransGen.head_induction_on with
  | single hlast =>
      obtain ⟨hplace, hleads⟩ := hlast
      exact Or.inl (mem_seen_iff.mpr ⟨hplace, hstep.mpr ⟨goal, hgoal, hleads⟩⟩)
  | @head place second hfirst hrest ih =>
      obtain ⟨hplace, hleads⟩ := hfirst
      by_cases hreached : place ∈ step layer
      · exact Or.inl (mem_seen_iff.mpr ⟨hplace, hreached⟩)
      · have hleft : StepFrom (unseen remaining (step layer)) leads place second :=
          ⟨mem_unseen_iff.mpr ⟨hplace, hreached⟩, hleads⟩
        right
        rcases ih with hsecond | ⟨next, hnext, hpath⟩
        · exact ⟨second, hsecond, TransGen.single hleft⟩
        · exact ⟨next, hnext, TransGen.head hleft hpath⟩

theorem mem_spread_iff {remaining layer : List Text} {place : Text} :
    place ∈ spread step remaining layer ↔
      ∃ goal ∈ layer, TransGen (StepFrom remaining leads) place goal := by
  induction remaining, layer using spread.induct step with
  | case1 remaining layer reached left hshorter next ih =>
      have hunfold : spread step remaining layer = next ++ spread step left next := by
        rw [spread, dif_pos hshorter]
      rw [hunfold, List.mem_append, ih]
      constructor
      · rintro (hnext | ⟨middle, hmiddle, hpath⟩)
        · obtain ⟨hplace, hreached⟩ := mem_seen_iff.mp hnext
          obtain ⟨goal, hgoal, hleads⟩ := hstep.mp hreached
          exact ⟨goal, hgoal, TransGen.single ⟨hplace, hleads⟩⟩
        · obtain ⟨hplace, hreached⟩ := mem_seen_iff.mp hmiddle
          obtain ⟨goal, hgoal, hleads⟩ := hstep.mp hreached
          have hleft : left ⊆ remaining := List.filter_sublist.subset
          exact ⟨goal, hgoal, TransGen.tail (StepFrom.mono hleft hpath) ⟨hplace, hleads⟩⟩
      · rintro ⟨goal, hgoal, hpath⟩
        exact exists_seen_of_path hstep hpath hgoal
  | case2 remaining layer reached left hshorter =>
      have hunfold : spread step remaining layer = [] := by
        rw [spread, dif_neg hshorter]
      have hunseen : ∀ other ∈ remaining, other ∉ reached := by
        have hall := List.length_filter_eq_length_iff.mp
          (Nat.le_antisymm (List.length_filter_le _ _) (Nat.le_of_not_lt hshorter))
        intro other hother
        simpa using hall other hother
      rw [hunfold]
      refine ⟨fun hmem => (List.not_mem_nil hmem).elim, ?_⟩
      rintro ⟨goal, hgoal, hpath⟩
      rcases exists_seen_of_path hstep hpath hgoal with hseen | ⟨next, hseen, -⟩
      · exact absurd (mem_seen_iff.mp hseen).2 (hunseen _ (mem_seen_iff.mp hseen).1)
      · exact absurd (mem_seen_iff.mp hseen).2 (hunseen _ (mem_seen_iff.mp hseen).1)

end JoinGraph.Store
