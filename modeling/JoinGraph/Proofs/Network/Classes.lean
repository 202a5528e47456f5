import JoinGraph.Proofs.Network.Paths
import Mathlib.Data.List.Nodup
import Mathlib.Data.List.Perm.Basic

namespace JoinGraph.Store

open Relation

variable {step : List Text → List Text} {leads : Text → Text → Prop}
  (hstep : ∀ {layer : List Text} {place : Text},
    place ∈ step layer ↔ ∃ next ∈ layer, leads place next)

/-- What a place leads to is one of the places again. -/
def Closed (leads : Text → Text → Prop) (places : List Text) : Prop :=
  ∀ place ∈ places, ∀ next, leads place next → next ∈ places

include hstep

theorem spread_subset {remaining layer : List Text} : spread step remaining layer ⊆ remaining := by
  intro place hplace
  obtain ⟨goal, -, hpath⟩ := (mem_spread_iff hstep).mp hplace
  obtain ⟨next, hfirst, -⟩ := TransGen.head'_iff.mp hpath
  exact hfirst.1

theorem nodup_spread {remaining layer : List Text} (h : remaining.Nodup) :
    (spread step remaining layer).Nodup := by
  induction remaining, layer using spread.induct step with
  | case1 remaining layer reached left hshorter next ih =>
      have hunfold : spread step remaining layer = next ++ spread step left next := by
        rw [spread, dif_pos hshorter]
      rw [hunfold, List.nodup_append']
      refine ⟨h.filter _, ih (h.filter _), ?_⟩
      intro place hnext hlater
      exact (mem_unseen_iff.mp (spread_subset hstep hlater)).2 (mem_seen_iff.mp hnext).2
  | case2 remaining layer reached left hshorter =>
      rw [spread, dif_neg hshorter]
      exact List.nodup_nil

omit hstep in
theorem Closed.of_path {places : List Text} (h : Closed leads places) {place other : Text}
    (hplace : place ∈ places) (hpath : ReflTransGen leads place other) : other ∈ places := by
  induction hpath with
  | refl => exact hplace
  | tail _ hlast ih => exact h _ ih _ hlast

theorem mem_spread_of_closed {place : Text} {rest : List Text} (hnodup : (place :: rest).Nodup)
    (hclosed : Closed leads (place :: rest)) {other : Text} :
    other ∈ spread step rest [place] ↔ other ∈ rest ∧ ReflTransGen leads other place := by
  rw [mem_spread_iff hstep]
  constructor
  · rintro ⟨goal, hgoal, hpath⟩
    obtain rfl := List.mem_singleton.mp hgoal
    obtain ⟨next, hfirst, -⟩ := TransGen.head'_iff.mp hpath
    exact ⟨hfirst.1, (TransGen.mono (fun _ _ hstep => hstep.2) _ _ hpath).to_reflTransGen⟩
  · rintro ⟨hother, hpath⟩
    refine ⟨place, List.mem_singleton_self place, ?_⟩
    induction hpath using ReflTransGen.head_induction_on with
    | refl => exact absurd hother (List.nodup_cons.mp hnodup).1
    | @head other next hfirst _ ih =>
        have hlast : StepFrom rest leads other next := ⟨hother, hfirst⟩
        rcases List.mem_cons.mp (hclosed other (List.mem_cons_of_mem _ hother) next hfirst)
          with rfl | hnext
        · exact TransGen.single hlast
        · exact TransGen.head hlast (ih hnext)

theorem Closed.unseen {place : Text} {rest : List Text} (hnodup : (place :: rest).Nodup)
    (hclosed : Closed leads (place :: rest)) :
    Closed leads (unseen rest (spread step rest [place])) := by
  intro other hother next hleads
  obtain ⟨hrest, hnot⟩ := mem_unseen_iff.mp hother
  rw [mem_spread_of_closed hstep hnodup hclosed] at hnot
  have hapart : ¬ ReflTransGen leads next place := fun hpath =>
    hnot ⟨hrest, ReflTransGen.head hleads hpath⟩
  rw [mem_unseen_iff, mem_spread_of_closed hstep hnodup hclosed]
  refine ⟨?_, fun hfound => hapart hfound.2⟩
  rcases List.mem_cons.mp (hclosed other (List.mem_cons_of_mem _ hrest) next hleads)
    with rfl | hnext
  · exact absurd ReflTransGen.refl hapart
  · exact hnext

theorem flatten_groupsOf_perm {places : List Text} (hnodup : places.Nodup) :
    (groupsOf step places).flatten.Perm places := by
  induction places using groupsOf.induct step with
  | case1 =>
      rw [groupsOf]
      exact List.Perm.refl []
  | case2 place rest others ih =>
      obtain ⟨-, hrest⟩ := List.nodup_cons.mp hnodup
      have hothers : others.Perm (seen rest others) := by
        have hseen : (seen rest others).Nodup := hrest.filter _
        apply (List.perm_ext_iff_of_nodup (nodup_spread hstep hrest) hseen).mpr
        intro other
        rw [mem_seen_iff]
        exact ⟨fun hother => ⟨spread_subset hstep hother, hother⟩, And.right⟩
      have hshare : (seen rest others ++ unseen rest others).Perm rest :=
        List.filter_append_perm _ rest
      rw [groupsOf, List.flatten_cons, List.cons_append]
      exact ((hothers.append (ih (hrest.filter _))).trans hshare).cons place

theorem class_of_mem_groupsOf [Std.Symm leads] {places : List Text} (hnodup : places.Nodup)
    (hclosed : Closed leads places) {group : List Text} (hgroup : group ∈ groupsOf step places) :
    ∃ place ∈ places, ∀ other, other ∈ group ↔ ReflTransGen leads other place := by
  induction places using groupsOf.induct step with
  | case1 =>
      rw [groupsOf] at hgroup
      exact (List.not_mem_nil hgroup).elim
  | case2 place rest others ih =>
      rw [groupsOf, List.mem_cons] at hgroup
      rcases hgroup with rfl | hgroup
      · refine ⟨place, List.mem_cons_self, ?_⟩
        intro other
        have hfound : other ∈ others ↔ other ∈ rest ∧ ReflTransGen leads other place :=
          mem_spread_of_closed hstep hnodup hclosed
        rw [List.mem_cons, hfound]
        constructor
        · rintro (rfl | ⟨-, hpath⟩)
          · exact ReflTransGen.refl
          · exact hpath
        · intro hpath
          have hback : ReflTransGen leads place other := symm hpath
          rcases List.mem_cons.mp (hclosed.of_path List.mem_cons_self hback) with heq | hother
          · exact Or.inl heq
          · exact Or.inr ⟨hother, hpath⟩
      · obtain ⟨-, hrest⟩ := List.nodup_cons.mp hnodup
        obtain ⟨first, hfirst, hclass⟩ := ih (hrest.filter _) (hclosed.unseen hstep hnodup) hgroup
        exact ⟨first, List.mem_cons_of_mem _ (mem_unseen_iff.mp hfirst).1, hclass⟩

end JoinGraph.Store
