import JoinGraph.Network.Library
import JoinGraph.Proofs.Firsts
import Mathlib.Algebra.GroupWithZero.Nat
import Mathlib.Data.List.Nodup
import Mathlib.Data.List.Perm.Basic

/-!
Items with a key.

A list that takes in items one by one, each in the place of what has its key, ends with the keys by
first mention and, for each key, with the last item.
-/

namespace JoinGraph

section Last

variable {α κ : Type} {key : α → κ} {items : List α} {item : α}

/-- No later one of the items has the key of this one. -/
def LastBy (key : α → κ) (items : List α) (item : α) : Prop :=
  ∃ before after, items = before ++ item :: after ∧ ∀ later ∈ after, key later ≠ key item

theorem LastBy.mem (h : LastBy key items item) : item ∈ items := by
  obtain ⟨before, after, rfl, -⟩ := h
  exact List.mem_append_right before List.mem_cons_self

theorem lastBy_cons_iff {first : α} {rest : List α} :
    LastBy key (first :: rest) item ↔
      (item = first ∧ ∀ later ∈ rest, key later ≠ key item) ∨ LastBy key rest item := by
  constructor
  · rintro ⟨before, after, heq, hafter⟩
    cases before with
    | nil =>
        obtain ⟨rfl, rfl⟩ := List.cons_eq_cons.mp heq
        exact Or.inl ⟨rfl, hafter⟩
    | cons other before =>
        obtain ⟨rfl, rfl⟩ := List.cons_eq_cons.mp heq
        exact Or.inr ⟨before, after, rfl, hafter⟩
  · rintro (⟨rfl, hrest⟩ | ⟨before, after, rfl, hafter⟩)
    · exact ⟨[], rest, rfl, hrest⟩
    · exact ⟨first :: before, after, rfl, hafter⟩

end Last

section Upserts

variable {α κ : Type} [BEq κ] [LawfulBEq κ] {key : α → κ} {items start : List α} {item : α}

theorem map_upsert {β : Type} {key : β → κ} (f : α → β) (items : List α) (item : α) :
    (upsert (key ∘ f) items item).map f = upsert key (items.map f) (f item) := by
  simp only [upsert, List.map_map, Function.comp_apply]
  split
  · rw [List.map_map]
    apply List.map_congr_left
    intro other _
    exact apply_ite f _ _ _
  · rw [List.map_append, List.map_singleton]

theorem map_foldl_upsert {β : Type} {key : β → κ} (f : α → β) (items start : List α) :
    (items.foldl (upsert (key ∘ f)) start).map f =
      (items.map f).foldl (upsert key) (start.map f) := by
  induction items generalizing start with
  | nil => rfl
  | cons item rest ih => rw [List.foldl_cons, ih, map_upsert, List.map_cons, List.foldl_cons]

/-- An item is there in the end when it was there before and no item taken in has its key, or when
it is the last of those with its key. -/
theorem mem_foldl_upsert_iff : item ∈ items.foldl (upsert key) start ↔
    (item ∈ start ∧ ∀ later ∈ items, key later ≠ key item) ∨ LastBy key items item := by
  induction items generalizing start with
  | nil => simp [LastBy]
  | cons first rest ih =>
      rw [List.foldl_cons, ih, mem_upsert_iff, lastBy_cons_iff, List.forall_mem_cons]
      constructor
      · rintro (⟨rfl | ⟨hstart, hfirst⟩, hrest⟩ | hlast)
        · exact Or.inr (Or.inl ⟨rfl, hrest⟩)
        · exact Or.inl ⟨hstart, Ne.symm hfirst, hrest⟩
        · exact Or.inr (Or.inr hlast)
      · rintro (⟨hstart, hfirst, hrest⟩ | ⟨rfl, hrest⟩ | hlast)
        · exact Or.inl ⟨Or.inr ⟨hstart, Ne.symm hfirst⟩, hrest⟩
        · exact Or.inl ⟨Or.inl rfl, hrest⟩
        · exact Or.inr hlast

theorem map_key_foldl_upsert (items : List α) :
    (items.foldl (upsert key) []).map key = (items.map key).eraseDups := by
  have hstep : ∀ {state : List α} {known : List κ} (item : α), state.map key = known.eraseDups →
      (upsert key state item).map key = (known ++ [key item]).eraseDups := by
    intro state known item hstate
    rw [map_key_upsert, hstate, Firsts.eraseDups_concat]
  have hempty : [].map key = ([] : List κ).eraseDups := rfl
  have hfold := Firsts.foldl_eq_eraseDups (List.map key) hstep hempty items
  rwa [List.nil_append, ← List.map_eq_flatMap] at hfold

theorem foldl_upsert_eq_append (h : (start.map key ++ items.map key).Nodup) :
    items.foldl (upsert key) start = start ++ items := by
  induction items generalizing start with
  | nil => exact (List.append_nil start).symm
  | cons item rest ih =>
      have hnew : key item ∉ start.map key := by
        intro hmem
        exact (List.nodup_append'.mp h).2.2 hmem List.mem_cons_self
      have hadd : upsert key start item = start ++ [item] := if_neg hnew
      rw [List.map_cons, List.append_cons] at h
      rw [List.foldl_cons, hadd, ih, List.append_assoc, List.singleton_append]
      rwa [List.map_append, List.map_singleton]

theorem upsert_perm {others : List α} (h : items.Perm others) (item : α) :
    (upsert key items item).Perm (upsert key others item) := by
  rw [upsert, upsert]
  by_cases hknown : key item ∈ items.map key
  · rw [if_pos hknown, if_pos ((h.map key).mem_iff.mp hknown)]
    exact h.map _
  · rw [if_neg hknown, if_neg (mt (h.map key).mem_iff.mpr hknown)]
    exact h.append_right _

end Upserts

section Grouping

variable {α κ : Type} [BEq κ] [LawfulBEq κ]

/-- Grouping by distinct keys puts the items in another order only. -/
theorem flatMap_filter_perm {keys : List κ} (hkeys : keys.Nodup) {items : List α} {key : α → κ}
    (hcovered : ∀ item ∈ items, key item ∈ keys) :
    (keys.flatMap fun wanted => items.filter fun item => key item == wanted).Perm items := by
  induction keys generalizing items with
  | nil =>
      obtain rfl := List.eq_nil_iff_forall_not_mem.mpr fun item hitem =>
        List.not_mem_nil (hcovered item hitem)
      exact List.Perm.nil
  | cons first rest ih =>
      obtain ⟨hfirst, hrest⟩ := List.nodup_cons.mp hkeys
      have hleft : ∀ wanted ∈ rest, (items.filter fun item => key item == wanted) =
          (items.filter fun item => !(key item == first)).filter fun item =>
            key item == wanted := by
        intro wanted hwanted
        rw [List.filter_filter]
        apply List.filter_congr
        intro item _
        by_cases hkey : key item = wanted
        · have hne : ¬ key item = first := by
            rintro rfl
            exact hfirst (hkey ▸ hwanted)
          simp [hkey, hkey ▸ hne]
        · simp [hkey]
      have hothers : ∀ item ∈ items.filter fun item => !(key item == first), key item ∈ rest := by
        intro item hitem
        obtain ⟨hmem, hne⟩ := List.mem_filter.mp hitem
        rcases List.mem_cons.mp (hcovered item hmem) with heq | hrestKey
        · simp [heq] at hne
        · exact hrestKey
      rw [List.flatMap_cons, List.flatMap_congr hleft]
      exact ((ih hrest hothers).append_left _).trans (List.filter_append_perm _ items)

theorem sum_length_filter {keys : List κ} (hkeys : keys.Nodup) {items : List α} {key : α → κ}
    (hcovered : ∀ item ∈ items, key item ∈ keys) :
    (keys.map fun wanted => (items.filter fun item => key item == wanted).length).sum =
      items.length := by
  rw [← List.length_flatMap]
  exact (flatMap_filter_perm hkeys hcovered).length_eq

end Grouping

end JoinGraph
