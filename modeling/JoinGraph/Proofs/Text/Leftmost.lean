import JoinGraph.Proofs.Text.Occurrences
import Mathlib.Data.List.Nodup

namespace JoinGraph.Text

variable {α : Type}

/-- `found` are, in text order and without overlap, the occurrences that do not begin inside an
earlier one of `found`. What occurs at a place is told by `stands`, how far it goes by `size`. -/
structure Leftmost (stands : Nat → α → Prop) (size : α → Nat) (found : List (Nat × α)) :
    Prop where
  stands_of_mem : ∀ place value, (place, value) ∈ found → stands place value
  apart : found.Pairwise fun first second => first.1 + size first.2 ≤ second.1
  mem_or_inside : ∀ place value, stands place value → (place, value) ∈ found ∨
    ∃ earlier ∈ found, earlier.1 < place ∧ place < earlier.1 + size earlier.2

namespace Leftmost

variable {stands : Nat → α → Prop} {size : α → Nat} {first second : List (Nat × α)}

theorem not_inside (h : Leftmost stands size first) {place : Nat} {value : α}
    {earlier : Nat × α} (hmem : (place, value) ∈ first) (hearlier : earlier ∈ first)
    (hlt : earlier.1 < place) : earlier.1 + size earlier.2 ≤ place := by
  have hbehind : first.Pairwise fun one other =>
      one.1 < other.1 → one.1 + size one.2 ≤ other.1 := by
    refine h.apart.imp ?_
    intro one other hle _
    exact hle
  have hfront : first.Pairwise (flip fun one other =>
      one.1 < other.1 → one.1 + size one.2 ≤ other.1) := by
    refine h.apart.imp ?_
    intro one other hle hless
    omega
  exact hbehind.forall_of_forall_of_flip (fun _ _ hless => absurd hless (Nat.lt_irrefl _)) hfront
    hearlier hmem hlt

theorem mem_of_mem (hfirst : Leftmost stands size first) (hsecond : Leftmost stands size second)
    {place : Nat} {value : α} (h : (place, value) ∈ first) : (place, value) ∈ second := by
  -- An occurrence that only one list takes lies inside an earlier one that only the other takes.
  induction place using Nat.strongRecOn generalizing value first second with
  | ind place ih =>
      rcases hsecond.mem_or_inside place value (hfirst.stands_of_mem place value h) with
        hmem | ⟨⟨earlier, other⟩, hearlier, hlt, hinside⟩
      · exact hmem
      · have htaken : (earlier, other) ∈ first := ih earlier hlt hsecond hfirst hearlier
        have hle := hfirst.not_inside h htaken hlt
        omega

theorem eq (hfirst : Leftmost stands size first) (hsecond : Leftmost stands size second)
    (hsize : ∀ place value, stands place value → 0 < size value) : first = second := by
  have hordered : ∀ {found}, Leftmost stands size found →
      found.Pairwise fun one other => one.1 < other.1 := by
    intro found hfound
    refine hfound.apart.imp_of_mem ?_
    intro one other hone _ hle
    have hpos := hsize one.1 one.2 (hfound.stands_of_mem one.1 one.2 hone)
    omega
  have hnodup : ∀ {found}, Leftmost stands size found → found.Nodup := by
    intro found hfound
    refine (hordered hfound).imp ?_
    rintro one other hlt rfl
    exact Nat.lt_irrefl _ hlt
  have hperm : first.Perm second := by
    rw [List.perm_ext_iff_of_nodup (hnodup hfirst) (hnodup hsecond)]
    rintro ⟨place, value⟩
    exact ⟨hfirst.mem_of_mem hsecond, hsecond.mem_of_mem hfirst⟩
  refine hperm.eq_of_pairwise ?_ (hordered hfirst) (hordered hsecond)
  intro one other _ _ hlt hgt
  exact absurd hlt (Nat.not_lt.mpr (Nat.le_of_lt hgt))

end Leftmost

section Search

variable {isWord : Char → Bool} {recognise : Text → Option (α × Nat)}

theorem FoundAt.tail {c : Char} {rest : Text} {inWord : Bool} {skip distance : Nat} {found : α}
    (h : FoundAt isWord recognise inWord skip (c :: rest) found (distance + 1)) (next : Nat)
    (hnext : next ≤ distance) : FoundAt isWord recognise (isWord c) next rest found distance := by
  refine ⟨hnext, Nat.lt_of_succ_lt_succ h.lt_length, h.recognised, ?_, ?_⟩
  · rintro rfl
    exact h.outside 0 c rfl rfl
  · rintro before d rfl hd
    exact h.outside (before + 1) d rfl hd

/-- A search passes over an occurrence only inside one that it has taken. -/
theorem mem_or_inside_occurrencesFrom {size : α → Nat}
    (hsize : ∀ text found length, recognise text = some (found, length) → length = size found)
    (start : Nat) {inWord : Bool} {skip : Nat} {text : Text} {found : α} {distance : Nat}
    (h : FoundAt isWord recognise inWord skip text found distance) :
    (start + distance, found) ∈ occurrencesFrom isWord recognise start inWord skip text ∨
      ∃ earlier ∈ occurrencesFrom isWord recognise start inWord skip text,
        earlier.1 < start + distance ∧ start + distance < earlier.1 + size earlier.2 := by
  induction text generalizing start inWord skip distance with
  | nil => exact absurd h.lt_length (Nat.not_lt_zero distance)
  | cons c rest ih =>
      cases skip with
      | succ skip =>
          obtain ⟨further, rfl⟩ := Nat.exists_eq_succ_of_ne_zero
            (Nat.ne_of_gt (Nat.lt_of_lt_of_le (Nat.succ_pos skip) h.skip_le))
          have hplace : start + (further + 1) = start + 1 + further := by omega
          rw [Nat.succ_eq_add_one, hplace]
          exact ih (start + 1) (h.tail skip (Nat.le_of_succ_le_succ h.skip_le))
      | zero =>
          simp only [occurrencesFrom]
          cases distance with
          | zero =>
              obtain ⟨length, hlength⟩ := h.recognised
              rw [List.drop_zero] at hlength
              rw [h.front rfl, hlength]
              exact Or.inl List.mem_cons_self
          | succ further =>
              have hplace : start + (further + 1) = start + 1 + further := by omega
              rw [hplace]
              split
              · next value length hvalue =>
                  have hwidth : length = size value := by
                    split at hvalue
                    · cases hvalue
                    · exact hsize _ _ _ hvalue
                  by_cases hinside : further + 1 < length
                  · refine Or.inr ⟨(start, value), List.mem_cons_self, ?_, ?_⟩
                    · simp only
                      omega
                    · simp only
                      omega
                  · rcases ih (start + 1) (h.tail (length - 1) (by omega)) with
                      hmem | ⟨earlier, hearlier, hbounds⟩
                    · exact Or.inl (List.mem_cons_of_mem _ hmem)
                    · exact Or.inr ⟨earlier, List.mem_cons_of_mem _ hearlier, hbounds⟩
              · exact ih (start + 1) (h.tail 0 (Nat.zero_le further))

/-- `begins` holds of the text from an offset on, and that offset is outside words. -/
def BeginsAt (isWord : Char → Bool) (begins : Text → Prop) (text : Text) (place : Nat) : Prop :=
  ∃ before rest, before.length = place ∧ text = before ++ rest ∧
    (∀ c ∈ before.getLast?, isWord c = false) ∧ begins rest

variable {read : Text → Option α}

theorem foundAt_iff_beginsAt (size : α → Nat) (hread : read [] = none) {text : Text} {place : Nat}
    {found : α} :
    FoundAt isWord (fun rest => (read rest).map fun value => (value, size value)) false 0 text found
        place ↔
      BeginsAt isWord (fun rest => read rest = some found) text place := by
  constructor
  · intro h
    obtain ⟨length, hrecognised⟩ := h.recognised
    obtain ⟨value, hvalue, heq⟩ := Option.map_eq_some_iff.mp hrecognised
    obtain ⟨rfl, -⟩ := Prod.mk.inj heq
    have hlength : (text.take place).length = place :=
      List.length_take_of_le (Nat.le_of_lt h.lt_length)
    refine ⟨text.take place, text.drop place, hlength, (List.take_append_drop _ _).symm, ?_, hvalue⟩
    intro c hc
    rw [List.getLast?_eq_getElem?, hlength] at hc
    cases place with
    | zero => simp at hc
    | succ before =>
        rw [Nat.add_sub_cancel, List.getElem?_take_of_lt (Nat.lt_succ_self before)] at hc
        exact h.outside before c rfl hc
  · rintro ⟨before, rest, rfl, rfl, houtside, hfound⟩
    have hrest : 0 < rest.length := by
      apply List.length_pos_iff.mpr
      rintro rfl
      rw [hread] at hfound
      cases hfound
    refine ⟨Nat.zero_le _, ?_, ⟨size found, ?_⟩, fun _ => rfl, ?_⟩
    · rw [List.length_append]
      omega
    · rw [List.drop_left, hfound, Option.map_some]
    · intro last c hlast hc
      apply houtside c
      rw [List.getElem?_append_left (by omega)] at hc
      rw [List.getLast?_eq_getElem?, hlast, Nat.add_sub_cancel]
      exact hc

theorem leftmost_occurrences (isWord : Char → Bool) (size : α → Nat) (hread : read [] = none)
    (text : Text) :
    Leftmost (fun place found => BeginsAt isWord (fun rest => read rest = some found) text place)
      size (occurrences isWord (fun rest => (read rest).map fun value => (value, size value))
        text) := by
  have hsize : ∀ (text : Text) (found : α) (length : Nat),
      (read text).map (fun value => (value, size value)) = some (found, length) →
        length = size found := by
    intro text found length h
    obtain ⟨value, -, heq⟩ := Option.map_eq_some_iff.mp h
    obtain ⟨rfl, rfl⟩ := Prod.mk.inj heq
    rfl
  refine ⟨?_, pairwise_occurrences hsize text, ?_⟩
  · intro place found hmem
    exact (foundAt_iff_beginsAt size hread).mp (foundAt_of_mem_occurrences hmem)
  · intro place found hbegins
    have hcovered := mem_or_inside_occurrencesFrom hsize 0
      ((foundAt_iff_beginsAt size hread).mpr hbegins)
    rw [Nat.zero_add] at hcovered
    exact hcovered

end Search

end JoinGraph.Text
