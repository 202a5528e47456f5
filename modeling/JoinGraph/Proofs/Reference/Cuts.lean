import JoinGraph.Proofs.Reference.Places
import Mathlib.Data.List.Chain

namespace JoinGraph.Reference

open Text Word

/-- What is left of a reading when reserved words are no table names. -/
def settled? (keywords : List Text) (reading : Reading) : Option Reading :=
  if reading.table.upper ∈ keywords then none else some reading

def recognise? (keywords : List Text) (rest : Text) : Option (Option Reading × Nat) :=
  (read? rest).map fun reading => (settled? keywords reading, reading.length)

theorem findAll_eq_occurrences (keywords : List Text) (text : Text) :
    findAll keywords text =
      (text.occurrences isFolded (recognise? keywords)).filterMap fun found =>
        found.2.map (ofReading keywords found.1) := by
  have hrecognise : recognise? keywords = fun rest =>
      ((read? rest).map fun reading => (reading, reading.length)).map fun found =>
        (settled? keywords found.1, found.2) := by
    funext rest
    rw [Option.map_map]
    rfl
  rw [hrecognise, occurrences_map, List.filterMap_map]
  apply List.filterMap_congr
  rintro ⟨place, reading⟩ -
  simp only [Function.comp_apply, settled?]
  split <;> rfl

section Append

variable {keywords : List Text} {reserved : Text} {c : Char}

theorem recognise?_append (hreserved : Apart reserved)
    (hkeyword : isBlank c = true → ∀ name : Text, name.map fold = reserved → name.upper ∈ keywords)
    {text : Text} (h : Stopped reserved c text) (after : Text) :
    recognise? keywords (text ++ c :: after) = recognise? keywords text := by
  rcases read?_append_stopped hreserved h after with
    hsame | ⟨hblank, reading, follower, hspelled, hread, hother⟩
  · rw [recognise?, recognise?, hsame]
  · have hmem := hkeyword hblank reading.table hspelled
    simp only [recognise?, hread, hother, Option.map_some, settled?, if_pos hmem]
    rfl

theorem findAll_append_stopped (hreserved : Apart reserved)
    (hkeyword : isBlank c = true → ∀ name : Text, name.map fold = reserved → name.upper ∈ keywords)
    (hc : isFolded c = false) {text : Text}
    (h : ∀ front rest, text = front ++ rest → rest ≠ [] →
      (∀ d ∈ front.getLast?, isFolded d = false) → Stopped reserved c rest) (after : Text) :
    findAll keywords (text ++ c :: after) =
      findAll keywords text ++
        (findAll keywords after).map fun reference => reference.shiftRight (text.length + 1) := by
  have hcut : (text ++ c :: after).occurrences isFolded (recognise? keywords) =
      text.occurrences isFolded (recognise? keywords) ++
        (after.occurrences isFolded (recognise? keywords)).map fun (place, found) =>
          (place + (text.length + 1), found) := by
    apply occurrences_append hc
    · rw [recognise?, read?_of_not_folded hc, Option.map_none]
    · intro rest found length hfound
      obtain ⟨reading, hread, heq⟩ := Option.map_eq_some_iff.mp hfound
      obtain ⟨-, rfl⟩ := Prod.mk.inj heq
      obtain ⟨behind, hbegins⟩ := begins_of_read? hread
      exact hbegins.length_le
    · intro front rest htext hne hfront
      exact recognise?_append hreserved hkeyword (h front rest htext hne hfront) after
  rw [findAll_eq_occurrences, hcut, List.filterMap_append, List.filterMap_map,
    ← findAll_eq_occurrences, findAll_eq_occurrences keywords after, List.map_filterMap]
  congr 2
  funext found
  cases hfound : found.2 with
  | none => simp [hfound]
  | some reading => simp [hfound, ofReading_add]

theorem findAll_append (hc : IsBarrier c) (keywords : List Text) (text after : Text) :
    findAll keywords (text ++ c :: after) =
      findAll keywords text ++
        (findAll keywords after).map fun reference => reference.shiftRight (text.length + 1) := by
  apply findAll_append_stopped apart_nil
  · rw [hc.not_blank]
    intro hblank
    contradiction
  · exact hc.not_folded
  · intro front rest _ _ _
    exact hc.stopped rest

theorem findAll_append_reserved (hreserved : Apart reserved)
    (hkeyword : ∀ name : Text, name.map fold = reserved → name.upper ∈ keywords)
    (hc : isBlank c = true) {text : Text} (h : EndsIn reserved text) (after : Text) :
    findAll keywords (text ++ c :: after) =
      findAll keywords text ++
        (findAll keywords after).map fun reference => reference.shiftRight (text.length + 1) := by
  apply findAll_append_stopped hreserved (fun _ => hkeyword) (isFolded_eq_false_of_isBlank hc)
  rintro front rest rfl hne hfront
  refine ⟨isDotted_eq_false_of_isBlank hc, ?_⟩
  intro _
  rcases h.of_append with hrest | ⟨before, more, rfl, -, hspelled, hbefore⟩
  · exact hrest
  · -- The search starts outside words, so the rest does not start inside the reserved word.
    have hnil : more = [] := by
      by_contra hmore
      have hlast := List.getLast?_eq_some_getLast hmore
      have hfolded := isFolded_of_map_fold hspelled hreserved.plain _
        (List.mem_append_left rest (List.getLast_mem hmore))
      rw [hfront _ (by rw [List.getLast?_append, hlast]; rfl)] at hfolded
      contradiction
    subst hnil
    exact endsIn_of_map_fold hne hspelled

end Append

theorem findAll_blanks_append {blanks : Text} (hblanks : ∀ c ∈ blanks, isBlank c = true)
    (keywords : List Text) (text : Text) :
    findAll keywords (blanks ++ text) =
      (findAll keywords text).map fun reference => reference.shiftRight blanks.length := by
  have hidle : ∀ c ∈ blanks, isFolded c = false ∧
      ∀ rest, ((read? (c :: rest)).map fun found => (found, found.length)) = none := by
    intro c hc
    refine ⟨isFolded_eq_false_of_isBlank (hblanks c hc), ?_⟩
    intro rest
    rw [read?_of_isBlank (hblanks c hc), Option.map_none]
  rw [findAll, readings, occurrences_append_of_idle hidle]
  exact filterMap_readings_add keywords text blanks.length

theorem findAll_eq_nil {text : Text}
    (h : text.IsChain fun c d => isBlank c = true → isFolded d = false) (keywords : List Text) :
    findAll keywords text = [] := by
  apply List.eq_nil_iff_forall_not_mem.mpr
  intro reference hreference
  obtain ⟨place, reading, hmem, -⟩ := mem_findAll hreference
  obtain ⟨-, after, hbegins⟩ := begins_of_mem_readings hmem
  obtain ⟨c, rest, htable, hfolded⟩ := hbegins.table_eq_cons
  obtain ⟨front, blank, hgap⟩ := (List.eq_nil_or_concat' reading.gap).resolve_left
    hbegins.gap_ne_nil
  have hblank : isBlank blank = true := by
    apply hbegins.gap_blank
    rw [hgap]
    exact List.mem_append_right front List.mem_cons_self
  have hcut : text.drop place = reading.phrase ++ front ++ blank :: c :: (rest ++ after) := by
    rw [hbegins.text_eq, hgap, htable]
    simp
  have hchain := h.drop place
  rw [hcut, List.isChain_append_cons_cons] at hchain
  rw [hchain.2.1 hblank] at hfolded
  contradiction

theorem findAll_dotted_append {name gap : Text} (hname : ∀ c ∈ name, isDotted c = true)
    (hgap : ∀ c ∈ gap, isBlank c = true) (keywords : List Text) :
    findAll keywords (name ++ gap) = [] := by
  apply findAll_eq_nil
  apply List.Pairwise.isChain
  refine List.pairwise_append.mpr ⟨?_, ?_, ?_⟩
  · apply List.pairwise_of_forall_mem_list
    intro c hc d _ hblank
    rw [isBlank_eq_false_of_isDotted (hname c hc)] at hblank
    contradiction
  · apply List.pairwise_of_forall_mem_list
    intro c _ d hd _
    exact isFolded_eq_false_of_isBlank (hgap d hd)
  · intro c _ d hd _
    exact isFolded_eq_false_of_isBlank (hgap d hd)

end JoinGraph.Reference
