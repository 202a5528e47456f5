import JoinGraph.Proofs.Text.Grammar
import JoinGraph.Reference

namespace JoinGraph.Reference

open Word

theorem isKey_asWord : IsKey asWord where
  ne_nil := by decide
  plain := by decide

/-- What may stand between a table name and its alias. -/
inductive Lead : Text → Prop
  | blanks {gap : Text} : (∀ c ∈ gap, isBlank c = true) → Lead gap
  | as {gap word space : Text} : (∀ c ∈ gap, isBlank c = true) → word.map fold = asWord →
      space ≠ [] → (∀ c ∈ space, isBlank c = true) → Lead (gap ++ (word ++ space))

/-- A name that may serve as an alias. -/
structure IsAlias (name : Text) : Prop where
  isName : IsName name
  not_digit : ∀ c ∈ name.head?, c.isDigit = false
  not_as : name.map fold ≠ asWord

/-- The text begins with what may stand in front of an alias, which is so many characters, and goes
on with the alias `name`, which ends there. -/
def AliasAt (text : Text) (distance : Nat) (name : Text) : Prop :=
  ∃ lead after, text = lead ++ (name ++ after) ∧ lead.length = distance ∧ Lead lead ∧
    IsAlias name ∧ ∀ c ∈ after.head?, isFolded c = false

theorem AliasAt.blank_first {text name : Text} {distance : Nat} (h : AliasAt text distance name)
    (htext : ∀ c ∈ text.head?, isFolded c = false) : ∃ c ∈ text.head?, isBlank c = true := by
  obtain ⟨lead, after, rfl, -, hlead, hname, -⟩ := h
  have hblank : ∀ {gap rest word : Text}, (∀ c ∈ gap, isBlank c = true) → IsName word →
      (∀ c ∈ (gap ++ (word ++ rest)).head?, isFolded c = false) →
      ∃ c ∈ (gap ++ (word ++ rest)).head?, isBlank c = true := by
    intro gap rest word hgap hword hfront
    cases gap with
    | cons c others => exact ⟨c, rfl, hgap c List.mem_cons_self⟩
    | nil =>
        obtain ⟨c, others, rfl⟩ := List.exists_cons_of_ne_nil hword.ne_nil
        have hc := hword.folded c List.mem_cons_self
        rw [hfront c rfl] at hc
        cases hc
  cases hlead with
  | blanks hgap => exact hblank hgap hname.isName htext
  | as hgap hword _ _ =>
      rw [List.append_assoc, List.append_assoc] at htext ⊢
      exact hblank hgap (isKey_asWord.isName hword) htext

section Identifier

variable {name after : Text} (hname : IsName name) (hafter : ∀ c ∈ after.head?, isFolded c = false)

include hname hafter

theorem eq_of_key?_asWord {as behind : Text} (h : key? asWord (name ++ after) = some (as, behind))
    (hbehind : ∀ c ∈ behind.head?, isFolded c = false) : name.map fold = asWord := by
  obtain ⟨htext, hspelled⟩ := append_of_key? h
  obtain ⟨rfl, -⟩ := hname.append_inj (isKey_asWord.isName hspelled) hafter hbehind htext
  exact hspelled

theorem startsWithBareAs_iff : startsWithBareAs (name ++ after) = true ↔ name.map fold = asWord := by
  rw [startsWithBareAs]
  constructor
  · intro h
    split at h
    · cases h
    · next as hkey =>
        apply eq_of_key?_asWord hname hafter hkey
        intro c hc
        cases hc
    · next as c rest hkey =>
        apply eq_of_key?_asWord hname hafter hkey
        intro d hd
        obtain rfl : c = d := by simpa using hd
        simpa using h
  · intro h
    rw [key?_eq_some h]
    cases after with
    | nil => rfl
    | cons c rest => simp [hafter c rfl]

end Identifier

theorem aliasIdentifier?_eq_some_iff {text name : Text} : aliasIdentifier? text = some name ↔
    ∃ after, text = name ++ after ∧ IsAlias name ∧ ∀ c ∈ after.head?, isFolded c = false := by
  constructor
  · intro h
    cases text with
    | nil => cases h
    | cons d rest =>
        simp only [aliasIdentifier?] at h
        split at h
        · next hinitial =>
            obtain rfl := Option.some.inj h
            simp only [isInitial, Bool.and_eq_true, Bool.not_eq_true'] at hinitial
            obtain ⟨⟨hfolded, hdigit⟩, hbare⟩ := hinitial
            have hname : IsName ((d :: rest).takeWhile isFolded) := by
              refine ⟨?_, fun c hc => of_mem_takeWhile hc⟩
              simp [hfolded]
            have hafter : ∀ c ∈ ((d :: rest).dropWhile isFolded).head?, isFolded c = false :=
              fun c hc => not_of_mem_head?_dropWhile hc
            have hcut : (d :: rest).takeWhile isFolded ++ (d :: rest).dropWhile isFolded =
                d :: rest := List.takeWhile_append_dropWhile
            refine ⟨_, hcut.symm, ⟨hname, ?_, ?_⟩, hafter⟩
            · intro c hc
              obtain rfl : d = c := by simpa [hfolded] using hc
              exact hdigit
            · intro has
              have htrue := (startsWithBareAs_iff hname hafter).mpr has
              rw [hcut, hbare] at htrue
              contradiction
        · cases h
  · rintro ⟨after, rfl, hname, hafter⟩
    have hrun := takeWhile_append_of_head hname.isName.folded hafter
    have hbare : startsWithBareAs (name ++ after) = false := by
      rw [Bool.eq_false_iff, ne_eq, startsWithBareAs_iff hname.isName hafter]
      exact hname.not_as
    obtain ⟨d, others, rfl⟩ := List.exists_cons_of_ne_nil hname.isName.ne_nil
    have hinitial : isInitial d = true := by
      rw [isInitial, hname.isName.folded d List.mem_cons_self, hname.not_digit d rfl]
      rfl
    rw [List.cons_append] at hrun hbare ⊢
    rw [aliasIdentifier?, hinitial, hbare, hrun]
    rfl

theorem aliasAt_of_writtenAlias? {text name : Text} {distance : Nat}
    (h : writtenAlias? text = some (distance, name)) : AliasAt text distance name := by
  have hcut : text.takeWhile isBlank ++ text.dropWhile isBlank = text :=
    List.takeWhile_append_dropWhile
  have hgap : ∀ c ∈ text.takeWhile isBlank, isBlank c = true := fun c hc => of_mem_takeWhile hc
  have plain : (aliasIdentifier? (text.dropWhile isBlank)).map
      ((text.takeWhile isBlank).length, ·) = some (distance, name) → AliasAt text distance name := by
    intro hplain
    obtain ⟨found, hfound, heq⟩ := Option.map_eq_some_iff.mp hplain
    obtain ⟨rfl, rfl⟩ := Prod.mk.inj heq
    obtain ⟨after, hafterGap, hname, hafter⟩ := aliasIdentifier?_eq_some_iff.mp hfound
    refine ⟨_, after, ?_, rfl, Lead.blanks hgap, hname, hafter⟩
    rw [← hafterGap, hcut]
  simp only [writtenAlias?] at h
  split at h
  · next as afterAs has =>
      split at h
      · next space afterSpace hspace =>
          obtain ⟨found, hfound, heq⟩ := Option.map_eq_some_iff.mp h
          obtain ⟨rfl, rfl⟩ := Prod.mk.inj heq
          obtain ⟨hafterGap, hword⟩ := append_of_key? has
          obtain ⟨hafterAs, hspaceNe⟩ := append_of_blanks? hspace
          obtain ⟨after, hafterSpace, hname, hafter⟩ := aliasIdentifier?_eq_some_iff.mp hfound
          refine ⟨_, after, ?_, ?_, Lead.as hgap hword hspaceNe
            (fun c hc => isBlank_of_mem_blanks? hspace hc), hname, hafter⟩
          · rw [List.append_assoc, List.append_assoc, ← hafterSpace, ← hafterAs, ← hafterGap, hcut]
          · simp only [List.length_append, Nat.add_assoc]
      · exact plain h
  · exact plain h

theorem writtenAlias?_of_aliasAt {text name : Text} {distance : Nat}
    (h : AliasAt text distance name) : writtenAlias? text = some (distance, name) := by
  obtain ⟨lead, after, rfl, rfl, hlead, hname, hafter⟩ := h
  have hfound : aliasIdentifier? (name ++ after) = some name :=
    aliasIdentifier?_eq_some_iff.mpr ⟨after, rfl, hname, hafter⟩
  have hfront := hname.isName.isBlank_head after
  cases hlead with
  | blanks hgap =>
      simp only [writtenAlias?, takeWhile_append_of_head hgap hfront,
        dropWhile_append_of_head hgap hfront]
      split
      · next as afterAs has =>
          have hnone : blanks? afterAs = none := by
            apply Option.eq_none_iff_forall_ne_some.mpr
            rintro ⟨space, behind⟩ hspace
            apply hname.not_as
            apply eq_of_key?_asWord hname.isName hafter has
            intro c hc
            obtain ⟨hafterAs, hne⟩ := append_of_blanks? hspace
            rw [hafterAs] at hc
            exact isFolded_eq_false_of_isBlank
              (isBlank_of_mem_blanks? hspace (mem_of_mem_head?_append hne hc))
          rw [hnone, hfound]
          rfl
      · rw [hfound]
        rfl
  | @as gap word space hgap hword hne hspace =>
      have hfrontAs := (isKey_asWord.isName hword).isBlank_head (space ++ (name ++ after))
      simp only [writtenAlias?, List.append_assoc, takeWhile_append_of_head hgap hfrontAs,
        dropWhile_append_of_head hgap hfrontAs, key?_eq_some hword,
        blanks?_eq_some hspace hne _ hfront, hfound, Option.map_some, List.length_append,
        Nat.add_assoc]

theorem writtenAlias?_eq_some_iff {text name : Text} {distance : Nat} :
    writtenAlias? text = some (distance, name) ↔ AliasAt text distance name :=
  ⟨aliasAt_of_writtenAlias?, writtenAlias?_of_aliasAt⟩

end JoinGraph.Reference
