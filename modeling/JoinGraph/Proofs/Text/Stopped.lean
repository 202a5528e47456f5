import JoinGraph.Proofs.Text.Words

namespace JoinGraph.Word

/-- The text ends in `word`, in any case, with nothing of a dotted name right in front of it. -/
def EndsIn (word text : Text) : Prop :=
  ∃ front last, text = front ++ last ∧ last ≠ [] ∧ last.map fold = word ∧
    ∀ c ∈ front.getLast?, isDotted c = false

/-- Whether `c` stops the readers of words that begin in the text in front of it. It is in no dotted
name, and where it is a blank the text ends in the word `reserved`. -/
structure Stopped (reserved : Text) (c : Char) (text : Text) : Prop where
  not_dotted : isDotted c = false
  blank : isBlank c = true → EndsIn reserved text

theorem IsBarrier.stopped {c : Char} (hc : IsBarrier c) (text : Text) : Stopped [] c text where
  not_dotted := hc.not_dotted
  blank := by
    intro hblank
    rw [hc.not_blank] at hblank
    contradiction

section EndsIn

variable {word read rest : Text}

theorem endsIn_of_map_fold (hne : rest ≠ []) (h : rest.map fold = word) : EndsIn word rest := by
  refine ⟨[], rest, rfl, hne, h, ?_⟩
  rintro c ⟨⟩

theorem EndsIn.of_append (h : EndsIn word (read ++ rest)) :
    EndsIn word rest ∨ ∃ front more, read = front ++ more ∧ more ++ rest ≠ [] ∧
      (more ++ rest).map fold = word ∧ ∀ c ∈ front.getLast?, isDotted c = false := by
  obtain ⟨front, last, htext, hne, hspelled, hfront⟩ := h
  rcases List.append_eq_append_iff.mp htext with ⟨between, rfl, rfl⟩ | ⟨more, rfl, rfl⟩
  · refine Or.inl ⟨between, last, rfl, hne, hspelled, ?_⟩
    intro c hc
    apply hfront c
    rw [List.getLast?_append, Option.mem_def.mp hc]
    rfl
  · exact Or.inr ⟨front, more, rfl, hne, hspelled, hfront⟩

theorem EndsIn.of_dotted_append (h : EndsIn word (read ++ rest))
    (hread : ∀ c ∈ read, isDotted c = true) :
    EndsIn word rest ∨ (read ++ rest).map fold = word := by
  rcases h.of_append with hrest | ⟨front, more, rfl, -, hspelled, hfront⟩
  · exact Or.inl hrest
  · have hnil : front = [] := by
      by_contra hne
      have hdotted := hread _ (List.mem_append_left more (List.getLast_mem hne))
      rw [hfront _ (List.getLast?_eq_some_getLast hne)] at hdotted
      contradiction
    rw [hnil, List.nil_append]
    exact Or.inr hspelled

theorem EndsIn.of_blanks_append (hword : word.all isPlain = true) (h : EndsIn word (read ++ rest))
    (hread : ∀ c ∈ read, isBlank c = true) : EndsIn word rest := by
  rcases h.of_append with hrest | ⟨front, more, rfl, hne, hspelled, -⟩
  · exact hrest
  · have hnil : more = [] := by
      apply List.eq_nil_iff_forall_not_mem.mpr
      intro c hc
      have hfolded := isFolded_of_map_fold hspelled hword c (List.mem_append_left rest hc)
      rw [isFolded_eq_false_of_isBlank (hread c (List.mem_append_right front hc))] at hfolded
      contradiction
    subst hnil
    exact endsIn_of_map_fold hne hspelled

theorem EndsIn.exists_not_blank (hword : word.all isPlain = true) {text : Text}
    (h : EndsIn word text) : ∃ c ∈ text, isBlank c = false := by
  obtain ⟨front, last, rfl, hne, hspelled, -⟩ := h
  obtain ⟨c, others, rfl⟩ := List.exists_cons_of_ne_nil hne
  refine ⟨c, List.mem_append_right front List.mem_cons_self, ?_⟩
  exact isBlank_eq_false_of_isFolded (isFolded_of_map_fold hspelled hword c List.mem_cons_self)

end EndsIn

section Stopped

variable {reserved : Text} (hreserved : reserved.all isPlain = true) {c : Char} {text rest : Text}

theorem Stopped.not_folded (h : Stopped reserved c text) : isFolded c = false :=
  (isDotted_eq_false_iff.mp h.not_dotted).1

include hreserved in
theorem Stopped.halts (h : Stopped reserved c text) : Halts isBlank c text := by
  cases hblank : isBlank c with
  | false => exact Or.inl hblank
  | true => exact Or.inr ((h.blank hblank).exists_not_blank hreserved)

include hreserved in
theorem Stopped.of_blanks {gap : Text} (h : Stopped reserved c (gap ++ rest))
    (hgap : ∀ d ∈ gap, isBlank d = true) : Stopped reserved c rest where
  not_dotted := h.not_dotted
  blank := fun hblank => (h.blank hblank).of_blanks_append hreserved hgap

include hreserved in
theorem Stopped.of_blanks? {gap : Text} (h : Stopped reserved c text)
    (hread : blanks? text = some (gap, rest)) : Stopped reserved c rest := by
  rw [(append_of_blanks? hread).1] at h
  apply h.of_blanks hreserved
  intro d hd
  exact isBlank_of_mem_blanks? hread hd

theorem Stopped.of_key? {word read : Text} (hword : ∀ letter ∈ word, isPlain letter = true)
    (hapart : ¬ word <+: reserved) (h : Stopped reserved c text)
    (hread : key? word text = some (read, rest)) : Stopped reserved c rest where
  not_dotted := h.not_dotted
  blank := by
    intro hblank
    obtain ⟨rfl, hspelled⟩ := append_of_key? hread
    have hdotted : ∀ d ∈ read, isDotted d = true := by
      intro d hd
      apply isDotted_of_isFolded
      exact isFolded_of_map_fold hspelled (List.all_eq_true.mpr hword) d hd
    rcases (h.blank hblank).of_dotted_append hdotted with hends | hwhole
    · exact hends
    · exfalso
      apply hapart
      rw [← hwhole, List.map_append, hspelled]
      exact List.prefix_append word _

include hreserved in
theorem Stopped.of_dotted? {name : Text} (h : Stopped reserved c text)
    (hread : dotted? text = some (name, rest)) :
    Stopped reserved c rest ∨ isBlank c = true ∧ name.map fold = reserved := by
  cases hblank : isBlank c with
  | false =>
      refine Or.inl ⟨h.not_dotted, ?_⟩
      rw [hblank]
      intro hfalse
      contradiction
  | true =>
      have hends := h.blank hblank
      rw [(append_of_dotted? hread).1] at hends
      rcases hends.of_dotted_append fun d hd => isDotted_of_mem_dotted? hread hd with hrest | hwhole
      · exact Or.inl ⟨h.not_dotted, fun _ => hrest⟩
      · -- The name is read to its end, so nothing of the word is left behind it.
        have hnil : rest = [] := by
          by_contra hne
          obtain ⟨d, others, rfl⟩ := List.exists_cons_of_ne_nil hne
          have hfolded := isFolded_of_map_fold hwhole hreserved d
            (List.mem_append_right name List.mem_cons_self)
          rw [not_isFolded_after_dotted? hread rfl] at hfolded
          contradiction
        rw [hnil, List.append_nil] at hwhole
        exact Or.inr ⟨rfl, hwhole⟩

section Phrase

variable {words : List Text}
  (hwords : ∀ word ∈ words, ∀ letter ∈ word, isPlain letter = true)
  (hapart : ∀ word ∈ words, ¬ word <+: reserved)

include hreserved hwords hapart

theorem Stopped.of_phrase? {read : Text} (h : Stopped reserved c text)
    (hread : phrase? words text = some (read, rest)) : Stopped reserved c rest := by
  induction words generalizing text read rest with
  | nil =>
      simp only [phrase?, Option.some.injEq, Prod.mk.injEq] at hread
      exact hread.2 ▸ h
  | cons word more ih =>
      obtain ⟨hword, hmore⟩ := List.forall_mem_cons.mp hwords
      obtain ⟨hfirst, hothers⟩ := List.forall_mem_cons.mp hapart
      cases more with
      | nil => exact h.of_key? hword hfirst hread
      | cons next others =>
          simp only [phrase?, Option.bind_eq_bind, Option.bind_eq_some_iff, Prod.exists,
            Option.pure_def, Option.some.injEq, Prod.mk.injEq] at hread
          obtain ⟨key, afterKey, hkey, gap, afterGap, hgap, tail, last, htail, -, rfl⟩ := hread
          have hbehind := (h.of_key? hword hfirst hkey).of_blanks? hreserved hgap
          exact ih hmore hothers hbehind htail

theorem phrase?_append (h : Stopped reserved c text) (after : Text) :
    phrase? words (text ++ c :: after) =
      (phrase? words text).map fun (read, rest) => (read, rest ++ c :: after) := by
  induction words generalizing text with
  | nil => rfl
  | cons word more ih =>
      obtain ⟨hword, hmore⟩ := List.forall_mem_cons.mp hwords
      obtain ⟨hfirst, hothers⟩ := List.forall_mem_cons.mp hapart
      cases more with
      | nil => exact key?_append h.not_folded hword text after
      | cons next others =>
          simp only [phrase?, key?_append h.not_folded hword]
          cases hkey : key? word text with
          | none => rfl
          | some found =>
              have hbehind := h.of_key? hword hfirst hkey
              simp only [Option.map_some, Option.bind_eq_bind, Option.bind_some,
                blanks?_append (hbehind.halts hreserved)]
              cases hgap : blanks? found.2 with
              | none => rfl
              | some gap =>
                  have hnext := hbehind.of_blanks? hreserved hgap
                  simp only [Option.map_some, Option.bind_some, ih hmore hothers hnext]
                  cases phrase? (next :: others) gap.2 <;> rfl

end Phrase

end Stopped

end JoinGraph.Word
