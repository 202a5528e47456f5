import JoinGraph.Proofs.Text.Words

namespace JoinGraph.Word

/-- A text that is one identifier, without regard to case. -/
structure IsName (name : Text) : Prop where
  ne_nil : name ≠ []
  folded : ∀ c ∈ name, isFolded c = true

theorem IsName.dot_notMem {name : Text} (h : IsName name) : '.' ∉ name :=
  dot_notMem_of_isFolded h.folded

theorem IsName.isBlank_head {name : Text} (h : IsName name) (rest : Text) :
    ∀ c ∈ (name ++ rest).head?, isBlank c = false := by
  intro c hc
  exact isBlank_eq_false_of_isFolded (h.folded c (mem_of_mem_head?_append h.ne_nil hc))

theorem IsName.append_inj {name other after behind : Text} (hname : IsName name)
    (hother : IsName other) (hafter : ∀ c ∈ after.head?, isFolded c = false)
    (hbehind : ∀ c ∈ behind.head?, isFolded c = false) (h : name ++ after = other ++ behind) :
    name = other ∧ after = behind := by
  have hsame : name = other := by
    calc
      name = (name ++ after).takeWhile isFolded :=
        (takeWhile_append_of_head hname.folded hafter).symm
      _ = (other ++ behind).takeWhile isFolded := by rw [h]
      _ = other := takeWhile_append_of_head hother.folded hbehind
  subst hsame
  exact ⟨rfl, List.append_cancel_left h⟩

section Phrases

/-- The text spells the words in any case, with blanks between them. -/
inductive Spells : List Text → Text → Prop
  | single {word read : Text} : read.map fold = word → Spells [word] read
  | more {word read gap rest : Text} {others : List Text} : read.map fold = word → gap ≠ [] →
      (∀ c ∈ gap, isBlank c = true) → Spells others rest →
      Spells (word :: others) (read ++ (gap ++ rest))

/-- A word of a phrase: letters of identifiers in capitals, at least one. -/
structure IsKey (word : Text) : Prop where
  ne_nil : word ≠ []
  plain : word.all isPlain = true

theorem IsKey.isName {word read : Text} (h : IsKey word) (hread : read.map fold = word) :
    IsName read where
  ne_nil := ne_nil_of_map_fold hread h.ne_nil
  folded := isFolded_of_map_fold hread h.plain

theorem Spells.eq_first_append {words : List Text} {phrase : Text} (h : Spells words phrase) :
    ∃ word others first rest, words = word :: others ∧ first.map fold = word ∧
      phrase = first ++ rest ∧ (∀ c ∈ rest.head?, isBlank c = true) := by
  cases h with
  | single hread =>
      refine ⟨_, [], phrase, [], rfl, hread, (List.append_nil phrase).symm, ?_⟩
      intro c hc
      cases hc
  | more hread hne hgap hrest =>
      refine ⟨_, _, _, _, rfl, hread, rfl, ?_⟩
      intro c hc
      exact hgap c (mem_of_mem_head?_append hne hc)

theorem Spells.isBlank_head {words : List Text} {phrase after : Text} (h : Spells words phrase)
    (hwords : ∀ word ∈ words, IsKey word) :
    ∀ c ∈ (phrase ++ after).head?, isBlank c = false := by
  obtain ⟨word, others, first, rest, rfl, hfirst, rfl, -⟩ := h.eq_first_append
  rw [List.append_assoc]
  exact ((hwords word List.mem_cons_self).isName hfirst).isBlank_head _

theorem Spells.isFolded_or_isBlank {words : List Text} {phrase : Text} (h : Spells words phrase)
    (hwords : ∀ word ∈ words, IsKey word) :
    ∀ c ∈ phrase, isFolded c = true ∨ isBlank c = true := by
  induction h with
  | single hread =>
      intro c hc
      exact Or.inl (((hwords _ List.mem_cons_self).isName hread).folded c hc)
  | more hread hne hgap hrest ih =>
      obtain ⟨hword, hothers⟩ := List.forall_mem_cons.mp hwords
      simp only [List.forall_mem_append]
      exact ⟨fun c hc => Or.inl ((hword.isName hread).folded c hc),
        fun c hc => Or.inr (hgap c hc), ih hothers⟩

theorem spells_of_phrase? {words : List Text} (hne : words ≠ []) {text phrase after : Text}
    (h : phrase? words text = some (phrase, after)) : Spells words phrase := by
  induction words generalizing text phrase with
  | nil => contradiction
  | cons word more ih =>
      cases more with
      | nil => exact Spells.single (append_of_key? h).2
      | cons next others =>
          simp only [phrase?, Option.bind_eq_bind, Option.bind_eq_some_iff, Prod.exists,
            Option.pure_def, Option.some.injEq, Prod.mk.injEq] at h
          obtain ⟨read, afterWord, hread, gap, afterGap, hgap, rest, last, hrest, rfl, rfl⟩ := h
          rw [List.append_assoc]
          exact Spells.more (append_of_key? hread).2 (append_of_blanks? hgap).2
            (fun c hc => isBlank_of_mem_blanks? hgap hc) (ih (List.cons_ne_nil next others) hrest)

theorem phrase?_append_of_spells {words : List Text} {phrase : Text} (h : Spells words phrase)
    (hwords : ∀ word ∈ words, IsKey word) (after : Text) :
    phrase? words (phrase ++ after) = some (phrase, after) := by
  induction h with
  | single hread => exact key?_eq_some hread after
  | @more word read gap rest others hread hne hgap hrest ih =>
      obtain ⟨-, hothers⟩ := List.forall_mem_cons.mp hwords
      obtain ⟨next, further, -, -, rfl, -⟩ := hrest.eq_first_append
      have hcut : read ++ (gap ++ rest) ++ after = read ++ (gap ++ (rest ++ after)) := by
        simp only [List.append_assoc]
      rw [hcut, phrase?, key?_eq_some hread]
      · simp only [Option.bind_eq_bind, Option.bind_some,
          blanks?_eq_some hgap hne _ (hrest.isBlank_head hothers), ih hothers, Option.pure_def,
          List.append_assoc]
      · exact List.cons_ne_nil next further

theorem phrase?_eq_some_iff {words : List Text} (hne : words ≠ [])
    (hwords : ∀ word ∈ words, IsKey word) {text phrase after : Text} :
    phrase? words text = some (phrase, after) ↔ text = phrase ++ after ∧ Spells words phrase := by
  constructor
  · intro h
    exact ⟨append_of_phrase? h, spells_of_phrase? hne h⟩
  · rintro ⟨rfl, hphrase⟩
    exact phrase?_append_of_spells hphrase hwords after

end Phrases

section Dotted

inductive Dotted : Text → Prop
  | single {name : Text} : IsName name → Dotted name
  | cons {name rest : Text} : IsName name → Dotted rest → Dotted (name ++ '.' :: rest)

/-- The text does not go on with a dotted name that ends in front of it. -/
structure EndsDotted (after : Text) : Prop where
  not_folded : ∀ c ∈ after.head?, isFolded c = false
  not_dot : ∀ c rest, after = '.' :: c :: rest → isFolded c = false

theorem Dotted.eq_cons {name : Text} (h : Dotted name) :
    ∃ c rest, name = c :: rest ∧ isFolded c = true := by
  have hname : ∀ {first rest : Text}, IsName first →
      ∃ c others, first ++ rest = c :: others ∧ isFolded c = true := by
    intro first rest hfirst
    obtain ⟨c, others, rfl⟩ := List.exists_cons_of_ne_nil hfirst.ne_nil
    exact ⟨c, others ++ rest, rfl, hfirst.folded c List.mem_cons_self⟩
  cases h with
  | single hsingle =>
      rw [← List.append_nil name]
      exact hname hsingle
  | cons hfirst _ => exact hname hfirst

theorem segments_name_append {run : Text} (hrun : ∀ c ∈ run, isFolded c = true) (rest : Text) :
    segments (run ++ rest) = (run ++ (segments rest).1, (segments rest).2) := by
  induction run with
  | nil => rfl
  | cons c run ih =>
      obtain ⟨hc, hrest⟩ := List.forall_mem_cons.mp hrun
      simp only [List.cons_append, segments, hc, if_true, ih hrest]

theorem segments_dot_cons {c : Char} (hc : isFolded c = true) (rest : Text) :
    segments ('.' :: c :: rest) = ('.' :: (segments (c :: rest)).1, (segments (c :: rest)).2) := by
  have hdot : isFolded '.' = false := by decide
  conv_lhs => unfold segments
  simp [hdot, hc]

theorem segments_of_endsDotted {after : Text} (h : EndsDotted after) :
    segments after = ([], after) := by
  cases after with
  | nil => rfl
  | cons c rest =>
      have hc := h.not_folded c rfl
      unfold segments
      rw [hc]
      by_cases hdot : c = '.'
      · subst hdot
        cases rest with
        | nil => rfl
        | cons d others => simp [h.not_dot d others rfl]
      · simp [hdot]

theorem Dotted.segments_append {name after : Text} (h : Dotted name) (hafter : EndsDotted after) :
    segments (name ++ after) = (name, after) := by
  induction h with
  | single hname =>
      rw [segments_name_append hname.folded, segments_of_endsDotted hafter, List.append_nil]
  | cons hname hrest ih =>
      obtain ⟨c, others, rfl, hc⟩ := hrest.eq_cons
      rw [List.append_assoc, List.cons_append, segments_name_append hname.folded, List.cons_append,
        segments_dot_cons hc, ← List.cons_append, ih]

theorem dotted_segments {text : Text} (h : ∃ c ∈ text.head?, isFolded c = true) :
    Dotted (segments text).1 ∧ EndsDotted (segments text).2 := by
  induction hlength : text.length using Nat.strongRecOn generalizing text with
  | ind length ih =>
      obtain ⟨c, hc, hfolded⟩ := h
      obtain ⟨others, rfl⟩ := List.head?_eq_some_iff.mp hc
      have hname : IsName ((c :: others).takeWhile isFolded) := by
        refine ⟨?_, fun d hd => of_mem_takeWhile hd⟩
        simp [hfolded]
      have hafter : ∀ d ∈ ((c :: others).dropWhile isFolded).head?, isFolded d = false :=
        fun d hd => not_of_mem_head?_dropWhile hd
      have hcut : (c :: others).takeWhile isFolded ++ (c :: others).dropWhile isFolded =
          c :: others := List.takeWhile_append_dropWhile
      generalize (c :: others).takeWhile isFolded = name at hname hcut
      generalize (c :: others).dropWhile isFolded = after at hafter hcut
      rw [← hcut, segments_name_append hname.folded]
      by_cases hdot : ∃ d rest, after = '.' :: d :: rest ∧ isFolded d = true
      · obtain ⟨d, rest, rfl, hd⟩ := hdot
        have hshorter : (d :: rest).length < length := by
          rw [← hlength, ← hcut]
          simp only [List.length_append, List.length_cons]
          omega
        obtain ⟨hdotted, hends⟩ := ih _ hshorter ⟨d, rfl, hd⟩ rfl
        rw [segments_dot_cons hd]
        exact ⟨Dotted.cons hname hdotted, hends⟩
      · have hends : EndsDotted after := by
          refine ⟨hafter, ?_⟩
          intro d rest hrest
          by_contra hd
          exact hdot ⟨d, rest, hrest, by simpa using hd⟩
        rw [segments_of_endsDotted hends, List.append_nil]
        exact ⟨Dotted.single hname, hends⟩

theorem dotted?_eq_some_iff {text name after : Text} :
    dotted? text = some (name, after) ↔ text = name ++ after ∧ Dotted name ∧ EndsDotted after := by
  constructor
  · intro h
    have hfirst : ∃ c ∈ text.head?, isFolded c = true := by
      cases text with
      | nil => cases h
      | cons c rest =>
          refine ⟨c, rfl, ?_⟩
          by_contra hc
          rw [dotted?, if_neg hc] at h
          cases h
    have hread := dotted_segments hfirst
    rw [eq_segments_of_dotted? h] at hread
    exact ⟨(append_of_dotted? h).1, hread⟩
  · rintro ⟨rfl, hname, hafter⟩
    have hsegments := hname.segments_append hafter
    obtain ⟨c, rest, rfl, hc⟩ := hname.eq_cons
    rw [List.cons_append] at hsegments ⊢
    rw [dotted?, if_pos hc, hsegments]

theorem Dotted.isName_or_last {name : Text} (h : Dotted name) :
    IsName name ∨ ∃ front last, Dotted front ∧ IsName last ∧ name = front ++ '.' :: last := by
  induction h with
  | single hname => exact Or.inl hname
  | @cons name rest hname hrest ih =>
      rcases ih with hlast | ⟨front, last, hfront, hlast, rfl⟩
      · exact Or.inr ⟨name, rest, Dotted.single hname, hlast, rfl⟩
      · refine Or.inr ⟨name ++ '.' :: front, last, Dotted.cons hname hfront, hlast, ?_⟩
        rw [List.append_assoc, List.cons_append]

end Dotted

end JoinGraph.Word
