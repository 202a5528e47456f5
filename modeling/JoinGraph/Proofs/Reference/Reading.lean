import JoinGraph.Proofs.Reference.Alias
import JoinGraph.Proofs.Text.Occurrences
import JoinGraph.Proofs.Text.Stopped

namespace JoinGraph.Reference

open Word

theorem isKey_of_mem_introducers : ∀ words ∈ introducers, ∀ word ∈ words, IsKey word := by
  have hall : ∀ words ∈ introducers, ∀ word ∈ words, word ≠ [] ∧ word.all isPlain = true := by
    decide
  intro words hwords word hword
  exact ⟨(hall words hwords word hword).1, (hall words hwords word hword).2⟩

theorem isPlain_of_mem_introducers :
    ∀ words ∈ introducers, ∀ word ∈ words, ∀ letter ∈ word, isPlain letter = true :=
  fun words hwords word hword =>
    List.all_eq_true.mp (isKey_of_mem_introducers words hwords word hword).plain

theorem isPlain_of_mem_asWord : ∀ letter ∈ asWord, isPlain letter = true :=
  List.all_eq_true.mp isKey_asWord.plain

def initials : List Char :=
  ['F', 'L', 'R', 'I', 'C', 'J']

theorem initial_of_mem_introducers : ∀ words ∈ introducers, ∃ letter word more,
    words = (letter :: word) :: more ∧ letter ∈ initials := by
  simp [introducers, initials]

theorem ne_nil_of_mem_introducers : ∀ words ∈ introducers, words ≠ [] := by
  decide

theorem isFolded_of_fold_mem_initials {c : Char} (h : fold c ∈ initials) : isFolded c = true := by
  have hplain : initials.all isPlain = true := by decide
  exact List.all_eq_true.mp hplain (fold c) h

section Introducer

variable {text phrase after : Text} (h : introducer? text = some (phrase, after))

include h

theorem spells_of_introducer? :
    text = phrase ++ after ∧ ∃ words ∈ introducers, Spells words phrase := by
  obtain ⟨words, hwords, hphrase⟩ := List.exists_of_findSome?_eq_some h
  obtain ⟨htext, hspells⟩ := (phrase?_eq_some_iff (ne_nil_of_mem_introducers words hwords)
    (isKey_of_mem_introducers words hwords)).mp hphrase
  exact ⟨htext, words, hwords, hspells⟩

theorem initial_of_introducer? : ∃ c rest, text = c :: rest ∧ fold c ∈ initials := by
  obtain ⟨rfl, words, hwords, hphrase⟩ := spells_of_introducer? h
  obtain ⟨letter, word, more, rfl, hletter⟩ := initial_of_mem_introducers words hwords
  obtain ⟨_, _, first, rest, hwords, hfirst, rfl, -⟩ := hphrase.eq_first_append
  obtain ⟨rfl, -⟩ := List.cons.inj hwords
  obtain ⟨c, others, rfl, rfl, -⟩ := List.map_eq_cons_iff.mp hfirst
  exact ⟨c, _, rfl, hletter⟩

end Introducer

/-- What stands between a table name and its alias: blanks, and perhaps the word AS. -/
structure Skipped (skipped : Text) : Prop where
  not_initial : ∀ c ∈ skipped, fold c ∉ initials
  blank_end : ∀ c ∈ skipped.getLast?, isBlank c = true

theorem fold_notMem_initials_of_isBlank {c : Char} (h : isBlank c = true) :
    fold c ∉ initials := by
  intro hmem
  have hfolded := isFolded_of_fold_mem_initials hmem
  rw [isFolded_eq_false_of_isBlank h] at hfolded
  contradiction

theorem Lead.skipped {lead : Text} (h : Lead lead) : Skipped lead := by
  cases h with
  | blanks hgap =>
      exact ⟨fun c hc => fold_notMem_initials_of_isBlank (hgap c hc),
        fun c hc => hgap c (List.mem_of_getLast? hc)⟩
  | @as gap word space hgap hword hne hspace =>
      constructor
      · intro c hc
        rw [List.mem_append, List.mem_append] at hc
        rcases hc with hc | hc | hc
        · exact fold_notMem_initials_of_isBlank (hgap c hc)
        · have hmem : fold c ∈ asWord := by
            rw [← hword]
            exact List.mem_map_of_mem hc
          have hletters : (asWord.all fun letter => !initials.contains letter) = true := by decide
          have hletter := List.all_eq_true.mp hletters _ hmem
          simpa using hletter
        · exact fold_notMem_initials_of_isBlank (hspace c hc)
      · intro c hc
        rw [← List.append_assoc, List.getLast?_append_of_ne_nil _ hne] at hc
        exact hspace c (List.mem_of_getLast? hc)

/-- The text goes on with what is skipped, then with the alias `name`, which is read to its end. -/
structure FollowedBy (text skipped name after : Text) : Prop where
  text_eq : text = skipped ++ (name ++ after)
  skipped : Skipped skipped
  ne_nil : name ≠ []
  folded : ∀ c ∈ name, isFolded c = true
  ended : ∀ c ∈ after.head?, isFolded c = false

theorem followedBy_of_writtenAlias? {text name : Text} {distance : Nat}
    (h : writtenAlias? text = some (distance, name)) :
    ∃ skipped after, skipped.length = distance ∧ FollowedBy text skipped name after := by
  obtain ⟨lead, after, htext, hlength, hlead, hname, hafter⟩ := aliasAt_of_writtenAlias? h
  exact ⟨lead, after, hlength, htext, hlead.skipped, hname.isName.ne_nil, hname.isName.folded,
    hafter⟩

/-- The text begins with the reading, and goes on with `after`. -/
structure Reading.Begins (reading : Reading) (text after : Text) : Prop where
  text_eq : text = reading.phrase ++ (reading.gap ++ (reading.table ++ after))
  initial : ∃ c rest, text = c :: rest ∧ fold c ∈ initials
  gap_ne_nil : reading.gap ≠ []
  gap_blank : ∀ c ∈ reading.gap, isBlank c = true
  dotted : dotted? (reading.table ++ after) = some (reading.table, after)
  follower_eq : reading.follower = writtenAlias? after

theorem begins_of_read? {text : Text} {reading : Reading} (h : read? text = some reading) :
    ∃ after, reading.Begins text after := by
  simp only [read?, Option.bind_eq_bind, Option.bind_eq_some_iff, Prod.exists, Option.pure_def,
    Option.some.injEq] at h
  obtain ⟨phrase, afterPhrase, hphrase, gap, afterGap, hgap, table, after, htable, rfl⟩ := h
  obtain ⟨happendGap, hne⟩ := append_of_blanks? hgap
  obtain ⟨happendTable, -⟩ := append_of_dotted? htable
  refine ⟨after, ?_, initial_of_introducer? hphrase, hne, ?_, ?_, rfl⟩
  · rw [(spells_of_introducer? hphrase).1, happendGap, happendTable]
  · intro c hc
    exact isBlank_of_mem_blanks? hgap hc
  · rw [← happendTable]
    exact htable

theorem read?_of_not_folded {c : Char} (h : isFolded c = false) (rest : Text) :
    read? (c :: rest) = none := by
  apply Option.eq_none_iff_forall_ne_some.mpr
  intro reading hread
  obtain ⟨after, hbegins⟩ := begins_of_read? hread
  obtain ⟨d, others, htext, hinitial⟩ := hbegins.initial
  obtain rfl : c = d := (List.cons.inj htext).1
  rw [isFolded_of_fold_mem_initials hinitial] at h
  contradiction

theorem read?_of_isBlank {c : Char} (h : isBlank c = true) (rest : Text) :
    read? (c :: rest) = none :=
  read?_of_not_folded (isFolded_eq_false_of_isBlank h) rest

theorem Reading.Begins.length_le {reading : Reading} {text after : Text}
    (h : reading.Begins text after) : reading.length ≤ text.length := by
  rw [h.text_eq]
  simp only [Reading.length, Reading.tableOffset, List.length_append]
  omega

/-- A word that no key word of a reference begins. -/
structure Apart (reserved : Text) : Prop where
  plain : reserved.all isPlain = true
  not_introducer : ∀ words ∈ introducers, ∀ word ∈ words, ¬ word <+: reserved
  not_as : ¬ asWord <+: reserved

theorem apart_nil : Apart [] := by
  constructor <;> decide

section Stopped

variable {reserved : Text} (hreserved : Apart reserved) {c : Char} {text : Text}

section Introducer

include hreserved

theorem stopped_of_introducer? {phrase rest : Text} (h : Stopped reserved c text)
    (hread : introducer? text = some (phrase, rest)) : Stopped reserved c rest := by
  obtain ⟨words, hwords, hphrase⟩ := List.exists_of_findSome?_eq_some hread
  exact h.of_phrase? hreserved.plain (isPlain_of_mem_introducers words hwords)
    (hreserved.not_introducer words hwords) hphrase

theorem introducer?_append (h : Stopped reserved c text) (after : Text) :
    introducer? (text ++ c :: after) =
      (introducer? text).map fun (phrase, rest) => (phrase, rest ++ c :: after) := by
  have hall : ∀ phrases : List (List Text), (∀ words ∈ phrases, words ∈ introducers) →
      phrases.findSome? (fun words => phrase? words (text ++ c :: after)) =
        (phrases.findSome? fun words => phrase? words text).map
          fun (phrase, rest) => (phrase, rest ++ c :: after) := by
    intro phrases hphrases
    induction phrases with
    | nil => rfl
    | cons words others ih =>
        obtain ⟨hwords, hothers⟩ := List.forall_mem_cons.mp hphrases
        rw [List.findSome?_cons, List.findSome?_cons, ih hothers,
          phrase?_append hreserved.plain (isPlain_of_mem_introducers words hwords)
            (hreserved.not_introducer words hwords) h]
        cases phrase? words text <;> rfl
  exact hall introducers fun _ hwords => hwords

end Introducer

theorem startsWithBareAs_append (hc : isFolded c = false) (text after : Text) :
    startsWithBareAs (text ++ c :: after) = startsWithBareAs text := by
  simp only [startsWithBareAs, key?_append hc isPlain_of_mem_asWord]
  cases key? asWord text with
  | none => rfl
  | some found =>
      obtain ⟨as, rest⟩ := found
      cases rest with
      | nil => simp [hc]
      | cons d rest => rfl

theorem aliasIdentifier?_append (hc : isFolded c = false) (text after : Text) :
    aliasIdentifier? (text ++ c :: after) = aliasIdentifier? text := by
  cases text with
  | nil => simp [aliasIdentifier?, isInitial, hc]
  | cons d rest =>
      have hbare := startsWithBareAs_append hc (d :: rest) after
      have hhalts : Halts isFolded c (d :: rest) := Or.inl hc
      have hname := takeWhile_append_cons hhalts after
      rw [List.cons_append] at hbare hname ⊢
      simp only [aliasIdentifier?, hbare, hname]

include hreserved in
theorem writtenAlias?_append (h : Stopped reserved c text) (after : Text) :
    writtenAlias? (text ++ c :: after) = writtenAlias? text := by
  have hhalts := h.halts hreserved.plain
  have hafterGap : Stopped reserved c (text.dropWhile isBlank) := by
    rw [← List.takeWhile_append_dropWhile (p := isBlank) (l := text)] at h
    exact h.of_blanks hreserved.plain fun d hd => of_mem_takeWhile hd
  simp only [writtenAlias?, takeWhile_append_cons hhalts, dropWhile_append_cons hhalts,
    key?_append h.not_folded isPlain_of_mem_asWord]
  cases has : key? asWord (text.dropWhile isBlank) with
  | none => simp only [Option.map_none, aliasIdentifier?_append h.not_folded]
  | some found =>
      have hafterAs := hafterGap.of_key? isPlain_of_mem_asWord hreserved.not_as has
      simp only [Option.map_some, blanks?_append (hafterAs.halts hreserved.plain)]
      cases blanks? found.2 with
      | none => simp only [Option.map_none, aliasIdentifier?_append h.not_folded]
      | some space => simp only [Option.map_some, aliasIdentifier?_append h.not_folded]

include hreserved in
/-- A reading does not depend on what stands behind the character that stops it, unless that is a
blank and the reserved word itself was read for the table name. -/
theorem read?_append_stopped (h : Stopped reserved c text) (after : Text) :
    read? (text ++ c :: after) = read? text ∨
      isBlank c = true ∧ ∃ reading follower, reading.table.map fold = reserved ∧
        read? text = some reading ∧
        read? (text ++ c :: after) = some { reading with follower } := by
  simp only [read?, introducer?_append hreserved h]
  cases hphrase : introducer? text with
  | none => exact Or.inl rfl
  | some phrase =>
      have hafterPhrase := stopped_of_introducer? hreserved h hphrase
      simp only [Option.map_some, Option.bind_eq_bind, Option.bind_some,
        blanks?_append (hafterPhrase.halts hreserved.plain)]
      cases hgap : blanks? phrase.2 with
      | none => exact Or.inl rfl
      | some gap =>
          have hafterGap := hafterPhrase.of_blanks? hreserved.plain hgap
          simp only [Option.map_some, Option.bind_some, dotted?_append h.not_dotted]
          cases htable : dotted? gap.2 with
          | none => exact Or.inl rfl
          | some table =>
              simp only [Option.map_some, Option.bind_some]
              rcases hafterGap.of_dotted? hreserved.plain htable with hbehind | ⟨hblank, hspelled⟩
              · rw [writtenAlias?_append hreserved hbehind]
                exact Or.inl rfl
              · exact Or.inr ⟨hblank, _, _, hspelled, rfl, rfl⟩

end Stopped

theorem read?_append {c : Char} (hc : IsBarrier c) (text after : Text) :
    read? (text ++ c :: after) = read? text := by
  rcases read?_append_stopped apart_nil (hc.stopped text) after with hsame | ⟨hblank, -⟩
  · exact hsame
  · rw [hc.not_blank] at hblank
    contradiction

end JoinGraph.Reference
