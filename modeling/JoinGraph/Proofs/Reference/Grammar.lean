import JoinGraph.Config
import JoinGraph.Proofs.Reference.Reading
import JoinGraph.Proofs.Text.Leftmost
import Mathlib.Data.List.Forall2

namespace JoinGraph.Reference

open Text Word

section Introducers

theorem eq_of_mem_introducers : ∀ words ∈ introducers, ∀ others ∈ introducers,
    words.headD [] <+: others.headD [] → words = others := by
  decide

theorem prefix_of_spells {words : List Text} {phrase : Text} (h : Spells words phrase)
    (after : Text) : words.headD [] <+: (phrase ++ after).map fold := by
  obtain ⟨word, others, first, rest, rfl, hfirst, rfl, -⟩ := h.eq_first_append
  refine ⟨(rest ++ after).map fold, ?_⟩
  simp only [List.append_assoc, List.map_append, hfirst]
  rfl

variable {text phrase after : Text}

theorem eq_of_spells {words others : List Text} (hwords : words ∈ introducers)
    (hothers : others ∈ introducers) {behind other : Text} (h : Spells words phrase)
    (hother : Spells others other) (htext : phrase ++ after = other ++ behind) :
    words = others := by
  have hfirst := prefix_of_spells h after
  have hsecond := prefix_of_spells hother behind
  rw [htext] at hfirst
  rcases Nat.le_total (words.headD []).length (others.headD []).length with hle | hle
  · exact eq_of_mem_introducers words hwords others hothers
      (List.prefix_of_prefix_length_le hfirst hsecond hle)
  · exact (eq_of_mem_introducers others hothers words hwords
      (List.prefix_of_prefix_length_le hsecond hfirst hle)).symm

theorem introducer?_eq_some_iff : introducer? text = some (phrase, after) ↔
    text = phrase ++ after ∧ ∃ words ∈ introducers, Spells words phrase := by
  constructor
  · exact spells_of_introducer?
  · rintro ⟨rfl, words, hwords, hphrase⟩
    have hread := phrase?_append_of_spells hphrase (isKey_of_mem_introducers words hwords) after
    have hsome : (introducer? (phrase ++ after)).isSome = true := by
      rw [introducer?, List.findSome?_isSome_iff]
      exact ⟨words, hwords, by rw [hread]; rfl⟩
    obtain ⟨⟨first, behind⟩, hfound⟩ := Option.isSome_iff_exists.mp hsome
    obtain ⟨others, hothers, hfirst⟩ := List.exists_of_findSome?_eq_some hfound
    obtain ⟨htext, -⟩ := spells_of_introducer? hfound
    have hother := spells_of_phrase? (ne_nil_of_mem_introducers others hothers) hfirst
    obtain rfl := eq_of_spells hwords hothers hphrase hother htext
    rw [hfound, ← hfirst, hread]

end Introducers

section Segments

theorem lastSegment?_of_isName {name : Text} (h : IsName name) : lastSegment? name = none :=
  if_neg h.dot_notMem

theorem lastSegment?_append {last : Text} (h : IsName last) (front : Text) :
    lastSegment? (front ++ '.' :: last) = some last := by
  have hlast : ∀ c ∈ last.reverse, (c != '.') = true := by
    intro c hc
    rw [bne_iff_ne]
    rintro rfl
    exact h.dot_notMem (List.mem_reverse.mp hc)
  have hfront : ∀ c ∈ ('.' :: front.reverse).head?, (c != '.') = false := by
    intro c hc
    obtain rfl := Option.some.inj hc
    decide
  have hdot : '.' ∈ front ++ '.' :: last := List.mem_append_right front List.mem_cons_self
  rw [lastSegment?, if_pos hdot, List.reverse_append, List.reverse_cons, List.append_assoc,
    List.singleton_append, takeWhile_append_of_head hlast hfront, List.reverse_reverse]

end Segments

/-- The parts of the reading are what the grammar asks for in front of `after`. -/
structure Reading.Accords (reading : Reading) (after : Text) : Prop where
  phrase : ∃ words ∈ introducers, Spells words reading.phrase
  gap_ne_nil : reading.gap ≠ []
  gap_blank : ∀ c ∈ reading.gap, isBlank c = true
  table : Dotted reading.table
  ended : EndsDotted after
  follower_iff : ∀ distance name,
    reading.follower = some (distance, name) ↔ AliasAt after distance name

theorem read?_eq_some_iff {text : Text} {reading : Reading} : read? text = some reading ↔
    ∃ after, text = reading.phrase ++ (reading.gap ++ (reading.table ++ after)) ∧
      reading.Accords after := by
  constructor
  · intro h
    simp only [read?, Option.bind_eq_bind, Option.bind_eq_some_iff, Prod.exists, Option.pure_def,
      Option.some.injEq] at h
    obtain ⟨phrase, afterPhrase, hphrase, gap, afterGap, hgap, table, after, htable, rfl⟩ := h
    obtain ⟨htext, hspells⟩ := spells_of_introducer? hphrase
    obtain ⟨hafterPhrase, hne⟩ := append_of_blanks? hgap
    obtain ⟨hafterGap, hdotted, hends⟩ := dotted?_eq_some_iff.mp htable
    refine ⟨after, ?_, hspells, hne, fun c hc => isBlank_of_mem_blanks? hgap hc, hdotted, hends,
      fun _ _ => writtenAlias?_eq_some_iff⟩
    rw [htext, hafterPhrase, hafterGap]
  · rintro ⟨after, rfl, h⟩
    obtain ⟨phrase, gap, table, follower⟩ := reading
    have hphrase := introducer?_eq_some_iff.mpr ⟨(rfl : phrase ++ (gap ++ (table ++ after)) = _),
      h.phrase⟩
    have htable := dotted?_eq_some_iff.mpr ⟨(rfl : table ++ after = _), h.table, h.ended⟩
    have hfront : ∀ c ∈ (table ++ after).head?, isBlank c = false := by
      intro c hc
      obtain ⟨d, rest, rfl, hd⟩ := h.table.eq_cons
      obtain rfl := Option.some.inj hc
      exact isBlank_eq_false_of_isFolded hd
    have hgap := blanks?_eq_some h.gap_blank h.gap_ne_nil _ hfront
    have hfollower : follower = writtenAlias? after := by
      apply Option.ext
      rintro ⟨distance, name⟩
      rw [h.follower_iff, writtenAlias?_eq_some_iff]
    simp only [read?, hphrase, hgap, htable, Option.bind_eq_bind, Option.bind_some, Option.pure_def,
      hfollower]

/-- The reading stands in the text at an offset, outside words. -/
def Reading.StandsAt (text : Text) (place : Nat) (reading : Reading) : Prop :=
  ∃ before after, before.length = place ∧
    text = before ++ (reading.phrase ++ (reading.gap ++ (reading.table ++ after))) ∧
    (∀ c ∈ before.getLast?, isFolded c = false) ∧ reading.Accords after

theorem beginsAt_iff_standsAt {text : Text} {place : Nat} {reading : Reading} :
    BeginsAt isFolded (fun rest => read? rest = some reading) text place ↔
      reading.StandsAt text place := by
  constructor
  · rintro ⟨before, rest, hplace, rfl, houtside, hread⟩
    obtain ⟨after, rfl, haccords⟩ := read?_eq_some_iff.mp hread
    exact ⟨before, after, hplace, rfl, houtside, haccords⟩
  · rintro ⟨before, after, hplace, rfl, houtside, haccords⟩
    exact ⟨before, _, hplace, rfl, houtside, read?_eq_some_iff.mpr ⟨after, rfl, haccords⟩⟩

theorem leftmost_readings (text : Text) :
    Leftmost (fun place reading => reading.StandsAt text place) Reading.length (readings text) := by
  have hread : read? [] = none := rfl
  have hleftmost := leftmost_occurrences isFolded Reading.length hread text
  simp only [beginsAt_iff_standsAt] at hleftmost
  exact hleftmost

/-- The reference that a reading at an offset of the text yields. Its written alias is what may
serve as an alias behind the blanks that follow the table name, unless it is reserved. Without one,
the last segment of a dotted table name is the alias, and a plain name has none. -/
structure Yields (keywords : List Text) (text : Text) (found : Nat × Reading)
    (reference : Reference) : Prop where
  keyword_eq : reference.keyword = normalise found.2.phrase
  table_eq : reference.table = found.2.table
  tableSpan_eq : reference.tableSpan =
    Span.ofLength (found.1 + (found.2.phrase.length + found.2.gap.length)) found.2.table.length
  written_iff : ∀ name span, reference.written = some (name, span) ↔ name.upper ∉ keywords ∧
    (∃ c ∈ (text.drop reference.tableSpan.stop).head?, isBlank c = true) ∧
    ∃ distance, AliasAt (text.drop reference.tableSpan.stop) distance name ∧
      span = Span.ofLength (reference.tableSpan.stop + distance) name.length
  alias_of_written : ∀ name span, reference.written = some (name, span) →
    reference.aliasName = some name
  alias_of_unwritten : reference.written = none →
    (IsName reference.table ∧ reference.aliasName = none) ∨
      ∃ front last, Dotted front ∧ IsName last ∧ reference.table = front ++ '.' :: last ∧
        reference.aliasName = some last

theorem yields_ofReading {text : Text} {place : Nat} {reading : Reading}
    (h : reading.StandsAt text place) (keywords : List Text) :
    Yields keywords text (place, reading) (ofReading keywords place reading) := by
  obtain ⟨before, after, rfl, rfl, -, haccords⟩ := h
  have hstop : (ofReading keywords before.length reading).tableSpan.stop =
      (before ++ (reading.phrase ++ (reading.gap ++ reading.table))).length := by
    simp only [ofReading, Span.ofLength, Reading.tableOffset, List.length_append, Nat.add_assoc]
  have hbehind : (before ++ (reading.phrase ++ (reading.gap ++ (reading.table ++ after)))).drop
      (ofReading keywords before.length reading).tableSpan.stop = after := by
    have hcut : before ++ (reading.phrase ++ (reading.gap ++ (reading.table ++ after))) =
        (before ++ (reading.phrase ++ (reading.gap ++ reading.table))) ++ after := by
      simp only [List.append_assoc]
    rw [hcut, hstop, List.drop_left]
  refine ⟨rfl, rfl, rfl, ?_, ?_, ?_⟩
  · intro name span
    rw [hbehind]
    have hwritten : (ofReading keywords before.length reading).written = some (name, span) ↔
        ∃ distance, reading.follower = some (distance, name) ∧ name.upper ∉ keywords ∧
          span = Span.ofLength
            ((ofReading keywords before.length reading).tableSpan.stop + distance) name.length := by
      simp only [ofReading, Option.bind_eq_bind, Option.bind_eq_some_iff, Prod.exists,
        Option.ite_none_left_eq_some, Option.pure_def, Option.some.injEq, Prod.mk.injEq]
      constructor
      · rintro ⟨distance, other, hfollower, hreserved, rfl, rfl⟩
        exact ⟨distance, hfollower, hreserved, rfl⟩
      · rintro ⟨distance, hfollower, hreserved, rfl⟩
        exact ⟨distance, name, hfollower, hreserved, rfl, rfl⟩
    rw [hwritten]
    constructor
    · rintro ⟨distance, hfollower, hreserved, hspan⟩
      have halias := (haccords.follower_iff distance name).mp hfollower
      exact ⟨hreserved, halias.blank_first haccords.ended.not_folded, distance, halias, hspan⟩
    · rintro ⟨hreserved, -, distance, halias, hspan⟩
      exact ⟨distance, (haccords.follower_iff distance name).mpr halias, hreserved, hspan⟩
  · intro name span hwritten
    rw [aliasName, hwritten]
  · intro hwritten
    rw [aliasName, hwritten]
    change (IsName reading.table ∧ lastSegment? reading.table = none) ∨ ∃ front last,
      Dotted front ∧ IsName last ∧ reading.table = front ++ '.' :: last ∧
        lastSegment? reading.table = some last
    rcases haccords.table.isName_or_last with hname | ⟨front, last, hfront, hlast, htable⟩
    · exact Or.inl ⟨hname, lastSegment?_of_isName hname⟩
    · refine Or.inr ⟨front, last, hfront, hlast, htable, ?_⟩
      rw [htable, lastSegment?_append hlast]

/-- The readings whose table names are not reserved, with their places. -/
def kept (keywords : List Text) (text : Text) : List (Nat × Reading) :=
  (readings text).filter fun item => decide (item.2.table.upper ∉ keywords)

theorem findAll_eq_map_kept (keywords : List Text) (text : Text) :
    findAll keywords text =
      (kept keywords text).map fun item => ofReading keywords item.1 item.2 := by
  rw [kept, ← List.filterMap_eq_map, List.filterMap_filter, findAll]
  congr 1
  funext item
  by_cases hreserved : item.2.table.upper ∈ keywords
  · simp [hreserved]
  · simp [hreserved]

/-- The readings of a text are the leftmost ones that the grammar allows in it. Those whose table
name is a reserved word are passed over, and each other one yields one reference, in text order. -/
theorem findAll_yields_leftmost (keywords : List Text) (text : Text) :
    ∃ found : List (Nat × Reading),
      (∀ other, Leftmost (fun place reading => reading.StandsAt text place) Reading.length other ↔
        other = found) ∧
      List.Forall₂ (Yields keywords text)
        (found.filter fun item => decide (item.2.table.upper ∉ keywords))
        (findAll keywords text) := by
  have hleftmost := leftmost_readings text
  refine ⟨readings text, fun other => ⟨fun hother => ?_, ?_⟩, ?_⟩
  · refine hother.eq hleftmost ?_
    rintro place reading ⟨before, after, -, -, -, haccords⟩
    have hgap := List.length_pos_iff.mpr haccords.gap_ne_nil
    simp only [Reading.length, Reading.tableOffset]
    omega
  · rintro rfl
    exact hleftmost
  · rw [findAll_eq_map_kept, kept, List.forall₂_map_right_iff, List.forall₂_same]
    rintro ⟨place, reading⟩ hitem
    exact yields_ofReading (hleftmost.stands_of_mem _ _ (List.mem_of_mem_filter hitem)) keywords

/-- An alias behind AS, one behind a second AS, a digit, a reserved word, and a dotted name. -/
example : (findAll defaultKeywords
      "from a as x join b as as y join c 1 join d as where join s.e on".toList).map aliasName =
    [some ['x'], none, none, none, some ['e']] := by
  decide +kernel

end JoinGraph.Reference
