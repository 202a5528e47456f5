import JoinGraph.Proofs.Reference.Places
import JoinGraph.Proofs.Scope.Conditions
import JoinGraph.Proofs.Text.Spelling
import JoinGraph.Scope

namespace JoinGraph

open Text Word Spelling

namespace Comparison

theorem canon_text (sign : Comparison) : sign.text.canon = sign.text := by
  cases sign <;> decide

theorem read?_canon (text : Text) : read? text.canon = (read? text).map (Prod.map id canon) := by
  fun_cases read? text with
  | case1 rest => rfl
  | case2 rest => rfl
  | case3 rest => rfl
  | case4 text hequal hless hbang =>
      unfold read?
      split
      · next tail htail =>
          obtain ⟨rest, rfl, -⟩ := eq_cons_of_canon (by decide) htail
          exact absurd rfl (hequal rest)
      · next tail htail =>
          obtain ⟨rest, rfl, hrest⟩ := eq_cons_of_canon (by decide) htail
          obtain ⟨others, rfl, -⟩ := eq_cons_of_canon (by decide) hrest
          exact absurd rfl (hless others)
      · next tail htail =>
          obtain ⟨rest, rfl, hrest⟩ := eq_cons_of_canon (by decide) htail
          obtain ⟨others, rfl, -⟩ := eq_cons_of_canon (by decide) hrest
          exact absurd rfl (hbang others)
      · rfl

end Comparison

namespace Column

def canon (column : Column) : Column :=
  ⟨column.qualifier.canon, column.name.canon⟩

theorem canon_text (column : Column) : column.canon.text = column.text.canon := by
  have hdot : canonical '.' = '.' := by decide
  simp [text, canon, hdot]

theorem read?_canon (text : Text) :
    read? text.canon = (read? text).map (Prod.map canon Text.canon) := by
  simp only [read?, identifier?_canon isPlain_canonical, Option.bind_eq_bind]
  refine bind_map_respelled ?_
  rintro ⟨qualifier, after⟩
  simp only [Prod.map]
  split
  · next tail htail =>
      obtain ⟨rest, rfl, rfl⟩ := eq_cons_of_canon (by decide) htail
      rw [identifier?_canon isPlain_canonical]
      refine bind_map_respelled ?_
      rintro ⟨name, behind⟩
      rfl
  · next hnot =>
      split
      · next rest => exact absurd rfl (hnot _)
      · rfl

end Column

namespace Condition

def canon (condition : Condition) : Condition where
  left := condition.left.canon
  leftGap := condition.leftGap.canon
  sign := condition.sign
  rightGap := condition.rightGap.canon
  right := condition.right.canon

theorem canon_text (condition : Condition) : condition.canon.text = condition.text.canon := by
  simp only [text, canon, Column.canon_text, canon_append, Comparison.canon_text]

theorem read?_canon (text : Text) : read? text.canon = (read? text).map canon := by
  simp only [read?, Column.read?_canon, Option.bind_eq_bind]
  refine bind_map_respelled ?_
  rintro ⟨left, afterLeft⟩
  simp only [Prod.map, dropWhile_canon isBlank_canonical, takeWhile_canon isBlank_canonical,
    Comparison.read?_canon]
  refine bind_map_respelled ?_
  rintro ⟨sign, afterSign⟩
  simp only [Prod.map, id_eq, dropWhile_canon isBlank_canonical,
    takeWhile_canon isBlank_canonical, Column.read?_canon]
  refine bind_map_respelled ?_
  rintro ⟨right, after⟩
  rfl

theorem findAll_canon (text : Text) :
    findAll text.canon = (findAll text).map (atPlace canon) := by
  apply occurrences_read_canon isPlain_canonical read?_canon
  intro condition
  rw [canon_text, length_canon]

section Aliases

variable {condition : Condition} {text : Text} {place : Nat} (h : condition.Placed text place)

include h

theorem upper_left_canon :
    condition.canon.left.qualifier.upper = condition.left.qualifier.upper :=
  upper_canon fun c hc => isBlank_eq_false_of_isPlain (h.left_plain c hc)

theorem upper_right_canon :
    condition.canon.right.qualifier.upper = condition.right.qualifier.upper :=
  upper_canon fun c hc => isBlank_eq_false_of_isPlain (h.right_plain c hc)

end Aliases

end Condition

namespace Reference

theorem introducer?_canon (text : Text) :
    introducer? text.canon = (introducer? text).map (Prod.map canon canon) := by
  have hall : ∀ phrases : List (List Text),
      (∀ words ∈ phrases, ∀ word ∈ words, ∀ letter ∈ word, isPlain letter = true) →
      (phrases.findSome? fun words => phrase? words text.canon) =
        (phrases.findSome? fun words => phrase? words text).map (Prod.map canon canon) := by
    intro phrases hplain
    induction phrases with
    | nil => rfl
    | cons words rest ih =>
        obtain ⟨hwords, hrest⟩ := List.forall_mem_cons.mp hplain
        simp only [List.findSome?_cons, phrase?_canon hwords]
        cases phrase? words text with
        | none => exact ih hrest
        | some found => rfl
  exact hall introducers isPlain_of_mem_introducers

theorem startsWithBareAs_canon (text : Text) :
    startsWithBareAs text.canon = startsWithBareAs text := by
  simp only [startsWithBareAs, key?_canon isPlain_of_mem_asWord]
  cases key? asWord text with
  | none => rfl
  | some found =>
      obtain ⟨read, after⟩ := found
      cases after with
      | nil => rfl
      | cons c rest =>
          change (!isFolded (canonical c)) = !isFolded c
          rw [isFolded_canonical]

theorem aliasIdentifier?_canon (text : Text) :
    aliasIdentifier? text.canon = (aliasIdentifier? text).map canon := by
  cases text with
  | nil => rfl
  | cons c rest =>
      have hbare := startsWithBareAs_canon (c :: rest)
      have hname := takeWhile_canon isFolded_canonical (c :: rest)
      rw [canon_cons] at hbare hname
      simp only [canon_cons, aliasIdentifier?, isInitial_canonical, hbare, hname]
      split
      · rfl
      · rfl

theorem writtenAlias?_canon (text : Text) :
    writtenAlias? text.canon = (writtenAlias? text).map (atPlace canon) := by
  simp only [writtenAlias?, takeWhile_canon isBlank_canonical, dropWhile_canon isBlank_canonical,
    key?_canon isPlain_of_mem_asWord, aliasIdentifier?_canon, length_canon]
  have hplain : ((aliasIdentifier? (text.dropWhile isBlank)).map canon).map
        (fun name => ((text.takeWhile isBlank).length, name)) =
      ((aliasIdentifier? (text.dropWhile isBlank)).map
        fun name => ((text.takeWhile isBlank).length, name)).map (atPlace canon) := by
    rw [Option.map_map, Option.map_map]
    rfl
  cases key? asWord (text.dropWhile isBlank) with
  | none => exact hplain
  | some found =>
      obtain ⟨as, afterAs⟩ := found
      simp only [Option.map_some, Prod.map, blanks?_canon]
      cases blanks? afterAs with
      | none => exact hplain
      | some spaced =>
          obtain ⟨space, afterSpace⟩ := spaced
          simp only [Option.map_some, Prod.map, aliasIdentifier?_canon, length_canon,
            Option.map_map]
          rfl

def Reading.canon (reading : Reading) : Reading where
  phrase := reading.phrase.canon
  gap := reading.gap.canon
  table := reading.table.canon
  follower := reading.follower.map (atPlace Text.canon)

theorem read?_canon (text : Text) : read? text.canon = (read? text).map Reading.canon := by
  simp only [read?, introducer?_canon, Option.bind_eq_bind]
  refine bind_map_respelled ?_
  rintro ⟨phrase, afterPhrase⟩
  simp only [Prod.map, blanks?_canon]
  refine bind_map_respelled ?_
  rintro ⟨gap, afterGap⟩
  simp only [Prod.map, dotted?_canon]
  refine bind_map_respelled ?_
  rintro ⟨table, after⟩
  simp only [Prod.map, writtenAlias?_canon]
  rfl

theorem readings_canon (text : Text) :
    readings text.canon = (readings text).map (atPlace Reading.canon) := by
  apply occurrences_read_canon isFolded_canonical read?_canon
  intro reading
  simp only [Reading.length, Reading.tableOffset, Reading.canon, length_canon]

section Normalise

/-- The letters outside ASCII that count as identifier characters. -/
def foreignLetters : List Char :=
  ['\u0130', '\u0131', '\u017F', '\u212A']

theorem mem_foreignLetters {c : Char} (h : isFolded c = true) (hc : 128 ≤ c.toNat) :
    c ∈ foreignLetters := by
  by_contra hnot
  simp only [foreignLetters, List.mem_cons, List.not_mem_nil, or_false, not_or] at hnot
  obtain ⟨hdotted, hdotless, hlong, hkelvin⟩ := hnot
  have hupper : c.toUpper = c := toUpper_eq_self (by omega)
  simp only [isFolded, fold, hdotted, hdotless, hlong, hkelvin, decide_false, Bool.or_self,
    Bool.false_eq_true, if_false, hupper] at h
  have hlt := toNat_lt_of_isPlain h
  omega

theorem isBlank_eq_false_of_mem_capital {c d : Char} (hc : isFolded c = true)
    (hd : d ∈ capital c) : isBlank d = false := by
  by_cases hascii : c.toNat < 128
  · rw [capital, if_pos hascii, List.mem_singleton] at hd
    rw [hd, isBlank_toUpper, isBlank_eq_false_of_isFolded hc]
  · have hall : (foreignLetters.all fun c => (capital c).all fun d => !isBlank d) = true := by
      decide
    have hletter := List.all_eq_true.mp hall c (mem_foreignLetters hc (Nat.not_lt.mp hascii))
    simpa using List.all_eq_true.mp hletter d hd

/-- The character with a plain blank for every blank. -/
def level (c : Char) : Char :=
  if isBlank c then ' ' else c

theorem words_level (text : Text) : words (text.map level) = words text := by
  have hblank : ∀ c, isBlank (level c) = isBlank c := by
    intro c
    unfold level
    split
    · next hc => rw [hc]; rfl
    · rfl
  induction text with
  | nil => rfl
  | cons c rest ih =>
      rw [List.map_cons]
      unfold words
      simp only [hblank]
      split
      · exact ih
      · next hc =>
          have hkept : level c = c := if_neg hc
          rw [hkept]
          cases rest with
          | nil => rfl
          | cons d others =>
              rw [List.map_cons] at ih
              simp only [List.map_cons, hblank, ih]

theorem capital_canonical_level {c : Char} (h : isFolded c = true ∨ isBlank c = true) :
    capital (canonical c) = (capital c).map level := by
  rcases h with hfolded | hblank
  · have hkept : ∀ d ∈ capital c, level d = d := by
      intro d hd
      rw [level, isBlank_eq_false_of_mem_capital hfolded hd]
      rfl
    rw [capital_canonical (isBlank_eq_false_of_isFolded hfolded),
      List.map_congr_left hkept, List.map_id']
  · have hall : (blankCodes.all fun code => decide (capital (canonical (Char.ofNat code)) =
        (capital (Char.ofNat code)).map level)) = true := by
      decide
    have hcode := List.all_eq_true.mp hall c.toNat (mem_blankCodes hblank)
    rw [Char.ofNat_toNat] at hcode
    exact of_decide_eq_true hcode

theorem normalise_canon {phrase : Text}
    (h : ∀ c ∈ phrase, isFolded c = true ∨ isBlank c = true) :
    normalise phrase.canon = normalise phrase := by
  have hupper : phrase.canon.upper = phrase.upper.map level := by
    induction phrase with
    | nil => rfl
    | cons c rest ih =>
        obtain ⟨hc, hrest⟩ := List.forall_mem_cons.mp h
        rw [canon_cons, upper_cons, upper_cons, List.map_append, capital_canonical_level hc,
          ih hrest]
  rw [normalise, normalise, hupper, words_level]

end Normalise

def canon (reference : Reference) : Reference where
  keyword := reference.keyword
  table := reference.table.canon
  tableSpan := reference.tableSpan
  written := reference.written.map (Prod.map Text.canon fun span => span)

theorem ofReading_canon {text : Text} {reading : Reading} (h : read? text = some reading)
    (keywords : List Text) (place : Nat) :
    ofReading keywords place reading.canon = (ofReading keywords place reading).canon := by
  have hphrase : normalise reading.phrase.canon = normalise reading.phrase := by
    simp only [read?, Option.bind_eq_bind, Option.bind_eq_some_iff, Prod.exists, Option.pure_def,
      Option.some.injEq] at h
    obtain ⟨phrase, afterPhrase, hread, gap, afterGap, -, table, after, -, rfl⟩ := h
    obtain ⟨-, words, hwords, hspells⟩ := spells_of_introducer? hread
    exact normalise_canon (hspells.isFolded_or_isBlank (isKey_of_mem_introducers words hwords))
  obtain ⟨after, hbegins⟩ := begins_of_read? h
  have hoffset : reading.canon.tableOffset = reading.tableOffset := by
    simp only [Reading.tableOffset, Reading.canon, length_canon]
  have hlength : reading.canon.table.length = reading.table.length := length_canon _
  have hwritten : (ofReading keywords place reading.canon).written =
      (ofReading keywords place reading).canon.written := by
    simp only [ofReading, canon, hoffset, hlength]
    cases hfollower : reading.follower with
    | none =>
        rw [Reading.canon, hfollower]
        rfl
    | some follower =>
        obtain ⟨distance, name⟩ := follower
        have hnamed := hfollower
        rw [hbegins.follower_eq] at hnamed
        obtain ⟨skipped, rest, -, hfollowed⟩ := followedBy_of_writtenAlias? hnamed
        have hupper : name.canon.upper = name.upper :=
          upper_canon fun c hc => isBlank_eq_false_of_isFolded (hfollowed.folded c hc)
        rw [Reading.canon, hfollower]
        simp only [Option.map_some, atPlace, Option.bind_eq_bind, Option.bind_some, hupper,
          length_canon]
        split
        · rfl
        · rfl
  have hspan : (ofReading keywords place reading.canon).tableSpan =
      (ofReading keywords place reading).canon.tableSpan := by
    simp only [ofReading, canon, hoffset, hlength]
  exact (Reference.mk.injEq _ _ _ _ _ _ _ _).mpr ⟨hphrase, rfl, hspan, hwritten⟩

theorem findAll_canon (keywords : List Text) (text : Text) :
    findAll keywords text.canon = (findAll keywords text).map canon := by
  rw [findAll, findAll, readings_canon, List.filterMap_map, List.map_filterMap]
  apply List.filterMap_congr
  intro found hfound
  obtain ⟨place, reading⟩ := found
  obtain ⟨length, hrecognised⟩ := (foundAt_of_mem_occurrences hfound).recognised
  obtain ⟨other, hread, heq⟩ := Option.map_eq_some_iff.mp hrecognised
  obtain ⟨rfl, -⟩ := Prod.mk.inj heq
  obtain ⟨after, hbegins⟩ := begins_of_read? hread
  have hupper : other.canon.table.upper = other.table.upper := by
    apply upper_canon
    intro c hc
    exact isBlank_eq_false_of_isDotted (isDotted_of_mem_dotted? hbegins.dotted hc)
  simp only [Function.comp_apply, atPlace, hupper, ofReading_canon hread]
  split
  · rfl
  · rfl

theorem lastSegment?_canon (table : Text) :
    lastSegment? table.canon = (lastSegment? table).map Text.canon := by
  have hdot : '.' ∈ symbols := by decide
  have hmem : '.' ∈ table.canon ↔ '.' ∈ table := by
    rw [Text.canon, List.mem_map]
    constructor
    · rintro ⟨c, hc, heq⟩
      rw [(canonical_eq_symbol_iff hdot).mp heq] at hc
      exact hc
    · intro hc
      exact ⟨'.', hc, canonical_symbol hdot⟩
  have hrun : ∀ c, (canonical c != '.') = (c != '.') := by
    intro c
    rw [bne, bne, Bool.eq_iff_iff]
    simp [canonical_eq_symbol_iff hdot]
  simp only [lastSegment?, hmem]
  split
  · have htail := takeWhile_canon (p := fun c => c != '.') hrun table.reverse
    rw [Text.canon, Text.canon, List.map_reverse] at htail
    rw [Option.map_some, Text.canon, Text.canon, htail, List.map_reverse]
  · rfl

theorem aliasName_canon (reference : Reference) :
    reference.canon.aliasName = reference.aliasName.map Text.canon := by
  obtain ⟨keyword, table, tableSpan, written⟩ := reference
  cases written with
  | none => exact lastSegment?_canon table
  | some named => rfl

theorem label_canon (reference : Reference) : reference.canon.label = reference.label.canon := by
  rw [label, aliasName_canon, label]
  cases reference.aliasName with
  | none => rfl
  | some name => rfl

theorem location_canon (reference : Reference) :
    reference.canon.location = reference.location := by
  obtain ⟨keyword, table, tableSpan, written⟩ := reference
  cases written with
  | none => rfl
  | some named => rfl

section Identity

variable {keywords : List Text} {text : Text} {reference : Reference}
  (h : reference ∈ findAll keywords text)

include h

theorem upper_table_canon : reference.canon.table.upper = reference.table.upper := by
  obtain ⟨-, -, hdotted, -⟩ := table_of_mem_findAll h
  exact upper_canon fun c hc => isBlank_eq_false_of_isDotted (hdotted c hc)

theorem id_canon : reference.canon.id = reference.id := by
  have hplaced := placed_of_mem_findAll h
  rw [Reference.id, label_canon, Reference.id]
  apply upper_canon
  intro c hc
  rw [hplaced.label_eq] at hc
  exact isBlank_eq_false_of_isDotted (hplaced.dotted c ((lastSegment_suffix _).subset hc))

end Identity

theorem map_id_findAll_canon (keywords : List Text) (text : Text) :
    (findAll keywords text.canon).map id = (findAll keywords text).map id := by
  rw [findAll_canon, List.map_map]
  apply List.map_congr_left
  intro reference hreference
  exact id_canon hreference

end Reference

end JoinGraph
