import JoinGraph.Proofs.Reference.Reading
import JoinGraph.Proofs.Text.Part

namespace JoinGraph.Reference

open Text Word

/-- The name that stands for the reference, as written: its alias, else its table name. -/
def spelling (reference : Reference) : Text :=
  match reference.written with
  | some (name, _) => name
  | none => reference.table

/-- The last segment of a name, which is the whole name when it has no dot. -/
def lastSegment (name : Text) : Text :=
  (lastSegment? name).getD name

theorem lastSegment_of_notMem {name : Text} (h : '.' ∉ name) : lastSegment name = name := by
  simp [lastSegment, lastSegment?, h]

theorem lastSegment_ne_nil {name : Text} (hne : name ≠ [])
    (hlast : ∀ c ∈ name.getLast?, isFolded c = true) : lastSegment name ≠ [] := by
  rw [lastSegment, lastSegment?]
  split
  · have hfolded := hlast _ (List.getLast?_eq_some_getLast hne)
    have hdot : name.getLast hne ≠ '.' := by
      intro heq
      rw [heq] at hfolded
      revert hfolded
      decide
    have hreverse : name.reverse = name.getLast hne :: name.dropLast.reverse := by
      conv_lhs => rw [← List.dropLast_append_getLast hne]
      rw [List.reverse_append, List.reverse_singleton, List.singleton_append]
    rw [hreverse]
    simp [hdot]
  · exact hne

theorem lastSegment_suffix (name : Text) : lastSegment name <:+ name := by
  rw [lastSegment, lastSegment?]
  split
  · rw [Option.getD_some, ← List.reverse_prefix, List.reverse_reverse]
    exact List.takeWhile_prefix _
  · exact List.suffix_refl name

/-- The reference stands in the text: its name is delimited there, and its identity, label and
location are those of the name. -/
structure Placed (reference : Reference) (text : Text) : Prop where
  delimited : DelimitedAt isFolded reference.spelling text reference.location.start
  stop_eq : reference.location.stop = reference.location.start + reference.spelling.length
  dotted : ∀ c ∈ reference.spelling, isDotted c = true
  spelling_ne_nil : reference.spelling ≠ []
  table_ne_nil : reference.table ≠ []
  label_eq : reference.label = lastSegment reference.spelling
  spelling_eq : reference.spelling = reference.label ∨ reference.spelling = reference.table
  label_ne_nil : reference.label ≠ []

theorem Placed.partAt_label {reference : Reference} {text : Text} (h : reference.Placed text) :
    PartAt reference.label text (reference.location.stop - reference.label.length) := by
  obtain ⟨front, hspelling⟩ := lastSegment_suffix reference.spelling
  have hlabel : PartAt reference.label reference.spelling front.length := by
    refine ⟨front, [], rfl, ?_⟩
    rw [List.append_nil, h.label_eq, hspelling]
  have hlength : reference.spelling.length = front.length + reference.label.length := by
    rw [← hspelling, List.length_append, h.label_eq]
  have hplace : reference.location.stop - reference.label.length =
      reference.location.start + front.length := by
    rw [h.stop_eq, hlength]
    omega
  rw [hplace]
  exact hlabel.trans h.delimited.partAt

section OfReading

variable {text after : Text} {reading : Reading} {place : Nat}

theorem Reading.Begins.table_eq_cons (h : reading.Begins text after) :
    ∃ c rest, reading.table = c :: rest ∧ isFolded c = true := by
  obtain ⟨c, rest, htable⟩ := List.exists_cons_of_ne_nil (append_of_dotted? h.dotted).2
  refine ⟨c, rest, htable, ?_⟩
  have hdotted := h.dotted
  rw [htable, List.cons_append, dotted?] at hdotted
  by_contra hnot
  rw [if_neg hnot] at hdotted
  contradiction

theorem Reading.Begins.tableOffset_pos (h : reading.Begins text after) :
    0 < reading.tableOffset := by
  have hgap := List.length_pos_iff.mpr h.gap_ne_nil
  unfold Reading.tableOffset
  omega

theorem Reading.Begins.table_ne_nil (h : reading.Begins text after) : reading.table ≠ [] :=
  (append_of_dotted? h.dotted).2

theorem Reading.Begins.delimitedAt_table (h : reading.Begins text after) :
    DelimitedAt isFolded reading.table text reading.tableOffset := by
  refine ⟨reading.phrase ++ reading.gap, after, ?_, ?_, ?_, ?_⟩
  · rw [List.length_append, Reading.tableOffset]
  · rw [h.text_eq]
    simp only [List.append_assoc]
  · intro c hc
    rw [List.getLast?_append_of_ne_nil _ h.gap_ne_nil] at hc
    exact isFolded_eq_false_of_isBlank (h.gap_blank c (List.mem_of_getLast? hc))
  · intro c hc
    exact not_isFolded_after_dotted? h.dotted hc

theorem Reading.Begins.skipped_ne_nil (h : reading.Begins text after) {skipped name rest : Text}
    (hfollowed : FollowedBy after skipped name rest) : skipped ≠ [] := by
  rintro rfl
  obtain ⟨c, others, rfl⟩ := List.exists_cons_of_ne_nil hfollowed.ne_nil
  have hfolded := hfollowed.folded c List.mem_cons_self
  have hafter := not_isFolded_after_dotted? h.dotted (c := c)
  rw [hfollowed.text_eq] at hafter
  rw [hafter (by simp)] at hfolded
  contradiction

theorem Reading.Begins.delimitedAt_alias (h : reading.Begins text after)
    {skipped name rest : Text} (hfollowed : FollowedBy after skipped name rest) :
    DelimitedAt isFolded name text (reading.length + skipped.length) := by
  refine ⟨reading.phrase ++ reading.gap ++ reading.table ++ skipped, rest, ?_, ?_, ?_,
    hfollowed.ended⟩
  · simp only [List.length_append, Reading.length, Reading.tableOffset]
  · rw [h.text_eq, hfollowed.text_eq]
    simp only [List.append_assoc]
  · intro c hc
    rw [List.getLast?_append_of_ne_nil _ (h.skipped_ne_nil hfollowed)] at hc
    exact isFolded_eq_false_of_isBlank (hfollowed.skipped.blank_end c hc)

theorem Reading.Begins.partAt_gap (h : reading.Begins text after) :
    PartAt reading.gap text reading.phrase.length := by
  refine ⟨reading.phrase, reading.table ++ after, rfl, ?_⟩
  rw [h.text_eq]
  simp only [List.append_assoc]

theorem Reading.Begins.partAt_skipped (h : reading.Begins text after) {skipped name rest : Text}
    (hfollowed : FollowedBy after skipped name rest) : PartAt skipped text reading.length := by
  refine ⟨reading.phrase ++ reading.gap ++ reading.table, name ++ rest, ?_, ?_⟩
  · simp only [List.length_append, Reading.length, Reading.tableOffset]
  · rw [h.text_eq, hfollowed.text_eq]
    simp only [List.append_assoc]

theorem written_ofReading (keywords : List Text) (place : Nat) (h : reading.Begins text after) :
    (ofReading keywords place reading).written = none ∨
      ∃ skipped name rest, FollowedBy after skipped name rest ∧
        (ofReading keywords place reading).written =
          some (name, Span.ofLength (place + reading.length + skipped.length) name.length) := by
  simp only [ofReading]
  cases hfollower : reading.follower with
  | none => exact Or.inl rfl
  | some follower =>
      obtain ⟨distance, name⟩ := follower
      rw [h.follower_eq] at hfollower
      obtain ⟨skipped, rest, rfl, hfollowed⟩ := followedBy_of_writtenAlias? hfollower
      simp only [Option.bind_eq_bind, Option.bind_some]
      split
      · exact Or.inl rfl
      · refine Or.inr ⟨skipped, name, rest, hfollowed, ?_⟩
        simp only [Option.pure_def, Reading.length, Nat.add_assoc]

theorem placed_of_written_eq_none {keywords : List Text} (hplace : place ≤ text.length)
    (h : reading.Begins (text.drop place) after)
    (hwritten : (ofReading keywords place reading).written = none) :
    (ofReading keywords place reading).Placed text := by
  have hspelling : (ofReading keywords place reading).spelling = reading.table := by
    rw [spelling, hwritten]
    rfl
  have hlocation : (ofReading keywords place reading).location =
      Span.ofLength (place + reading.tableOffset) reading.table.length := by
    rw [location, hwritten]
    rfl
  have hlabel : (ofReading keywords place reading).label = lastSegment reading.table := by
    rw [label, aliasName, hwritten]
    rfl
  refine ⟨?_, ?_, ?_, ?_, h.table_ne_nil, ?_, Or.inr hspelling, ?_⟩
  · rw [hspelling, hlocation]
    exact h.delimitedAt_table.of_drop hplace h.tableOffset_pos
  · rw [hspelling, hlocation]
    rfl
  · rw [hspelling]
    intro c hc
    exact isDotted_of_mem_dotted? h.dotted hc
  · rw [hspelling]
    exact h.table_ne_nil
  · rw [hspelling, hlabel]
  · rw [hlabel]
    apply lastSegment_ne_nil h.table_ne_nil
    intro c hc
    exact isFolded_of_mem_getLast?_dotted? h.dotted hc

theorem placed_of_written_eq_some {keywords : List Text} (hplace : place ≤ text.length)
    (h : reading.Begins (text.drop place) after) {skipped name rest : Text}
    (hfollowed : FollowedBy after skipped name rest)
    (hwritten : (ofReading keywords place reading).written =
      some (name, Span.ofLength (place + reading.length + skipped.length) name.length)) :
    (ofReading keywords place reading).Placed text := by
  have hspelling : (ofReading keywords place reading).spelling = name := by
    rw [spelling, hwritten]
  have hlocation : (ofReading keywords place reading).location =
      Span.ofLength (place + (reading.length + skipped.length)) name.length := by
    rw [location, hwritten, Nat.add_assoc]
  have hlabel : (ofReading keywords place reading).label = name := by
    rw [label, aliasName, hwritten, Option.getD_some]
  refine ⟨?_, ?_, ?_, ?_, h.table_ne_nil, ?_, Or.inl ?_, ?_⟩
  · rw [hspelling, hlocation]
    refine (h.delimitedAt_alias hfollowed).of_drop hplace ?_
    have hskipped := List.length_pos_iff.mpr (h.skipped_ne_nil hfollowed)
    omega
  · rw [hspelling, hlocation]
    rfl
  · rw [hspelling]
    intro c hc
    exact isDotted_of_isFolded (hfollowed.folded c hc)
  · rw [hspelling]
    exact hfollowed.ne_nil
  · rw [hspelling, hlabel, lastSegment_of_notMem (dot_notMem_of_isFolded hfollowed.folded)]
  · rw [hspelling, hlabel]
  · rw [hlabel]
    exact hfollowed.ne_nil

theorem placed_ofReading {keywords : List Text} (hplace : place ≤ text.length)
    (h : reading.Begins (text.drop place) after) :
    (ofReading keywords place reading).Placed text := by
  rcases written_ofReading keywords place h with
    hwritten | ⟨skipped, name, rest, hfollowed, hwritten⟩
  · exact placed_of_written_eq_none hplace h hwritten
  · exact placed_of_written_eq_some hplace h hfollowed hwritten

end OfReading

section Order

variable {keywords : List Text} {text : Text}

theorem begins_of_mem_readings {place : Nat} {reading : Reading}
    (h : (place, reading) ∈ readings text) :
    place ≤ text.length ∧ ∃ after, reading.Begins (text.drop place) after := by
  have hplace := foundAt_of_mem_occurrences h
  obtain ⟨length, hfound⟩ := hplace.recognised
  obtain ⟨found, hread, heq⟩ := Option.map_eq_some_iff.mp hfound
  obtain ⟨rfl, -⟩ := Prod.mk.inj heq
  exact ⟨Nat.le_of_lt hplace.lt_length, begins_of_read? hread⟩

theorem mem_findAll {reference : Reference} (h : reference ∈ findAll keywords text) :
    ∃ place reading, (place, reading) ∈ readings text ∧
      reference = ofReading keywords place reading := by
  obtain ⟨⟨place, reading⟩, hmem, heq⟩ := List.mem_filterMap.mp h
  simp only at heq
  split at heq
  · simp at heq
  · exact ⟨place, reading, hmem, (Option.some.inj heq).symm⟩

theorem placed_of_mem_findAll {reference : Reference} (h : reference ∈ findAll keywords text) :
    reference.Placed text := by
  obtain ⟨place, reading, hmem, rfl⟩ := mem_findAll h
  obtain ⟨hplace, after, hbegins⟩ := begins_of_mem_readings hmem
  exact placed_ofReading hplace hbegins

theorem pairwise_readings (text : Text) : (readings text).Pairwise
    fun first second => first.1 + first.2.length ≤ second.1 := by
  apply pairwise_occurrences
  intro text found length h
  obtain ⟨reading, -, heq⟩ := Option.map_eq_some_iff.mp h
  obtain ⟨rfl, rfl⟩ := Prod.mk.inj heq
  rfl

theorem tableStart_le_location {place : Nat} {reading : Reading} {rest after : Text}
    (h : reading.Begins rest after) :
    place + reading.tableOffset ≤ (ofReading keywords place reading).location.start := by
  rcases written_ofReading keywords place h with
    hwritten | ⟨skipped, name, last, -, hwritten⟩
  · rw [location, hwritten]
    exact Nat.le_refl _
  · rw [location, hwritten]
    simp only [Span.ofLength, Reading.length]
    omega

/-- An alias may be the first word of the next introducing phrase, but it ends before the table
name behind that phrase. -/
theorem location_stop_le {place next : Nat} {reading following : Reading} {after behind : Text}
    (hplace : place ≤ text.length) (hnext : next ≤ text.length)
    (h : reading.Begins (text.drop place) after)
    (hfollowing : following.Begins (text.drop next) behind)
    (hle : place + reading.length ≤ next) :
    (ofReading keywords place reading).location.stop ≤ next + following.tableOffset := by
  rcases written_ofReading keywords place h with
    hwritten | ⟨skipped, name, rest, hfollowed, hwritten⟩
  · rw [location, hwritten]
    simp only [ofReading, Span.ofLength, Reading.length] at hle ⊢
    omega
  · rw [location, hwritten]
    simp only [Span.ofLength]
    by_contra hlt
    have hgapPos := List.length_pos_iff.mpr hfollowing.gap_ne_nil
    have hgap : PartAt following.gap text (next + following.phrase.length) :=
      hfollowing.partAt_gap.trans (PartAt.drop hnext)
    have hname : PartAt name text (place + (reading.length + skipped.length)) :=
      (h.delimitedAt_alias hfollowed).partAt.trans (PartAt.drop hplace)
    have hskipped : PartAt skipped text (place + reading.length) :=
      (h.partAt_skipped hfollowed).trans (PartAt.drop hplace)
    unfold Reading.tableOffset at hlt
    obtain ⟨blank, hblank⟩ := hgap.exists_getElem? (i := next + following.phrase.length) (by omega)
    have hisBlank := hfollowing.gap_blank blank
      (hgap.mem_of_getElem? (Nat.le_refl _) (by omega) hblank)
    have hbehind : next + following.phrase.length < place + (reading.length + skipped.length) := by
      by_contra hge
      have hmem := hname.mem_of_getElem? (by omega) (by omega) hblank
      have hfolded := hfollowed.folded blank hmem
      rw [isFolded_eq_false_of_isBlank hisBlank] at hfolded
      contradiction
    obtain ⟨c, others, htext, hinitial⟩ := hfollowing.initial
    have hc : text[next]? = some c := by
      have hhead := congrArg (·[0]?) htext
      simpa using hhead
    have hmem := hskipped.mem_of_getElem? hle (by omega) hc
    exact hfollowed.skipped.not_initial c hmem hinitial

theorem pairwise_findAll_of {follows : Reference → Reference → Prop}
    (h : (readings text).Pairwise fun first second =>
      follows (ofReading keywords first.1 first.2) (ofReading keywords second.1 second.2)) :
    (findAll keywords text).Pairwise follows := by
  refine h.filterMap _ ?_
  rintro ⟨place, reading⟩ ⟨next, following⟩ hfollows first hfirst second hsecond
  simp only at hfirst hsecond
  split at hfirst
  · simp at hfirst
  · split at hsecond
    · simp at hsecond
    · obtain rfl := Option.some.inj hfirst
      obtain rfl := Option.some.inj hsecond
      exact hfollows

theorem pairwise_findAll (keywords : List Text) (text : Text) : (findAll keywords text).Pairwise
    fun first second => first.location.stop ≤ second.location.start := by
  apply pairwise_findAll_of
  refine (pairwise_readings text).imp_of_mem ?_
  rintro ⟨place, reading⟩ ⟨next, following⟩ hmem hnextMem hle
  obtain ⟨hplace, after, hbegins⟩ := begins_of_mem_readings hmem
  obtain ⟨hnext, behind, hfollowing⟩ := begins_of_mem_readings hnextMem
  calc
    (ofReading keywords place reading).location.stop ≤ next + following.tableOffset :=
      location_stop_le hplace hnext hbegins hfollowing hle
    _ ≤ (ofReading keywords next following).location.start :=
      tableStart_le_location hfollowing

theorem pairwise_tableSpan (keywords : List Text) (text : Text) : (findAll keywords text).Pairwise
    fun first second => first.tableSpan.stop ≤ second.tableSpan.start := by
  apply pairwise_findAll_of
  refine (pairwise_readings text).imp ?_
  rintro ⟨place, reading⟩ ⟨next, following⟩ hle
  simp only [ofReading, Span.ofLength, Reading.length] at hle ⊢
  omega

theorem tableSpan_of_mem_findAll {reference : Reference} (h : reference ∈ findAll keywords text) :
    reference.tableSpan.start < reference.tableSpan.stop ∧
      reference.tableSpan.stop ≤ text.length := by
  obtain ⟨place, reading, hmem, rfl⟩ := mem_findAll h
  obtain ⟨hplace, after, hbegins⟩ := begins_of_mem_readings hmem
  have htable := List.length_pos_iff.mpr hbegins.table_ne_nil
  have hlength := hbegins.length_le
  rw [List.length_drop] at hlength
  simp only [ofReading, Span.ofLength, Reading.length] at hlength ⊢
  omega

theorem table_of_mem_findAll {reference : Reference} (h : reference ∈ findAll keywords text) :
    PartAt reference.table text reference.tableSpan.start ∧
      reference.tableSpan.stop = reference.tableSpan.start + reference.table.length ∧
      (∀ c ∈ reference.table, isDotted c = true) ∧
      ∃ c, text[reference.tableSpan.start]? = some c ∧ isFolded c = true := by
  obtain ⟨place, reading, hmem, rfl⟩ := mem_findAll h
  obtain ⟨hplace, after, hbegins⟩ := begins_of_mem_readings hmem
  have hpart : PartAt reading.table text (place + reading.tableOffset) :=
    (hbegins.delimitedAt_table.of_drop hplace hbegins.tableOffset_pos).partAt
  refine ⟨hpart, rfl, fun _ hc => isDotted_of_mem_dotted? hbegins.dotted hc, ?_⟩
  obtain ⟨c, rest, htable, hfolded⟩ := hbegins.table_eq_cons
  refine ⟨c, ?_, hfolded⟩
  have hfirst := hpart.getElem?_add (List.length_pos_iff.mpr hbegins.table_ne_nil)
  rw [htable] at hfirst
  exact hfirst

end Order

def shiftRight (reference : Reference) (offset : Nat) : Reference :=
  { reference with
    tableSpan := reference.tableSpan.shiftRight offset
    written := reference.written.map fun (name, span) => (name, span.shiftRight offset) }

theorem location_shiftRight (reference : Reference) (offset : Nat) :
    (reference.shiftRight offset).location = reference.location.shiftRight offset := by
  cases hwritten : reference.written <;> simp [location, shiftRight, hwritten]

theorem label_shiftRight (reference : Reference) (offset : Nat) :
    (reference.shiftRight offset).label = reference.label := by
  cases hwritten : reference.written <;> simp [label, aliasName, shiftRight, hwritten]

theorem id_shiftRight (reference : Reference) (offset : Nat) :
    (reference.shiftRight offset).id = reference.id := by
  rw [id, id, label_shiftRight]

theorem ofReading_add (keywords : List Text) (place offset : Nat) (reading : Reading) :
    ofReading keywords (place + offset) reading =
      (ofReading keywords place reading).shiftRight offset := by
  have hspan : ∀ start length : Nat, Span.ofLength (start + offset) length =
      (Span.ofLength start length).shiftRight offset := by
    intro start length
    simp only [Span.ofLength, Span.shiftRight, Span.mk.injEq, true_and]
    omega
  have htable : place + offset + reading.tableOffset = place + reading.tableOffset + offset := by
    omega
  have halias : ∀ distance, place + reading.tableOffset + offset + reading.table.length + distance =
      place + reading.tableOffset + reading.table.length + distance + offset := by
    intro distance
    omega
  simp only [ofReading, shiftRight, htable, halias, hspan, Reference.mk.injEq, true_and]
  cases reading.follower with
  | none => rfl
  | some follower =>
      simp only [Option.bind_eq_bind, Option.bind_some]
      split <;> rfl

theorem filterMap_readings_add (keywords : List Text) (text : Text) (offset : Nat) :
    ((readings text).map fun (place, reading) => (place + offset, reading)).filterMap
        (fun (place, reading) =>
          if reading.table.upper ∈ keywords then none else some (ofReading keywords place reading)) =
      (findAll keywords text).map fun reference => reference.shiftRight offset := by
  rw [List.filterMap_map, findAll, List.map_filterMap]
  congr 1
  funext found
  simp only [Function.comp_apply, ofReading_add]
  split <;> rfl

end JoinGraph.Reference
