import JoinGraph.Json.Reader
import JoinGraph.Proofs.Text.Words
import Mathlib.Data.List.Forall2

namespace JoinGraph.Json

/-- The text consists of characters that mean nothing between the parts of a value. -/
def Gap (text : Text) : Prop :=
  ∀ c ∈ text, isGap c = true

/-- What follows a value cannot be more of a number. -/
def Ends (rest : Text) : Prop :=
  ∀ c ∈ rest.head?, c.isDigit = false ∧ c ≠ '.' ∧ c ≠ 'e' ∧ c ≠ 'E'

theorem skipGaps_append {gap : Text} (h : Gap gap) (rest : Text) :
    skipGaps (gap ++ rest) = skipGaps rest :=
  List.dropWhile_append_of_pos h

theorem skipGaps_cons {c : Char} (h : isGap c = false) (rest : Text) :
    skipGaps (c :: rest) = c :: rest :=
  List.dropWhile_cons_of_neg (Bool.eq_false_iff.mp h)

theorem ends_append {gap rest : Text} (hgap : Gap gap) (hrest : Ends rest) :
    Ends (gap ++ rest) := by
  cases gap with
  | nil => exact hrest
  | cons c more =>
      have hc : isGap c = true := hgap c List.mem_cons_self
      rintro d ⟨⟩
      simp only [isGap, Bool.or_eq_true, beq_iff_eq] at hc
      obtain ((rfl | rfl) | rfl) | rfl := hc
      all_goals decide

section Numbers

variable {rest : Text}

theorem isDigit_of_mem_decimal {n : Nat} {c : Char} (h : c ∈ Text.decimal n) : c.isDigit = true :=
  Nat.isDigit_of_mem_toDigits (by decide) (by decide) h

/-- A zero in front is the whole number. -/
theorem length_decimal_of_head? {n : Nat} (h : (Text.decimal n).head? = some '0') :
    (Text.decimal n).length = 1 := by
  induction n using Nat.strongRecOn with
  | ind n ih =>
      by_cases hsmall : n < 10
      · rw [Text.decimal, Nat.toDigits_of_lt_base hsmall]
        rfl
      · rw [Text.decimal, Nat.toDigits_of_base_le (by decide) (Nat.le_of_not_lt hsmall),
          List.head?_append_of_ne_nil _ Nat.toDigits_ne_nil] at h
        have hlength := ih (n / 10) (by omega) h
        obtain ⟨c, hc⟩ := List.length_eq_one_iff.mp hlength
        rw [Text.decimal] at hc
        rw [hc, List.head?_singleton, Option.some.injEq] at h
        have hvalue := Nat.ofDigitChars_ten_toDigits (n := n / 10)
        rw [hc, h] at hvalue
        have hzero : 0 = n / 10 := hvalue
        omega

theorem value_decimal (n : Nat) : Numeral.value (Text.decimal n) = n :=
  Nat.ofDigitChars_eq_foldl.symm.trans Nat.ofDigitChars_ten_toDigits

theorem readDigits_decimal (n : Nat) (h : Ends rest) :
    readDigits (Text.decimal n ++ rest) = some (Text.decimal n, rest) := by
  have htake : (Text.decimal n ++ rest).takeWhile Char.isDigit = Text.decimal n :=
    Word.takeWhile_append_of_head (fun c hc => isDigit_of_mem_decimal hc) fun c hc => (h c hc).1
  simp only [readDigits, htake, List.drop_left]
  exact if_neg Nat.toDigits_ne_nil

theorem readDecimals_of_ends (h : Ends rest) : readDecimals rest = some ([], rest) := by
  rw [readDecimals]
  rintro more rfl
  exact (h '.' rfl).2.1 rfl

theorem readExponent_of_ends (h : Ends rest) : readExponent rest = some (none, rest) := by
  cases rest with
  | nil => rfl
  | cons c more =>
      have hc := (h c rfl).2.2
      exact if_neg (not_or.mpr hc)

theorem exists_decimal_eq_cons (n : Nat) :
    ∃ c digits, c.isDigit = true ∧ Text.decimal n = c :: digits := by
  obtain ⟨c, digits, hdigits⟩ := List.exists_cons_of_ne_nil (Nat.toDigits_ne_nil (n := n) (b := 10))
  refine ⟨c, digits, isDigit_of_mem_decimal (n := n) ?_, hdigits⟩
  rw [Text.decimal, hdigits]
  exact List.mem_cons_self

theorem readNumber_integer (value : Int) (h : Ends rest) :
    readNumber (Text.integer value ++ rest) = some (.int value, rest) := by
  have hzero : ¬ (1 < (Text.decimal value.natAbs).length ∧
      (Text.decimal value.natAbs).head? = some '0') := by
    rintro ⟨hlength, hhead⟩
    have hone := length_decimal_of_head? hhead
    omega
  by_cases hneg : value < 0
  · have hvalue : -(value.natAbs : Int) = value := by omega
    simp only [readNumber, Text.integer, if_pos hneg, List.cons_append, readDigits_decimal _ h,
      Option.bind_eq_bind, Option.bind_some, if_neg hzero, readDecimals_of_ends h,
      readExponent_of_ends h, true_and, if_true, value_decimal, hvalue, Option.pure_def]
  · have hvalue : (value.natAbs : Int) = value := by omega
    obtain ⟨c, digits, hc, hdigits⟩ := exists_decimal_eq_cons value.natAbs
    rw [Text.integer, if_neg hneg, readNumber]
    · simp only [readDigits_decimal _ h, Option.bind_eq_bind, Option.bind_some, if_neg hzero,
        readDecimals_of_ends h, readExponent_of_ends h, true_and, if_true, value_decimal, hvalue,
        Option.pure_def, Bool.false_eq_true, if_false]
    · intro unsigned heq
      rw [hdigits] at heq
      obtain ⟨rfl, -⟩ := List.cons_eq_cons.mp heq
      cases hc

end Numbers

section Sequences

variable {α : Type} {one : Nat → Text → Option (α × Text)}
  {many : Nat → Text → Option (List α × Text)} {close : Char}

/-- The reader reads the item from the text, behind a gap and in front of anything that ends a
value. -/
def Reads (one : Nat → Text → Option (α × Text)) (item : α) (text : Text) : Prop :=
  ∀ (atMost : Nat) (gap rest : Text), 2 * text.length ≤ atMost → Gap gap → Ends rest →
    one atMost (gap ++ (text ++ rest)) = some (item, rest)

/-- A reader of several items, with commas between them, up to a closing bracket. -/
structure Lists (one : Nat → Text → Option (α × Text)) (many : Nat → Text → Option (List α × Text))
    (close : Char) : Prop where
  more : ∀ {atMost source item rest others}, one atMost source = some (item, rest) →
    skipGaps rest = ',' :: others → many (atMost + 1) source =
      (many atMost others).map fun (items, after) => (item :: items, after)
  last : ∀ {atMost source item rest after}, one atMost source = some (item, rest) →
    skipGaps rest = close :: after → many (atMost + 1) source = some ([item], after)
  isGap_close : isGap close = false
  ends_close : ∀ after, Ends (close :: after)

theorem Lists.reads_join (h : Lists one many close) {items : List α} {texts : List Text}
    (hreads : List.Forall₂ (Reads one) items texts) (hne : items ≠ []) {between : Text}
    (hbetween : Gap between) {atMost : Nat}
    (hmost : 2 * (Text.join (',' :: between) texts).length < atMost) {gap behind : Text}
    (hgap : Gap gap) (hbehind : Gap behind) (rest : Text) :
    many atMost (gap ++ (Text.join (',' :: between) texts ++ (behind ++ close :: rest))) =
      some (items, rest) := by
  induction hreads generalizing atMost gap with
  | nil => contradiction
  | @cons item text items texts hfirst hrest ih =>
      cases atMost with
      | zero => contradiction
      | succ atMost =>
          have hends : Ends (behind ++ close :: rest) := ends_append hbehind (h.ends_close rest)
          have hclose : skipGaps (behind ++ close :: rest) = close :: rest := by
            rw [skipGaps_append hbehind, skipGaps_cons h.isGap_close]
          cases hrest with
          | nil =>
              rw [Text.join, List.intercalate_singleton] at hmost ⊢
              exact h.last (hfirst atMost gap _ (by omega) hgap hends) hclose
          | @cons next second items texts hsecond hothers =>
              have hcomma : ∀ others, Ends (',' :: others) := by
                rintro others c ⟨⟩
                decide
              have hjoin : Text.join (',' :: between) (text :: second :: texts) =
                  text ++ ',' :: (between ++ Text.join (',' :: between) (second :: texts)) := by
                rw [Text.join, List.intercalate_cons_cons, List.append_assoc, List.cons_append]
                rfl
              rw [hjoin, List.length_append, List.length_cons, List.length_append] at hmost
              rw [hjoin, List.append_assoc, List.cons_append, List.append_assoc,
                h.more (hfirst atMost gap _ (by omega) hgap (hcomma _))
                  (skipGaps_cons (by decide) _),
                ih (List.cons_ne_nil _ _) (by omega) hbetween]
              rfl

/-- A field of an object, behind the comma before it. -/
def readField (atMost : Nat) (source : Text) : Option ((Text × Json) × Text) :=
  match skipGaps source with
  | '"' :: named =>
      match readText ⟨[], none⟩ named with
      | none => none
      | some (name, afterName) =>
          match skipGaps afterName with
          | ':' :: valued =>
              (readValue atMost valued).map fun (value, rest) => ((name, value), rest)
          | _ => none
  | _ => none

theorem lists_readItems : Lists readValue readItems ']' where
  more hitem hcomma := by
    rw [readItems, hitem]
    simp only [hcomma]
  last hitem hclose := by
    rw [readItems, hitem]
    simp only [hclose]
  isGap_close := rfl
  ends_close := by
    rintro after c ⟨⟩
    decide

theorem exists_of_readField {atMost : Nat} {source rest : Text} {field : Text × Json}
    (h : readField atMost source = some (field, rest)) :
    ∃ named afterName valued, skipGaps source = '"' :: named ∧
      readText ⟨[], none⟩ named = some (field.1, afterName) ∧
      skipGaps afterName = ':' :: valued ∧ readValue atMost valued = some (field.2, rest) := by
  rw [readField] at h
  split at h
  · next named hnamed =>
      split at h
      · cases h
      · next name afterName hname =>
          split at h
          · next valued hvalued =>
              obtain ⟨⟨value, behind⟩, hvalue, heq⟩ := Option.map_eq_some_iff.mp h
              obtain ⟨rfl, rfl⟩ := Prod.mk.inj heq
              exact ⟨named, afterName, valued, hnamed, hname, hvalued, hvalue⟩
          · cases h
  · cases h

theorem lists_readFields : Lists readField readFields '\x7d' where
  more hfield hcomma := by
    obtain ⟨named, afterName, valued, hnamed, hname, hvalued, hvalue⟩ := exists_of_readField hfield
    rw [readFields]
    simp only [hnamed, hname, hvalued, hvalue, hcomma]
  last hfield hclose := by
    obtain ⟨named, afterName, valued, hnamed, hname, hvalued, hvalue⟩ := exists_of_readField hfield
    rw [readFields]
    simp only [hnamed, hname, hvalued, hvalue, hclose]
  isGap_close := rfl
  ends_close := by
    rintro after c ⟨⟩
    decide

end Sequences

section Values

variable {indent : Option Text} {level : Nat}

/-- No number in the value has a point or an exponent. -/
inductive Whole : Json → Prop
  | null : Whole .null
  | bool (value : Bool) : Whole (.bool value)
  | int (value : Int) : Whole (.int value)
  | text (value : Text) : Whole (.text value)
  | list {items : List Json} (h : ∀ item ∈ items, Whole item) : Whole (.list items)
  | object {fields : List (Text × Json)} (h : ∀ field ∈ fields, Whole field.2) :
      Whole (.object fields)

theorem readValue_append {gap : Text} (h : Gap gap) (atMost : Nat) (source : Text) :
    readValue (atMost + 1) (gap ++ source) = readValue (atMost + 1) source := by
  rw [readValue, readValue, skipGaps_append h]

theorem reads_of_readValue {value : Json} {text : Text} (hne : text ≠ [])
    (h : ∀ atMost rest, 2 * text.length ≤ atMost + 1 → Ends rest →
      readValue (atMost + 1) (text ++ rest) = some (value, rest)) :
    Reads readValue value text := by
  intro atMost gap rest hmost hgap hends
  have hpos : 0 < text.length := List.length_pos_of_ne_nil hne
  obtain ⟨less, rfl⟩ := Nat.exists_eq_succ_of_ne_zero (show atMost ≠ 0 by omega)
  rw [readValue_append hgap]
  exact h less rest hmost hends

theorem reads_text (value : Text) : Reads readValue (.text value) (encodeText value) := by
  have hne : encodeText value ≠ [] := List.cons_ne_nil _ _
  refine reads_of_readValue hne ?_
  intro atMost rest _ _
  have htext : encodeText value ++ rest = '"' :: (value.flatMap escapeChar ++ '"' :: rest) := by
    rw [encodeText, List.cons_append, List.cons_append, List.append_assoc, List.singleton_append]
  rw [htext, readValue, skipGaps_cons (by decide)]
  simp only [readText_flatMap_escapeChar, Option.map_some, List.reverse_nil, List.nil_append]

theorem readValue_of_digit {c : Char} (h : c.isDigit = true ∨ c = '-') (atMost : Nat)
    (rest : Text) : readValue (atMost + 1) (c :: rest) =
      (readWord (c :: rest)).orElse fun () => readNumber (c :: rest) := by
  have hdiffers : ∀ {d : Char}, d.isDigit = false → d ≠ '-' → c ≠ d := by
    rintro d hdigit hminus rfl
    rcases h with hc | hc
    · rw [hdigit] at hc
      contradiction
    · exact hminus hc
  have hgap : isGap c = false := by
    simp only [isGap, Bool.or_eq_false_iff, beq_eq_false_iff_ne]
    exact ⟨⟨⟨hdiffers rfl (by decide), hdiffers rfl (by decide)⟩, hdiffers rfl (by decide)⟩,
      hdiffers rfl (by decide)⟩
  rw [readValue, skipGaps_cons hgap]
  split
  · next heq => exact absurd (List.cons_eq_cons.mp heq).1 (hdiffers rfl (by decide))
  · next heq => exact absurd (List.cons_eq_cons.mp heq).1 (hdiffers rfl (by decide))
  · next heq => exact absurd (List.cons_eq_cons.mp heq).1 (hdiffers rfl (by decide))
  · rfl

theorem isPrefixOf_eq_false {c d : Char} (h : c.isDigit = true) (hd : d.isDigit = false)
    (word rest : Text) : (d :: word).isPrefixOf (c :: rest) = false := by
  have hne : (d == c) = false := by
    rw [beq_eq_false_iff_ne]
    rintro rfl
    rw [h] at hd
    contradiction
  rw [List.isPrefixOf, hne, Bool.false_and]

theorem readWord_of_digit {c : Char} (h : c.isDigit = true) (rest : Text) :
    readWord (c :: rest) = none ∧ readWord ('-' :: c :: rest) = none := by
  have hfirst : ∀ entry ∈ words, entry.1.toList.isPrefixOf (c :: rest) = false ∧
      entry.1.toList.isPrefixOf ('-' :: c :: rest) = false := by
    simp only [words, List.forall_mem_cons, List.not_mem_nil, false_imp_iff, implies_true, and_true]
    refine ⟨⟨?_, rfl⟩, ⟨?_, rfl⟩, ⟨?_, rfl⟩, ⟨?_, rfl⟩, ⟨?_, rfl⟩, ?_, ?_⟩
    all_goals exact isPrefixOf_eq_false h rfl _ _
  simp only [readWord, List.findSome?_eq_none_iff]
  constructor
  · intro entry hentry
    exact if_neg (Bool.eq_false_iff.mp (hfirst entry hentry).1)
  · intro entry hentry
    exact if_neg (Bool.eq_false_iff.mp (hfirst entry hentry).2)

theorem reads_int (value : Int) : Reads readValue (.int value) (Text.integer value) := by
  obtain ⟨c, digits, hc, hdigits⟩ := exists_decimal_eq_cons value.natAbs
  have hne : Text.integer value ≠ [] := by
    rw [Text.integer, hdigits]
    split <;> exact List.cons_ne_nil _ _
  refine reads_of_readValue hne ?_
  intro atMost rest _ hends
  rw [← readNumber_integer value hends, Text.integer, hdigits]
  split
  · rw [List.cons_append, List.cons_append, readValue_of_digit (Or.inr rfl),
      (readWord_of_digit hc _).2]
    rfl
  · rw [List.cons_append, readValue_of_digit (Or.inl hc), (readWord_of_digit hc _).1]
    rfl

theorem renderItems_eq_map (items : List Json) :
    renderItems indent level items = items.map (renderAt indent (level + 1)) := by
  induction items with
  | nil => rfl
  | cons item rest ih => rw [renderItems, ih, List.map_cons]

def fieldText (indent : Option Text) (level : Nat) (field : Text × Json) : Text :=
  encodeText field.1 ++ [':', ' '] ++ renderAt indent level field.2

theorem renderFields_eq_map (fields : List (Text × Json)) :
    renderFields indent level fields = fields.map (fieldText indent (level + 1)) := by
  induction fields with
  | nil => rfl
  | cons field rest ih =>
      rw [renderFields, ih, List.map_cons]
      rfl

theorem reads_fieldText {field : Text × Json}
    (h : Reads readValue field.2 (renderAt indent level field.2)) :
    Reads readField field (fieldText indent level field) := by
  intro atMost gap rest hmost hgap hends
  have htext : fieldText indent level field ++ rest =
      '"' :: (field.1.flatMap escapeChar ++ '"' :: ':' ::
        ([' '] ++ (renderAt indent level field.2 ++ rest))) := by
    simp only [fieldText, encodeText, List.append_assoc, List.cons_append, List.nil_append]
  have hlength : (renderAt indent level field.2).length ≤
      (fieldText indent level field).length := by
    rw [fieldText, List.length_append]
    omega
  have hblank : Gap [' '] := by
    rintro c (_ | ⟨_, ⟨⟩⟩)
    rfl
  rw [htext, readField, skipGaps_append hgap, skipGaps_cons (by decide)]
  simp only [readText_flatMap_escapeChar, skipGaps_cons (show isGap ':' = false from rfl),
    h atMost [' '] rest (by omega) hblank hends, Option.map_some, List.reverse_nil, List.nil_append]

theorem ne_close_of_readItems {atMost : Nat} {source : Text} {found : List Json × Text}
    (h : readItems atMost source = some found) : ∀ after, skipGaps source ≠ ']' :: after := by
  intro after hclose
  cases atMost with
  | zero => cases h
  | succ atMost =>
      have hvalue : readValue atMost source = none := by
        cases atMost with
        | zero => rfl
        | succ atMost =>
            rw [readValue, hclose]
            rfl
      rw [readItems, hvalue] at h
      cases h

theorem ne_close_of_readFields {atMost : Nat} {source : Text}
    {found : List (Text × Json) × Text} (h : readFields atMost source = some found) :
    ∀ after, skipGaps source ≠ '\x7d' :: after := by
  intro after hclose
  cases atMost with
  | zero => cases h
  | succ atMost =>
      rw [readFields, hclose] at h
      cases h

theorem enclose_append {first last : Char} {texts : List Text} (h : texts ≠ []) (rest : Text) :
    enclose indent level first last texts ++ rest =
      first :: (lineBreak indent (level + 1) ++ (Text.join (comma indent (level + 1)) texts ++
        (lineBreak indent level ++ last :: rest))) := by
  have hnonempty : ¬ texts.isEmpty = true := List.isEmpty_iff.not.mpr h
  rw [enclose, if_neg hnonempty]
  simp only [List.append_assoc, List.cons_append, List.nil_append]

theorem length_join_lt_length_enclose (indent : Option Text) (level : Nat) (first last : Char)
    (texts : List Text) : (Text.join (comma indent (level + 1)) texts).length + 1 <
      (enclose indent level first last texts).length := by
  by_cases h : texts = []
  · subst h
    exact Nat.lt_succ_self 1
  · have htext : enclose indent level first last texts ++ [] = first ::
        (lineBreak indent (level + 1) ++ (Text.join (comma indent (level + 1)) texts ++
          (lineBreak indent level ++ [last]))) := enclose_append h []
    have hlength := congrArg List.length htext
    simp only [List.length_append, List.length_cons, List.length_nil] at hlength
    omega

section Indented

variable (hindent : ∀ unit ∈ indent, Gap unit)

include hindent

theorem gap_lineBreak (level : Nat) : Gap (lineBreak indent level) := by
  cases indent with
  | none => exact List.forall_mem_nil _
  | some unit =>
      rw [lineBreak, Gap, List.forall_mem_cons]
      refine ⟨rfl, ?_⟩
      intro c hc
      obtain ⟨part, hpart, hmem⟩ := List.mem_flatten.mp hc
      rw [(List.mem_replicate.mp hpart).2] at hmem
      exact hindent unit rfl c hmem

theorem exists_comma_eq (level : Nat) : ∃ between, Gap between ∧
    comma indent level = ',' :: between := by
  cases indent with
  | none =>
      refine ⟨[' '], ?_, rfl⟩
      rw [Gap, List.forall_mem_singleton]
      rfl
  | some unit => exact ⟨lineBreak (some unit) level, gap_lineBreak hindent level, rfl⟩

theorem Lists.reads_enclose {α : Type} {one : Nat → Text → Option (α × Text)}
    {many : Nat → Text → Option (List α × Text)} {first close : Char} (h : Lists one many close)
    {items : List α} {texts : List Text} (hreads : List.Forall₂ (Reads one) items texts)
    (hne : items ≠ []) {atMost : Nat}
    (hmost : 2 * (enclose indent level first close texts).length ≤ atMost + 1) (rest : Text) :
    ∃ source, enclose indent level first close texts ++ rest = first :: source ∧
      many atMost source = some (items, rest) := by
  have htexts : texts ≠ [] := by
    intro hnil
    subst hnil
    exact hne (List.forall₂_nil_right_iff.mp hreads)
  obtain ⟨between, hbetween, hcomma⟩ := exists_comma_eq hindent (level + 1)
  have hshorter := length_join_lt_length_enclose indent level first close texts
  refine ⟨_, enclose_append htexts rest, ?_⟩
  rw [hcomma] at hshorter ⊢
  exact h.reads_join hreads hne hbetween (by omega) (gap_lineBreak hindent _)
    (gap_lineBreak hindent _) rest

theorem reads_list {items : List Json} {texts : List Text}
    (hreads : List.Forall₂ (Reads readValue) items texts) :
    Reads readValue (.list items) (enclose indent level '[' ']' texts) := by
  have hne : enclose indent level '[' ']' texts ≠ [] :=
    List.length_pos_iff.mp (Nat.zero_lt_of_lt (length_join_lt_length_enclose _ _ _ _ _))
  refine reads_of_readValue hne ?_
  intro atMost rest hmost _
  by_cases hitems : items = []
  · subst hitems
    rw [List.forall₂_nil_left_iff.mp hreads]
    rfl
  · obtain ⟨source, hsource, hread⟩ :=
      lists_readItems.reads_enclose hindent hreads hitems hmost rest
    rw [hsource, readValue, skipGaps_cons (by decide)]
    simp only [hread, Option.map_some]
    split
    · next hclose => exact absurd hclose (ne_close_of_readItems hread _)
    · rfl

theorem reads_object {fields : List (Text × Json)} {texts : List Text}
    (hreads : List.Forall₂ (Reads readField) fields texts) :
    Reads readValue (.object fields) (enclose indent level '\x7b' '\x7d' texts) := by
  have hne : enclose indent level '\x7b' '\x7d' texts ≠ [] :=
    List.length_pos_iff.mp (Nat.zero_lt_of_lt (length_join_lt_length_enclose _ _ _ _ _))
  refine reads_of_readValue hne ?_
  intro atMost rest hmost _
  by_cases hfields : fields = []
  · subst hfields
    rw [List.forall₂_nil_left_iff.mp hreads]
    rfl
  · obtain ⟨source, hsource, hread⟩ :=
      lists_readFields.reads_enclose hindent hreads hfields hmost rest
    rw [hsource, readValue, skipGaps_cons (by decide)]
    simp only [hread, Option.map_some]
    split
    · next hclose => exact absurd hclose (ne_close_of_readFields hread _)
    · rfl

theorem reads_renderAt {value : Json} (h : Whole value) (level : Nat) :
    Reads readValue value (renderAt indent level value) := by
  induction h generalizing level with
  | null =>
      refine reads_of_readValue (List.cons_ne_nil _ _) ?_
      intro atMost rest _ _
      rfl
  | bool value =>
      cases value <;> refine reads_of_readValue (List.cons_ne_nil _ _) ?_
      all_goals
        intro atMost rest _ _
        rfl
  | int value => exact reads_int value
  | text value => exact reads_text value
  | @list items _ ih =>
      -- The equation of the mutual definition is costly to derive, so it is stated.
      change Reads readValue _ (enclose indent level '[' ']' (renderItems indent level items))
      rw [renderItems_eq_map]
      refine reads_list hindent ?_
      rw [List.forall₂_map_right_iff, List.forall₂_same]
      exact fun item hitem => ih item hitem (level + 1)
  | @object fields _ ih =>
      change Reads readValue _
        (enclose indent level '\x7b' '\x7d' (renderFields indent level fields))
      rw [renderFields_eq_map]
      refine reads_object hindent ?_
      rw [List.forall₂_map_right_iff, List.forall₂_same]
      exact fun field hfield => reads_fieldText (ih field hfield (level + 1))

theorem parse?_render_append {value : Json} (h : Whole value) {rest : Text} (hends : Ends rest) :
    parse? (value.render indent ++ rest) = if skipGaps rest = [] then some value else none := by
  have hmost : 2 * (value.render indent).length ≤ 2 * (value.render indent ++ rest).length + 2 := by
    rw [List.length_append]
    omega
  have hread : readValue (2 * (value.render indent ++ rest).length + 2)
      (value.render indent ++ rest) = some (value, rest) :=
    reads_renderAt hindent h 0 _ [] rest hmost (List.forall_mem_nil _) hends
  rw [parse?, hread]

theorem parse?_render {value : Json} (h : Whole value) :
    parse? (value.render indent) = some value := by
  have hends : Ends [] := fun c hc => absurd hc (Option.not_mem_none c)
  have hread := parse?_render_append hindent h hends
  rwa [List.append_nil] at hread

end Indented

end Values

end JoinGraph.Json
