import JoinGraph.Condition
import JoinGraph.Proofs.Text.Occurrences
import JoinGraph.Proofs.Text.Part
import JoinGraph.Proofs.Text.Words

namespace JoinGraph

open Text Word

/-- The characters that signs of comparison are made of. -/
def isSign (c : Char) : Bool :=
  c == '=' || c == '<' || c == '>' || c == '!'

theorem isBarrier_of_isSign {c : Char} (h : isSign c = true) : IsBarrier c := by
  simp only [isSign, Bool.or_eq_true, beq_iff_eq] at h
  rcases h with ((rfl | rfl) | rfl) | rfl <;> decide

theorem isSign_eq_false_of_isDotted {c : Char} (h : isDotted c = true) : isSign c = false := by
  by_contra hsign
  rw [(isBarrier_of_isSign (by simpa using hsign)).not_dotted] at h
  contradiction

theorem isSign_eq_false_of_isBlank {c : Char} (h : isBlank c = true) : isSign c = false := by
  by_contra hsign
  rw [(isBarrier_of_isSign (by simpa using hsign)).not_blank] at h
  contradiction

namespace Comparison

theorem isSign_of_mem_text {sign : Comparison} {c : Char} (h : c ∈ sign.text) :
    isSign c = true := by
  have hall : (sign.text.all isSign) = true := by cases sign <;> decide
  exact List.all_eq_true.mp hall c h

theorem text_ne_nil (sign : Comparison) : sign.text ≠ [] := by
  cases sign <;> exact List.cons_ne_nil _ _

theorem read?_text_append (sign : Comparison) (rest : Text) :
    read? (sign.text ++ rest) = some (sign, rest) := by
  cases sign <;> rfl

end Comparison

/-- A column that is made of two ASCII identifiers. -/
structure Column.IsPlain (column : Column) : Prop where
  qualifier : IsIdentifier column.qualifier
  name : IsIdentifier column.name

theorem Column.IsPlain.isDotted_of_mem {column : Column} (h : column.IsPlain) {c : Char}
    (hc : c ∈ column.text) : isDotted c = true := by
  rw [Column.text, List.mem_append, List.mem_cons] at hc
  rcases hc with hc | rfl | hc
  · exact isDotted_of_isPlain (h.qualifier.plain c hc)
  · decide
  · exact isDotted_of_isPlain (h.name.plain c hc)

theorem Column.append_of_read? {text after : Text} {column : Column}
    (h : read? text = some (column, after)) : text = column.text ++ after ∧ column.IsPlain := by
  simp only [read?, Option.bind_eq_bind, Option.bind_eq_some_iff, Prod.exists] at h
  obtain ⟨qualifier, afterQualifier, hqualifier, h⟩ := h
  split at h
  · simp only [Option.bind_eq_some_iff, Prod.exists, Option.pure_def, Option.some.injEq,
      Prod.mk.injEq] at h
    obtain ⟨name, behind, hname, rfl, rfl⟩ := h
    refine ⟨?_, isIdentifier_of_identifier? hqualifier, isIdentifier_of_identifier? hname⟩
    rw [(append_of_identifier? hqualifier).1, (append_of_identifier? hname).1, Column.text,
      List.append_assoc, List.cons_append]
  · cases h

theorem Column.not_isPlain_after_read? {text after : Text} {column : Column}
    (h : read? text = some (column, after)) : ∀ c ∈ after.head?, isPlain c = false := by
  simp only [read?, Option.bind_eq_bind, Option.bind_eq_some_iff, Prod.exists] at h
  obtain ⟨qualifier, afterQualifier, -, h⟩ := h
  split at h
  · simp only [Option.bind_eq_some_iff, Prod.exists, Option.pure_def, Option.some.injEq,
      Prod.mk.injEq] at h
    obtain ⟨name, behind, hname, rfl, rfl⟩ := h
    intro c hc
    obtain ⟨rest, hrest⟩ := List.head?_eq_some_iff.mp hc
    rw [hrest] at hname
    exact not_isWord_after_identifier? hname
  · cases h

theorem Column.read?_text_append {column : Column} (h : column.IsPlain) {rest : Text}
    (hrest : ∀ c ∈ rest.head?, isPlain c = false) :
    read? (column.text ++ rest) = some (column, rest) := by
  have hdot : ∀ c ∈ ('.' :: (column.name ++ rest)).head?, isPlain c = false := by
    intro c hc
    obtain rfl : '.' = c := by simpa using hc
    decide
  rw [read?, Column.text, List.append_assoc, List.cons_append,
    identifier?_eq_some h.qualifier.plain h.qualifier.ne_nil _ hdot]
  simp only [Option.bind_eq_bind, Option.bind_some,
    identifier?_eq_some h.name.plain h.name.ne_nil rest hrest, Option.pure_def]

namespace Condition

theorem length_text_pos (condition : Condition) : 0 < condition.text.length := by
  simp only [text, Column.text, List.length_append, List.length_cons]
  omega

/-- The names of the condition are identifiers, and there is nothing but blanks on either side of
the sign. -/
structure Shaped (condition : Condition) : Prop where
  left : condition.left.IsPlain
  leftGap : ∀ c ∈ condition.leftGap, isBlank c = true
  rightGap : ∀ c ∈ condition.rightGap, isBlank c = true
  right : condition.right.IsPlain

theorem append_of_read? {text : Text} {condition : Condition} (h : read? text = some condition) :
    ∃ after, text = condition.text ++ after ∧ condition.Shaped ∧
      ∀ c ∈ after.head?, isPlain c = false := by
  simp only [read?, Option.bind_eq_bind, Option.bind_eq_some_iff, Prod.exists, Option.pure_def,
    Option.some.injEq] at h
  obtain ⟨left, afterLeft, hleft, sign, afterSign, hsign, right, after, hright, rfl⟩ := h
  obtain ⟨hleftText, hleftPlain⟩ := Column.append_of_read? hleft
  obtain ⟨hrightText, hrightPlain⟩ := Column.append_of_read? hright
  refine ⟨after, ?_, ⟨hleftPlain, fun c hc => of_mem_takeWhile hc, fun c hc => of_mem_takeWhile hc,
    hrightPlain⟩, Column.not_isPlain_after_read? hright⟩
  calc
    text = left.text ++ (afterLeft.takeWhile isBlank ++ (sign.text ++
        (afterSign.takeWhile isBlank ++ afterSign.dropWhile isBlank))) := by
      rw [List.takeWhile_append_dropWhile, ← Comparison.append_of_read? hsign,
        List.takeWhile_append_dropWhile, hleftText]
    _ = Condition.text _ ++ after := by
      rw [hrightText]
      simp only [Condition.text, List.append_assoc]

/-- The text begins with the condition. -/
structure Begins (condition : Condition) (text : Text) : Prop where
  isPrefix : condition.text <+: text
  left : condition.left.IsPlain
  leftGap : ∀ c ∈ condition.leftGap, isBlank c = true
  right : condition.right.IsPlain

theorem begins_of_read? {text : Text} {condition : Condition} (h : read? text = some condition) :
    condition.Begins text := by
  obtain ⟨after, htext, hshaped, -⟩ := append_of_read? h
  exact ⟨⟨after, htext.symm⟩, hshaped.left, hshaped.leftGap, hshaped.right⟩

/-- The condition stands in the text at an offset, with ASCII identifiers for aliases. -/
structure Placed (condition : Condition) (text : Text) (place : Nat) : Prop where
  partAt : PartAt condition.text text place
  left_plain : ∀ c ∈ condition.left.qualifier, isPlain c = true
  right_plain : ∀ c ∈ condition.right.qualifier, isPlain c = true

theorem placed_of_read? {text : Text} {place : Nat} {condition : Condition}
    (hplace : place ≤ text.length) (h : read? (text.drop place) = some condition) :
    condition.Placed text place := by
  have hbegins := begins_of_read? h
  obtain ⟨after, hafter⟩ := hbegins.isPrefix
  refine ⟨⟨text.take place, after, ?_, ?_⟩, hbegins.left.qualifier.plain,
    hbegins.right.qualifier.plain⟩
  · rw [List.length_take, Nat.min_eq_left hplace]
  · rw [List.append_assoc, hafter, List.take_append_drop]

theorem placed_of_mem_findAll {text : Text} {found : Nat × Condition} (h : found ∈ findAll text) :
    found.2.Placed text found.1 := by
  obtain ⟨place, condition⟩ := found
  have hfound := foundAt_of_mem_occurrences h
  obtain ⟨length, hrecognised⟩ := hfound.recognised
  obtain ⟨other, hread, heq⟩ := Option.map_eq_some_iff.mp hrecognised
  obtain ⟨rfl, -⟩ := Prod.mk.inj heq
  exact placed_of_read? (Nat.le_of_lt hfound.lt_length) hread

theorem read?_text_append {condition : Condition} (hleft : condition.left.IsPlain)
    (hleftGap : ∀ c ∈ condition.leftGap, isBlank c = true)
    (hrightGap : ∀ c ∈ condition.rightGap, isBlank c = true) (hright : condition.right.IsPlain)
    {rest : Text} (hrest : ∀ c ∈ rest.head?, isPlain c = false) :
    read? (condition.text ++ rest) = some condition := by
  obtain ⟨left, leftGap, sign, rightGap, right⟩ := condition
  have hsign : ∀ after : Text, ∀ c ∈ (sign.text ++ after).head?, IsBarrier c := by
    intro after c hc
    have hmem := mem_of_mem_head?_append sign.text_ne_nil hc
    exact isBarrier_of_isSign (sign.isSign_of_mem_text hmem)
  have hafterLeft : ∀ after : Text, ∀ c ∈ (leftGap ++ (sign.text ++ after)).head?,
      isPlain c = false := by
    intro after c hc
    by_cases hnil : leftGap = []
    · subst hnil
      by_contra hplain
      have hfolded := isFolded_of_isPlain (by simpa using hplain)
      rw [(hsign after c hc).not_folded] at hfolded
      contradiction
    · exact isPlain_eq_false_of_isBlank (hleftGap c (mem_of_mem_head?_append hnil hc))
  have hafterSign : ∀ c ∈ (right.text ++ rest).head?, isBlank c = false := by
    intro c hc
    rw [Column.text, List.append_assoc] at hc
    exact isBlank_eq_false_of_isPlain
      (hright.qualifier.plain c (mem_of_mem_head?_append hright.qualifier.ne_nil hc))
  have htext : Condition.text ⟨left, leftGap, sign, rightGap, right⟩ ++ rest =
      left.text ++ (leftGap ++ (sign.text ++ (rightGap ++ (right.text ++ rest)))) := by
    simp only [Condition.text, List.append_assoc]
  have hnotBlank : ∀ c ∈ (sign.text ++ (rightGap ++ (right.text ++ rest))).head?,
      isBlank c = false := fun c hc => (hsign _ c hc).not_blank
  rw [htext, read?, Column.read?_text_append hleft (hafterLeft _)]
  simp only [Option.bind_eq_bind, Option.bind_some, takeWhile_append_of_head hleftGap hnotBlank,
    dropWhile_append_of_head hleftGap hnotBlank, Comparison.read?_text_append,
    takeWhile_append_of_head hrightGap hafterSign, dropWhile_append_of_head hrightGap hafterSign,
    Column.read?_text_append hright hrest, Option.pure_def]

theorem Begins.left_eq {condition : Condition} {before behind : Text}
    (h : condition.Begins (before ++ behind)) (hbefore : ∀ c ∈ before, isSign c = false)
    (hbehind : ∀ c ∈ behind.head?, isSign c = true) :
    before = condition.left.text ++ condition.leftGap := by
  obtain ⟨after, hafter⟩ := h.isPrefix
  have hleft : ∀ c ∈ condition.left.text ++ condition.leftGap, isSign c = false := by
    intro c hc
    rcases List.mem_append.mp hc with hc | hc
    · exact isSign_eq_false_of_isDotted (h.left.isDotted_of_mem hc)
    · exact isSign_eq_false_of_isBlank (h.leftGap c hc)
  have hfirst : ∀ c ∈ (condition.sign.text ++ (condition.rightGap ++ condition.right.text ++
      after)).head?, isSign c = true := by
    intro c hc
    exact condition.sign.isSign_of_mem_text
      (mem_of_mem_head?_append condition.sign.text_ne_nil hc)
  calc
    before = (before ++ behind).takeWhile fun c => !isSign c := by
      rw [takeWhile_append_of_head]
      · simpa using hbefore
      · simpa using hbehind
    _ = (condition.left.text ++ condition.leftGap ++ (condition.sign.text ++
          (condition.rightGap ++ condition.right.text ++ after))).takeWhile fun c => !isSign c := by
      rw [← hafter]
      simp only [Condition.text, List.append_assoc]
    _ = condition.left.text ++ condition.leftGap := by
      rw [takeWhile_append_of_head]
      · simpa using hleft
      · simpa using hfirst

theorem read?_eq_none {text : Text} (h : ∀ c ∈ text, isSign c = false) : read? text = none := by
  apply Option.eq_none_iff_forall_ne_some.mpr
  intro condition hread
  obtain ⟨after, hafter⟩ := (begins_of_read? hread).isPrefix
  obtain ⟨c, hc⟩ := List.exists_mem_of_ne_nil _ condition.sign.text_ne_nil
  have hmem : c ∈ text := by
    rw [← hafter, Condition.text]
    simp [hc]
  have hsign := h c hmem
  rw [Comparison.isSign_of_mem_text hc] at hsign
  contradiction

end Condition

end JoinGraph
