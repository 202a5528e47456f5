import JoinGraph.Proofs.Scope.Conditions
import JoinGraph.Proofs.Text.Leftmost

namespace JoinGraph

open Text Word

/-- The pairs of characters that compare in another way, or not at all. -/
def otherSigns : List Text :=
  [['>', '='], ['<', '='], ['=', '='], ['=', '>']]

theorem not_sublist_of_mem_otherSigns {other : Text} (h : other ∈ otherSigns)
    (sign : Comparison) : ¬ other.Sublist sign.text := by
  have hall : ∀ other ∈ otherSigns, ¬ other.Sublist sign.text := by
    cases sign <;> decide
  exact hall other h

theorem isSign_of_mem_otherSigns {other : Text} (h : other ∈ otherSigns) :
    ∀ c ∈ other, isSign c = true := by
  have hall : ∀ other ∈ otherSigns, other.all isSign = true := by decide
  exact List.all_eq_true.mp (hall other h)

/-- Digits, at least one. -/
structure IsNumeral (digits : Text) : Prop where
  ne_nil : digits ≠ []
  digits : ∀ c ∈ digits, c.isDigit = true

/-- What stands for itself: quoted text, whole numbers, and numbers with a point. -/
inductive IsLiteral : Text → Prop
  | quoted (body : Text) : IsLiteral ('\'' :: (body ++ ['\'']))
  | whole {digits : Text} : IsNumeral digits → IsLiteral digits
  | decimal {whole fraction : Text} : IsNumeral whole → IsNumeral fraction →
      IsLiteral (whole ++ '.' :: fraction)

theorem Column.IsPlain.decimal_of_isLiteral {column : Column} (h : column.IsPlain)
    (hliteral : IsLiteral column.text) : ∃ whole fraction, IsNumeral whole ∧ IsNumeral fraction ∧
      column.text = whole ++ '.' :: fraction := by
  generalize hoperand : column.text = operand at hliteral
  cases hliteral with
  | quoted body =>
      have hquote : '\'' ∈ column.text := hoperand ▸ List.mem_cons_self
      exact absurd (h.isDotted_of_mem hquote) (by decide)
  | whole hdigits =>
      have hdot : '.' ∈ operand := by
        rw [← hoperand, Column.text]
        exact List.mem_append_right _ List.mem_cons_self
      exact absurd (hdigits.digits '.' hdot) (by decide)
  | decimal hwhole hfraction => exact ⟨_, _, hwhole, hfraction, rfl⟩

namespace Condition

/-- The condition stands in the text at an offset, outside words and with its last name read to the
end. -/
structure StandsAt (text : Text) (place : Nat) (condition : Condition) : Prop where
  shaped : condition.Shaped
  delimited : DelimitedAt isPlain condition.text text place

theorem read?_eq_some_iff {text : Text} {condition : Condition} :
    read? text = some condition ↔ ∃ after, text = condition.text ++ after ∧ condition.Shaped ∧
      ∀ c ∈ after.head?, isPlain c = false := by
  constructor
  · exact append_of_read?
  · rintro ⟨after, rfl, hshaped, hafter⟩
    exact read?_text_append hshaped.left hshaped.leftGap hshaped.rightGap hshaped.right hafter

theorem beginsAt_iff_standsAt {text : Text} {place : Nat} {condition : Condition} :
    BeginsAt isPlain (fun rest => read? rest = some condition) text place ↔
      condition.StandsAt text place := by
  constructor
  · rintro ⟨before, rest, hplace, rfl, houtside, hread⟩
    obtain ⟨after, rfl, hshaped, hafter⟩ := read?_eq_some_iff.mp hread
    refine ⟨hshaped, before, after, hplace, ?_, houtside, hafter⟩
    rw [List.append_assoc]
  · rintro ⟨hshaped, before, after, hplace, rfl, houtside, hafter⟩
    refine ⟨before, condition.text ++ after, hplace, List.append_assoc _ _ _, houtside, ?_⟩
    exact read?_eq_some_iff.mpr ⟨after, rfl, hshaped, hafter⟩

theorem leftmost_findAll (text : Text) :
    Leftmost (fun place condition => condition.StandsAt text place)
      (fun condition => condition.text.length) (findAll text) := by
  have hread : read? [] = none := rfl
  have hleftmost := leftmost_occurrences isPlain (fun condition => condition.text.length) hread text
  simp only [beginsAt_iff_standsAt] at hleftmost
  exact hleftmost

theorem Shaped.filter_isSign {condition : Condition} (h : condition.Shaped) :
    condition.text.filter isSign = condition.sign.text := by
  have hcolumn : ∀ {column : Column}, column.IsPlain → column.text.filter isSign = [] := by
    intro column hplain
    apply List.filter_eq_nil_iff.mpr
    intro c hc
    rw [isSign_eq_false_of_isDotted (hplain.isDotted_of_mem hc)]
    exact Bool.false_ne_true
  have hgap : ∀ {gap : Text}, (∀ c ∈ gap, isBlank c = true) → gap.filter isSign = [] := by
    intro gap hblank
    apply List.filter_eq_nil_iff.mpr
    intro c hc
    rw [isSign_eq_false_of_isBlank (hblank c hc)]
    exact Bool.false_ne_true
  have hsign : condition.sign.text.filter isSign = condition.sign.text :=
    List.filter_eq_self.mpr fun c hc => Comparison.isSign_of_mem_text hc
  simp only [text, List.filter_append, hcolumn h.left, hgap h.leftGap, hsign, hgap h.rightGap,
    hcolumn h.right, List.nil_append, List.append_nil]

theorem Shaped.not_infix {condition : Condition} (h : condition.Shaped) {other : Text}
    (hother : other ∈ otherSigns) : ¬ other <:+: condition.text := by
  intro hinfix
  apply not_sublist_of_mem_otherSigns hother condition.sign
  rw [← h.filter_isSign, ← List.filter_eq_self.mpr (isSign_of_mem_otherSigns hother)]
  exact hinfix.sublist.filter isSign

/-- The conditions found in a text are the leftmost ones that stand in it: each of them, in text
order, unless it begins inside an earlier one. What is found is cut out of the text with its parts
in their order, holds no other sign, and compares no literal but a number with a point. -/
theorem findAll_eq_leftmost (text : Text) :
    (∀ found, Leftmost (fun place condition => condition.StandsAt text place)
        (fun condition => condition.text.length) found ↔ found = findAll text) ∧
      ∀ start condition, (start, condition) ∈ findAll text →
        text.slice start (start + condition.text.length) =
          condition.left.qualifier ++ '.' :: condition.left.name ++ condition.leftGap ++
            condition.sign.text ++ condition.rightGap ++
              (condition.right.qualifier ++ '.' :: condition.right.name) ∧
        (∀ other ∈ otherSigns, ¬ other <:+: condition.text) ∧
        ∀ operand ∈ [condition.left.text, condition.right.text], IsLiteral operand →
          ∃ whole fraction, IsNumeral whole ∧ IsNumeral fraction ∧
            operand = whole ++ '.' :: fraction := by
  have hleftmost := leftmost_findAll text
  refine ⟨fun found => ⟨fun hfound => ?_, ?_⟩, ?_⟩
  · exact hfound.eq hleftmost fun _ condition _ => condition.length_text_pos
  · rintro rfl
    exact hleftmost
  · intro start condition hmem
    have hstands := hleftmost.stands_of_mem start condition hmem
    refine ⟨hstands.delimited.partAt.slice_eq, fun _ hother => hstands.shaped.not_infix hother, ?_⟩
    intro operand hoperand hliteral
    rcases List.mem_cons.mp hoperand with rfl | hright
    · exact hstands.shaped.left.decimal_of_isLiteral hliteral
    · obtain rfl := List.mem_singleton.mp hright
      exact hstands.shaped.right.decimal_of_isLiteral hliteral

/-- A chain of comparisons holds the first one alone, which the second begins inside. -/
example : (findAll "s.a.x = b.y = c.z".toList).map (fun found => (found.1, found.2.text)) =
    [(2, "a.x = b.y".toList)] := by
  decide +kernel

theorem findAll_compares_decimal :
    ¬ ∀ text start condition, (start, condition) ∈ findAll text →
      ∀ operand ∈ [condition.left.text, condition.right.text], ¬ IsLiteral operand := by
  intro hnone
  have hfound : (0, ⟨⟨['a'], ['x']⟩, [' '], .equal, [' '], ⟨['1'], ['5']⟩⟩) ∈
      findAll "a.x = 1.5".toList := by
    decide +kernel
  have hone : IsNumeral ['1'] := ⟨by decide, List.all_eq_true.mp (by decide)⟩
  have hfive : IsNumeral ['5'] := ⟨by decide, List.all_eq_true.mp (by decide)⟩
  exact hnone _ _ _ hfound ['1', '.', '5'] (by decide) (IsLiteral.decimal hone hfive)

end Condition

end JoinGraph
