import JoinGraph.Proofs.Condition.Grammar
import JoinGraph.Proofs.Scope.Spelling
import JoinGraph.Proofs.Text.Grammar
import Mathlib.Data.List.DropRight

namespace JoinGraph

open Text Word

namespace Word

/-- The word is one identifier of the text, without regard to case, from its first character to its
last. -/
structure IdentifierAt (text : Text) (place : Nat) (word : Text) : Prop where
  isName : IsName word
  delimited : DelimitedAt isFolded word text place

theorem isPlain_of_isFolded {c : Char} (h : isFolded c = true) (hc : c.toNat < 128) :
    isPlain c = true := by
  have hall : ∀ code < 128, isFolded (Char.ofNat code) = true →
      isPlain (Char.ofNat code) = true := by
    decide
  rw [← Char.ofNat_toNat c] at h ⊢
  exact hall _ hc h

theorem mem_foreignLetters_iff {c : Char} :
    c ∈ Reference.foreignLetters ↔ isFolded c = true ∧ isPlain c = false := by
  constructor
  · intro h
    have hall : (Reference.foreignLetters.all fun letter =>
        isFolded letter && !isPlain letter) = true := by
      decide
    simpa using List.all_eq_true.mp hall c h
  · rintro ⟨hfolded, hplain⟩
    apply Reference.mem_foreignLetters hfolded
    by_contra hlt
    rw [isPlain_of_isFolded hfolded (by omega)] at hplain
    contradiction

/-- An identifier of the text that ends where a text is cut goes back to the last character in front
of the cut that belongs to no identifier. -/
theorem exists_identifierAt {before name after : Text} (hname : IsName name)
    (hafter : ∀ c ∈ after.head?, isFolded c = false) :
    ∃ lead, lead <:+ before ∧
      IdentifierAt (before ++ name ++ after) (before.length - lead.length) (lead ++ name) := by
  refine ⟨before.rtakeWhile isFolded, List.rtakeWhile_suffix _ _, ⟨?_, ?_⟩,
    before.rdropWhile isFolded, after, ?_, ?_, ?_, hafter⟩
  · exact List.append_ne_nil_of_right_ne_nil _ hname.ne_nil
  · intro c hc
    rcases List.mem_append.mp hc with hlead | hin
    · exact List.mem_rtakeWhile_imp hlead
    · exact hname.folded c hin
  · have hbefore : before.rdropWhile isFolded ++ before.rtakeWhile isFolded = before :=
      List.rdropWhile_append_rtakeWhile
    have hlength := congrArg List.length hbefore
    rw [List.length_append] at hlength
    omega
  · rw [← List.append_assoc, List.rdropWhile_append_rtakeWhile]
  · intro c hc
    obtain ⟨hne, rfl⟩ := List.mem_getLast?_eq_getLast hc
    simpa using List.rdropWhile_last_not isFolded before hne

end Word

namespace Condition

theorem StandsAt.left_cut {text : Text} {place : Nat} {condition : Condition}
    (h : condition.StandsAt text place) : ∃ before rest, before.length = place ∧
      text = before ++ condition.left.qualifier ++ '.' :: rest ∧
      ∀ c ∈ before.getLast?, isPlain c = false := by
  obtain ⟨before, after, hlength, rfl, houtside, -⟩ := h.delimited
  refine ⟨before, condition.left.name ++ condition.leftGap ++ condition.sign.text ++
    condition.rightGap ++ condition.right.text ++ after, hlength, ?_, houtside⟩
  simp only [text, Column.text, List.append_assoc, List.cons_append]

/-- The identifier of the text in which the left alias of a condition ends is the alias itself, or
the alias behind more of it, the last of which is one of the four letters that only references are
read with. The alias is a whole identifier when none of these letters stands in front of it, as in
any text without them. -/
theorem left_whole_iff (text : Text) (place : Nat) (condition : Condition)
    (h : (place, condition) ∈ findAll text) :
    (∃ lead, lead.length ≤ place ∧
      IdentifierAt text (place - lead.length) (lead ++ condition.left.qualifier) ∧
      ∀ c ∈ lead.getLast?, c ∈ Reference.foreignLetters) ∧
    (IdentifierAt text place condition.left.qualifier ↔
      ∀ c ∈ (text.take place).getLast?, c ∉ Reference.foreignLetters) := by
  have hstands := (leftmost_findAll text).stands_of_mem place condition h
  have halias : IsName condition.left.qualifier :=
    ⟨hstands.shaped.left.qualifier.ne_nil,
      fun c hc => isFolded_of_isPlain (hstands.shaped.left.qualifier.plain c hc)⟩
  obtain ⟨before, rest, rfl, rfl, houtside⟩ := hstands.left_cut
  have hdot : ∀ c ∈ ('.' :: rest).head?, isFolded c = false := by
    intro c hc
    obtain rfl : '.' = c := by simpa using hc
    decide
  constructor
  · obtain ⟨lead, hsuffix, hidentifier⟩ := exists_identifierAt halias hdot
    refine ⟨lead, hsuffix.length_le, hidentifier, ?_⟩
    intro c hc
    have hmem : c ∈ lead ++ condition.left.qualifier :=
      List.mem_append_left _ (List.mem_of_mem_getLast? hc)
    have hlast : c ∈ before.getLast? := by
      obtain ⟨front, rfl⟩ := hsuffix
      exact List.mem_getLast?_append_of_mem_getLast? hc
    exact mem_foreignLetters_iff.mpr ⟨hidentifier.isName.folded c hmem, houtside c hlast⟩
  · constructor
    · intro hidentifier c hc hforeign
      have hnot := hidentifier.delimited.not_front c hc
      rw [(mem_foreignLetters_iff.mp hforeign).1] at hnot
      contradiction
    · intro hfree
      rw [List.append_assoc, List.take_left] at hfree
      refine ⟨halias, before, '.' :: rest, rfl, rfl, ?_, hdot⟩
      intro c hc
      by_contra hfolded
      exact hfree c hc (mem_foreignLetters_iff.mpr ⟨by simpa using hfolded, houtside c hc⟩)

/-- What stands in front of the alias that is found here is a long s. -/
def tailed : Condition :=
  ⟨⟨['a'], ['x']⟩, [' '], .equal, [' '], ⟨['b'], ['y']⟩⟩

theorem mem_findAll_tailed : (1, tailed) ∈ findAll "\u017Fa.x = b.y".toList := by
  decide +kernel

theorem left_whole_iff_long_s : (1, tailed) ∈ findAll "\u017Fa.x = b.y".toList ∧
    (∃ lead, lead.length ≤ 1 ∧
      IdentifierAt "\u017Fa.x = b.y".toList (1 - lead.length) (lead ++ ['a']) ∧
      ∀ c ∈ lead.getLast?, c ∈ Reference.foreignLetters) ∧
    ¬ IdentifierAt "\u017Fa.x = b.y".toList 1 ['a'] := by
  obtain ⟨hwithin, hwhole⟩ := left_whole_iff _ 1 tailed mem_findAll_tailed
  refine ⟨mem_findAll_tailed, hwithin, ?_⟩
  intro hidentifier
  exact hwhole.mp hidentifier '\u017F' (by decide) (by decide)

theorem left_not_whole : ¬ ∀ text place condition, (place, condition) ∈ findAll text →
    ∀ c ∈ (text.take place).getLast?, isFolded c = false := by
  intro h
  have hlong := h _ 1 tailed mem_findAll_tailed '\u017F' (by decide)
  revert hlong
  decide

end Condition

end JoinGraph
