import JoinGraph.Proofs.Comment.Ranges

namespace JoinGraph.Comment

/-- Two dashes outside the block comments stand in front of a place, and every line that ends
between them and the place ends within a block comment. -/
def Trailing (ranges : List (Nat × Nat)) (text : Text) (place : Nat) : Prop :=
  ∃ dashes ≤ place, ['-', '-'] <+: text.drop dashes ∧
    ¬ Covered ranges dashes ∧ ¬ Covered ranges (dashes + 1) ∧
    ∀ other, dashes ≤ other → other ≤ place → text[other]? = some '\n' → Covered ranges other

section Trailing

variable {ranges : List (Nat × Nat)} {text : Text} {place : Nat}

theorem dashed_blankAt_iff :
    Dashed (blankAt (Covered ranges) text) place ↔ Trailing ranges text place := by
  simp only [Dashed, Trailing, Text.mem_slice_iff, not_exists, not_and,
    pair_blankAt_iff (show '-' ≠ ' ' by decide) (show '-' ≠ ' ' by decide),
    getElem?_blankAt_eq_some_iff (show '\n' ≠ ' ' by decide), not_not, Nat.lt_succ_iff, and_assoc]

theorem Trailing.dashed_or (h : Trailing ranges text place) (hplace : ¬ Covered ranges place) :
    Dashed text place ∨
      ∃ dashes newline, dashes < newline ∧ newline < place ∧ ['-', '-'] <+: text.drop dashes ∧
        ¬ Covered ranges dashes ∧ text[newline]? = some '\n' ∧ Covered ranges newline := by
  obtain ⟨dashes, hle, hhere, hdashes, -, hlines⟩ := h
  by_cases hline : '\n' ∈ text.slice dashes (place + 1)
  · obtain ⟨newline, hstart, hstop, hnewline⟩ := Text.mem_slice_iff.mp hline
    have hcovered := hlines newline hstart (by omega) hnewline
    have hfront : dashes ≠ newline := fun heq => hdashes (heq ▸ hcovered)
    have hbehind : newline ≠ place := fun heq => hplace (heq ▸ hcovered)
    exact .inr ⟨dashes, newline, by omega, by omega, hhere, hdashes, hnewline, hcovered⟩
  · exact .inl ⟨dashes, hle, hhere, hline⟩

theorem getElem?_mask_ne_iff (h : Blocks text 0 ranges) {c : Char}
    (hc : text[place]? = some c) :
    (mask text)[place]? ≠ some c ↔
      c ≠ ' ' ∧ (Covered ranges place ∨ Trailing ranges text place) := by
  rw [h.mask_eq, getElem?_blankAt, getElem?_blankAt, hc, ← dashed_blankAt_iff]
  by_cases hblocked : Covered ranges place
  · simp [hblocked, eq_comm]
  · by_cases hdashed : Dashed (blankAt (Covered ranges) text) place
    · simp [hdashed, eq_comm]
    · simp [hblocked, hdashed]

end Trailing

/-- Masking changes what lies in a block comment and what trails two dashes outside them. The latter
is on the line of the dashes unless a line in between ends within a block comment. -/
theorem mask_changed_iff (text : Text) :
    ∃ ranges, (∀ others, Blocks text 0 others ↔ others = ranges) ∧
      ∀ place c, text[place]? = some c →
        ((mask text)[place]? ≠ some c ↔
          c ≠ ' ' ∧ (Covered ranges place ∨ Trailing ranges text place)) ∧
        ((mask text)[place]? ≠ some c → Covered ranges place ∨ Dashed text place ∨
          ∃ dashes newline, dashes < newline ∧ newline < place ∧
            ['-', '-'] <+: text.drop dashes ∧ ¬ Covered ranges dashes ∧
            text[newline]? = some '\n' ∧ Covered ranges newline) := by
  obtain ⟨ranges, hranges⟩ := exists_blocks text 0
  refine ⟨ranges, fun others => hranges.iff_eq, ?_⟩
  intro place c hc
  have hchanged := getElem?_mask_ne_iff hranges hc
  refine ⟨hchanged, ?_⟩
  intro hne
  obtain ⟨-, hblocked | htrailing⟩ := hchanged.mp hne
  · exact .inl hblocked
  · by_cases hblocked : Covered ranges place
    · exact .inl hblocked
    · exact .inr (htrailing.dashed_or hblocked)

/-- A line comment that runs over a line end within a block comment takes code of the next line
with it. -/
theorem mask_overruns_line :
    ¬ ∀ (text : Text) (ranges : List (Nat × Nat)) (place : Nat) (c : Char),
      Blocks text 0 ranges → text[place]? = some c → (mask text)[place]? ≠ some c →
      Covered ranges place ∨ Dashed text place := by
  intro h
  have hblocks : Blocks "-- /*\n*/ FROM t".toList 0 [(3, 8)] :=
    .cons ⟨by decide, by decide, by decide⟩ (.closed ⟨by decide, by decide, by decide⟩)
      (.nil (by decide))
  have hcode := h _ _ 9 'F' hblocks (by decide) (by decide)
  revert hcode
  decide

end JoinGraph.Comment
