import JoinGraph.Proofs.Comment.Closed
import JoinGraph.Proofs.Masking
import Mathlib.Data.Nat.Find

/-!
What masking does, told by places.

The block comments of a text are ranges, found from left to right, and are blanked first. A line
comment runs from two dashes to the end of a line of what that leaves. Masking is blanking the one
and then the other.
-/

namespace JoinGraph.Comment

/-- From offset `lower` on, `pair` stands in the text at `place` for the first time. -/
structure FirstAt (pair text : Text) (lower place : Nat) : Prop where
  le : lower ≤ place
  here : pair <+: text.drop place
  first : ∀ other < place, lower ≤ other → ¬ pair <+: text.drop other

/-- A block comment that opens at `start` stops behind the first closer behind its opener, or with
the text. -/
inductive StopsAt (text : Text) (start : Nat) : Nat → Prop
  | closed {closer : Nat} (hcloser : FirstAt ['*', '/'] text (start + 2) closer) :
      StopsAt text start (closer + 2)
  | unclosed (hnone : ¬ ['*', '/'] <:+: text.drop (start + 2)) : StopsAt text start text.length

/-- The block comments of a text from offset `lower` on, each found behind the one before. -/
inductive Blocks (text : Text) : (lower : Nat) → List (Nat × Nat) → Prop
  | nil {lower : Nat} (hnone : ¬ ['/', '*'] <:+: text.drop lower) : Blocks text lower []
  | cons {lower start stop : Nat} {rest : List (Nat × Nat)}
      (hstart : FirstAt ['/', '*'] text lower start) (hstop : StopsAt text start stop)
      (hrest : Blocks text stop rest) : Blocks text lower ((start, stop) :: rest)

def Covered (ranges : List (Nat × Nat)) (place : Nat) : Prop :=
  ∃ range ∈ ranges, range.1 ≤ place ∧ place < range.2

/-- Two dashes stand on the line of a place, no further right than it. -/
def Dashed (text : Text) (place : Nat) : Prop :=
  ∃ dashes ≤ place, ['-', '-'] <+: text.drop dashes ∧ '\n' ∉ text.slice dashes (place + 1)

instance (ranges : List (Nat × Nat)) : DecidablePred (Covered ranges) := fun place =>
  inferInstanceAs (Decidable (∃ range ∈ ranges, range.1 ≤ place ∧ place < range.2))

instance (text : Text) : DecidablePred (Dashed text) := fun place =>
  inferInstanceAs (Decidable (∃ dashes, dashes ≤ place ∧
    ['-', '-'] <+: text.drop dashes ∧ '\n' ∉ text.slice dashes (place + 1)))

def blankAt (hidden : Nat → Prop) [DecidablePred hidden] (text : Text) : Text :=
  text.mapIdx fun place c => if hidden place then ' ' else c

section Pairs

variable {pair text : Text} {lower : Nat}

theorem isInfix_drop_iff :
    pair <:+: text.drop lower ↔ ∃ place, lower ≤ place ∧ pair <+: text.drop place := by
  constructor
  · rintro ⟨front, behind, heq⟩
    refine ⟨lower + front.length, Nat.le_add_right _ _, behind, ?_⟩
    rw [← List.drop_drop, ← heq, List.append_assoc, List.drop_left]
  · rintro ⟨place, hle, hhere⟩
    obtain ⟨distance, rfl⟩ := Nat.exists_eq_add_of_le hle
    rw [← List.drop_drop] at hhere
    exact hhere.isInfix.trans (List.drop_suffix distance _).isInfix

theorem exists_firstAt (h : pair <:+: text.drop lower) : ∃ place, FirstAt pair text lower place := by
  classical
  have hexists := isInfix_drop_iff.mp h
  obtain ⟨hle, hhere⟩ := Nat.find_spec hexists
  refine ⟨Nat.find hexists, hle, hhere, ?_⟩
  intro other hother hlower hagain
  exact Nat.find_min hexists hother ⟨hlower, hagain⟩

namespace FirstAt

variable {place other : Nat}

theorem isInfix (h : FirstAt pair text lower place) : pair <:+: text.drop lower :=
  isInfix_drop_iff.mpr ⟨place, h.le, h.here⟩

theorem unique (h : FirstAt pair text lower place) (hother : FirstAt pair text lower other) :
    place = other := by
  apply Nat.le_antisymm
  · by_contra hlt
    exact h.first other (by omega) hother.le hother.here
  · by_contra hlt
    exact hother.first place (by omega) h.le h.here

theorem stop_le (h : FirstAt pair text lower place) (hpair : pair ≠ []) :
    place + pair.length ≤ text.length := by
  have hlength := h.here.length_le
  have hpos := List.length_pos_iff.mpr hpair
  rw [List.length_drop] at hlength
  omega

theorem drop_eq (h : FirstAt pair text lower place) :
    text.drop lower = text.slice lower place ++ (pair ++ text.drop (place + pair.length)) := by
  obtain ⟨rest, hrest⟩ := h.here
  have hbehind : text.drop (place + pair.length) = rest := by
    rw [← List.drop_drop, ← hrest, List.drop_left]
  have hplace : (text.drop lower).drop (place - lower) = text.drop place := by
    rw [List.drop_drop, Nat.add_sub_cancel' h.le]
  rw [hbehind, hrest, Text.slice, ← hplace, List.take_append_drop]

theorem not_isInfix (h : FirstAt pair text lower place) (hpair : pair ≠ []) :
    ¬ pair <:+: text.slice lower place := by
  rintro ⟨front, behind, heq⟩
  have hlength := congrArg List.length heq
  have hpos := List.length_pos_iff.mpr hpair
  rw [Text.length_slice, List.length_append, List.length_append] at hlength
  refine h.first (lower + front.length) (by omega) (Nat.le_add_right _ _) ?_
  rw [← List.drop_drop, h.drop_eq, ← heq, List.append_assoc, List.append_assoc, List.drop_left]
  exact List.prefix_append pair _

end FirstAt

end Pairs

section Blocks

variable {text : Text} {lower start stop : Nat} {ranges : List (Nat × Nat)}

theorem StopsAt.unique {other : Nat} (h : StopsAt text start stop)
    (hother : StopsAt text start other) : stop = other := by
  cases h with
  | closed hcloser =>
      cases hother with
      | closed hagain => rw [hcloser.unique hagain]
      | unclosed hnone => exact absurd hcloser.isInfix hnone
  | unclosed hnone =>
      cases hother with
      | closed hcloser => exact absurd hcloser.isInfix hnone
      | unclosed => rfl

theorem StopsAt.bounds (hstart : FirstAt ['/', '*'] text lower start)
    (hstop : StopsAt text start stop) : start + 2 ≤ stop ∧ stop ≤ text.length := by
  cases hstop with
  | closed hcloser => exact ⟨Nat.le_add_right_of_le hcloser.le, hcloser.stop_le (by simp)⟩
  | unclosed => exact ⟨hstart.stop_le (by simp), Nat.le_refl _⟩

theorem Blocks.unique {others : List (Nat × Nat)} (h : Blocks text lower ranges)
    (hothers : Blocks text lower others) : ranges = others := by
  induction h generalizing others with
  | nil hnone =>
      cases hothers with
      | nil => rfl
      | cons hstart => exact absurd hstart.isInfix hnone
  | cons hstart hstop _ ih =>
      cases hothers with
      | nil hnone => exact absurd hstart.isInfix hnone
      | cons hagain hend hrest =>
          obtain rfl := hstart.unique hagain
          obtain rfl := hstop.unique hend
          rw [ih hrest]

theorem Blocks.iff_eq {others : List (Nat × Nat)} (h : Blocks text lower ranges) :
    Blocks text lower others ↔ others = ranges := by
  constructor
  · intro hothers
    exact hothers.unique h
  · rintro rfl
    exact h

theorem exists_blocks (text : Text) (lower : Nat) : ∃ ranges, Blocks text lower ranges := by
  by_cases hopener : ['/', '*'] <:+: text.drop lower
  · obtain ⟨start, hstart⟩ := exists_firstAt hopener
    have hstop : ∃ stop, StopsAt text start stop := by
      by_cases hcloser : ['*', '/'] <:+: text.drop (start + 2)
      · obtain ⟨closer, hcloser⟩ := exists_firstAt hcloser
        exact ⟨_, .closed hcloser⟩
      · exact ⟨_, .unclosed hcloser⟩
    obtain ⟨stop, hstop⟩ := hstop
    obtain ⟨hlt, hle⟩ := hstop.bounds hstart
    have hlower := hstart.le
    obtain ⟨rest, hrest⟩ := exists_blocks text stop
    exact ⟨_, .cons hstart hstop hrest⟩
  · exact ⟨[], .nil hopener⟩
termination_by text.length - lower

theorem covered_cons {range : Nat × Nat} {place : Nat} :
    Covered (range :: ranges) place ↔
      (range.1 ≤ place ∧ place < range.2) ∨ Covered ranges place := by
  simp only [Covered, List.exists_mem_cons_iff]

theorem Blocks.le_of_covered (h : Blocks text lower ranges) {place : Nat}
    (hcovered : Covered ranges place) : lower ≤ place := by
  induction h with
  | nil => simp [Covered] at hcovered
  | cons hstart hstop _ ih =>
      have hlower := hstart.le
      obtain ⟨hlt, -⟩ := hstop.bounds hstart
      rcases covered_cons.mp hcovered with ⟨hle, -⟩ | hcovered
      · exact hlower.trans hle
      · have := ih hcovered
        omega

theorem Blocks.covered_of_opener (h : Blocks text lower ranges) {place : Nat}
    (hle : lower ≤ place) (hopener : ['/', '*'] <+: text.drop place) : Covered ranges place := by
  induction h with
  | nil hnone => exact absurd (isInfix_drop_iff.mpr ⟨place, hle, hopener⟩) hnone
  | @cons lower start stop rest hstart hstop _ ih =>
      rw [covered_cons]
      by_cases hbefore : place < start
      · exact absurd hopener (hstart.first place hbefore hle)
      · by_cases hinside : place < stop
        · exact .inl ⟨by omega, hinside⟩
        · exact .inr (ih (by omega))

theorem maskBlocks_unclosed {rest : Text} (h : ¬ ['*', '/'] <:+: rest) :
    maskBlocks true rest = List.replicate rest.length ' ' := by
  induction rest with
  | nil => rfl
  | cons c rest ih =>
      rw [List.infix_cons_iff, not_or] at h
      rw [maskBlocks_true_cons h.1, ih h.2]
      rfl

theorem maskBlocks_drop (hstart : FirstAt ['/', '*'] text lower start)
    (hstop : StopsAt text start stop) :
    maskBlocks false (text.drop lower) =
      text.slice lower start ++
        (List.replicate (stop - start) ' ' ++ maskBlocks false (text.drop stop)) := by
  have hbefore := hstart.not_isInfix (by simp)
  have hopened : maskBlocks false (text.drop lower) =
      text.slice lower start ++ ' ' :: ' ' :: maskBlocks true (text.drop (start + 2)) := by
    rw [hstart.drop_eq, maskBlocks_append (closed_of_not_isInfix hbefore),
      maskBlocks_of_not_isInfix hbefore]
    · rfl
    · intro _
      simp
  have hclosed : maskBlocks true (text.drop (start + 2)) =
      List.replicate (stop - (start + 2)) ' ' ++ maskBlocks false (text.drop stop) := by
    cases hstop with
    | @closed closer hcloser =>
        have hinside := hcloser.not_isInfix (by simp)
        have hlength : (text.slice (start + 2) closer).length + 2 = closer + 2 - (start + 2) := by
          have := hcloser.stop_le (by simp)
          have := hcloser.le
          rw [Text.length_slice]
          simp only [List.length_cons, List.length_nil] at *
          omega
        rw [hcloser.drop_eq]
        exact (maskBlocks_inside hinside _).trans (by rw [hlength]; rfl)
    | unclosed hnone =>
        rw [maskBlocks_unclosed hnone, List.length_drop, List.drop_length, maskBlocks,
          List.append_nil]
  obtain ⟨hlt, -⟩ := hstop.bounds hstart
  obtain ⟨width, rfl⟩ := Nat.exists_eq_add_of_le hlt
  rw [hopened, hclosed, Nat.add_sub_cancel_left, Nat.add_assoc, Nat.add_sub_cancel_left,
    Nat.add_comm 2]
  rfl

theorem getElem?_maskBlocks (h : Blocks text lower ranges) (i : Nat) :
    (maskBlocks false (text.drop lower))[i]? =
      text[lower + i]?.map fun c => if Covered ranges (lower + i) then ' ' else c := by
  induction h generalizing i with
  | nil hnone =>
      rw [maskBlocks_of_not_isInfix hnone, List.getElem?_drop]
      simp [Covered]
  | @cons lower start stop rest hstart hstop hrest ih =>
      obtain ⟨hlt, hle⟩ := hstop.bounds hstart
      have hlower := hstart.le
      have hslice : (text.slice lower start).length = start - lower := by
        rw [Text.length_slice]
        omega
      have hcovered : Covered ((start, stop) :: rest) (lower + i) ↔
          (start ≤ lower + i ∧ lower + i < stop) ∨ Covered rest (lower + i) := covered_cons
      rw [maskBlocks_drop hstart hstop]
      by_cases hbefore : lower + i < start
      · have hnot : ¬ Covered ((start, stop) :: rest) (lower + i) := by
          rw [hcovered]
          rintro (⟨hstart, -⟩ | hrest')
          · omega
          · have := hrest.le_of_covered hrest'
            omega
        rw [List.getElem?_append_left (by omega), Text.getElem?_slice text hbefore]
        simp [hnot]
      · rw [List.getElem?_append_right (by omega), hslice]
        by_cases hinside : lower + i < stop
        · have hhere : Covered ((start, stop) :: rest) (lower + i) :=
            hcovered.mpr (.inl ⟨by omega, hinside⟩)
          rw [List.getElem?_append_left (by rw [List.length_replicate]; omega),
            List.getElem?_replicate_of_lt (by omega), List.getElem?_eq_getElem (by omega)]
          simp [hhere]
        · have hbehind : stop + (i - (start - lower) - (stop - start)) = lower + i := by omega
          have hsame : Covered ((start, stop) :: rest) (lower + i) ↔ Covered rest (lower + i) := by
            rw [hcovered]
            constructor
            · rintro (⟨-, hlt⟩ | hrest')
              · omega
              · exact hrest'
            · exact .inr
          rw [List.getElem?_append_right (by rw [List.length_replicate]; omega),
            List.length_replicate, ih, hbehind]
          simp only [hsame]

end Blocks

section Lines

theorem getElem?_blankAt (hidden : Nat → Prop) [DecidablePred hidden] (text : Text)
    (place : Nat) : (blankAt hidden text)[place]? =
      text[place]?.map fun c => if hidden place then ' ' else c :=
  List.getElem?_mapIdx

theorem dashed_zero {text : Text} : Dashed text 0 ↔ ['-', '-'] <+: text := by
  constructor
  · rintro ⟨dashes, hle, hhere, -⟩
    obtain rfl := Nat.le_zero.mp hle
    exact hhere
  · intro h
    obtain ⟨rest, rfl⟩ := h
    exact ⟨0, Nat.le_refl 0, List.prefix_append _ _, by simp [Text.slice]⟩

theorem dashed_succ {c : Char} {rest : Text} {place : Nat} :
    Dashed (c :: rest) (place + 1) ↔
      (['-', '-'] <+: c :: rest ∧ '\n' ∉ rest.take (place + 1)) ∨ Dashed rest place := by
  constructor
  · rintro ⟨dashes, hle, hhere, hline⟩
    cases dashes with
    | zero =>
        simp only [Text.slice, List.drop_zero, Nat.sub_zero, List.take_succ_cons, List.mem_cons,
          not_or] at hline
        exact .inl ⟨hhere, hline.2⟩
    | succ dashes =>
        refine .inr ⟨dashes, by omega, hhere, ?_⟩
        simpa [Text.slice] using hline
  · rintro (⟨hhere, hline⟩ | ⟨dashes, hle, hhere, hline⟩)
    · refine ⟨0, Nat.zero_le _, hhere, ?_⟩
      obtain ⟨rfl, -⟩ := pair_isPrefix_cons_iff.mp hhere
      simpa [Text.slice] using hline
    · refine ⟨dashes + 1, by omega, hhere, ?_⟩
      simpa [Text.slice] using hline

theorem line_or_dashed_succ {c : Char} (hc : '\n' ≠ c) {rest : Text} {place : Nat} :
    ('\n' ∉ (c :: rest).take (place + 1 + 1) ∨ Dashed (c :: rest) (place + 1)) ↔
      '\n' ∉ rest.take (place + 1) ∨ Dashed rest place := by
  simp only [dashed_succ, List.take_succ_cons, List.mem_cons, hc, false_or]
  constructor
  · rintro (hline | ⟨-, hline⟩ | hdashed)
    · exact .inl hline
    · exact .inl hline
    · exact .inr hdashed
  · rintro (hline | hdashed)
    · exact .inl hline
    · exact .inr (.inr hdashed)

theorem getElem?_maskLines (inside : Bool) (text : Text) (place : Nat) :
    (maskLines inside text)[place]? = text[place]?.map fun c =>
      if (inside = true ∧ '\n' ∉ text.take (place + 1)) ∨ Dashed text place then ' ' else c := by
  fun_induction maskLines inside text generalizing place with
  | case1 => simp
  | case2 inside rest ih =>
      cases place with
      | zero => simp [dashed_zero]
      | succ place => simp [ih, dashed_succ]
  | case3 rest ih =>
      have hopens : ['-', '-'] <+: '-' :: '-' :: rest := List.prefix_append ['-', '-'] rest
      rcases place with _ | _ | place
      · simp [dashed_zero, hopens]
      · simp [dashed_succ, hopens]
      · have hsame : Dashed ('-' :: '-' :: rest) (place + 1 + 1) ↔
            '\n' ∉ rest.take (place + 1) ∨ Dashed rest place := by
          rw [dashed_succ, and_iff_right hopens]
          exact line_or_dashed_succ (by decide)
        simp [ih, hsame]
  | case4 c rest hnewline hdashes ih =>
      have hopens : ¬ ['-', '-'] <+: c :: rest := by
        rw [pair_isPrefix_cons_iff]
        rintro ⟨rfl, hhead⟩
        obtain ⟨tail, rfl⟩ := List.head?_eq_some_iff.mp hhead
        exact hdashes tail rfl rfl
      cases place with
      | zero => simp [dashed_zero, hopens]
      | succ place => simp [ih, dashed_succ, hopens]
  | case5 c rest hnewline ih =>
      have hne : '\n' ≠ c := fun heq => hnewline heq.symm
      cases place with
      | zero => simp [hne]
      | succ place => simp only [true_and, line_or_dashed_succ hne, List.getElem?_cons_succ, ih]

end Lines

theorem maskBlocks_eq_blankAt {text : Text} {ranges : List (Nat × Nat)}
    (h : Blocks text 0 ranges) : maskBlocks false text = blankAt (Covered ranges) text := by
  apply List.ext_getElem?
  intro place
  have hplace := getElem?_maskBlocks h place
  rw [Nat.zero_add] at hplace
  rw [getElem?_blankAt, ← hplace]
  rfl

theorem maskLines_eq_blankAt (text : Text) : maskLines false text = blankAt (Dashed text) text := by
  apply List.ext_getElem?
  intro place
  rw [getElem?_blankAt, getElem?_maskLines]
  simp

theorem Blocks.mask_eq {text : Text} {ranges : List (Nat × Nat)} (h : Blocks text 0 ranges) :
    mask text =
      blankAt (Dashed (blankAt (Covered ranges) text)) (blankAt (Covered ranges) text) := by
  rw [mask, maskBlocks_eq_blankAt h, maskLines_eq_blankAt]

theorem getElem?_blankAt_eq_some_iff {hidden : Nat → Prop} [DecidablePred hidden] {text : Text}
    {place : Nat} {c : Char} (hc : c ≠ ' ') :
    (blankAt hidden text)[place]? = some c ↔ text[place]? = some c ∧ ¬ hidden place := by
  rw [getElem?_blankAt, Option.map_eq_some_iff]
  constructor
  · rintro ⟨written, hwritten, hkept⟩
    split at hkept
    · exact absurd hkept.symm hc
    · next hnot => exact ⟨hkept ▸ hwritten, hnot⟩
  · rintro ⟨hwritten, hnot⟩
    exact ⟨c, hwritten, if_neg hnot⟩

theorem pair_isPrefix_drop_iff {text : Text} {a b : Char} {place : Nat} :
    [a, b] <+: text.drop place ↔ text[place]? = some a ∧ text[place + 1]? = some b := by
  rw [← List.head?_drop, ← Nat.add_zero (place + 1), ← List.getElem?_drop,
    ← List.head?_eq_getElem?, ← List.tail_drop]
  cases text.drop place with
  | nil => simp
  | cons c rest => rw [pair_isPrefix_cons_iff]; simp [eq_comm]

theorem pair_blankAt_iff {hidden : Nat → Prop} [DecidablePred hidden] {text : Text} {a b : Char}
    (ha : a ≠ ' ') (hb : b ≠ ' ') {place : Nat} :
    [a, b] <+: (blankAt hidden text).drop place ↔
      [a, b] <+: text.drop place ∧ ¬ hidden place ∧ ¬ hidden (place + 1) := by
  rw [pair_isPrefix_drop_iff, pair_isPrefix_drop_iff, getElem?_blankAt_eq_some_iff ha,
    getElem?_blankAt_eq_some_iff hb]
  constructor
  · rintro ⟨⟨hfirst, hseen⟩, hsecond, hagain⟩
    exact ⟨⟨hfirst, hsecond⟩, hseen, hagain⟩
  · rintro ⟨⟨hfirst, hsecond⟩, hseen, hagain⟩
    exact ⟨⟨hfirst, hseen⟩, hsecond, hagain⟩

theorem exists_pair_of_isInfix {pair text : Text} (h : pair <:+: text) :
    ∃ place, pair <+: text.drop place := by
  obtain ⟨place, -, hhere⟩ := isInfix_drop_iff.mp (show pair <:+: text.drop 0 from h)
  exact ⟨place, hhere⟩

/-- A masked text begins no comment: an opener would lie in a block comment, and two dashes would
lie in the line comment that they begin. -/
theorem absent_mask (text : Text) : Absent (mask text) := by
  obtain ⟨ranges, hranges⟩ := exists_blocks text 0
  rw [hranges.mask_eq]
  constructor
  · intro hdashes
    obtain ⟨place, hhere⟩ := exists_pair_of_isInfix hdashes
    obtain ⟨hblocked, hseen, -⟩ := (pair_blankAt_iff (by decide) (by decide)).mp hhere
    refine hseen ⟨place, Nat.le_refl place, hblocked, ?_⟩
    obtain ⟨rest, hrest⟩ := hblocked
    simp [Text.slice, ← hrest]
  · intro hopener
    obtain ⟨place, hhere⟩ := exists_pair_of_isInfix hopener
    obtain ⟨hblocked, -, -⟩ := (pair_blankAt_iff (by decide) (by decide)).mp hhere
    obtain ⟨hwritten, hseen, -⟩ := (pair_blankAt_iff (by decide) (by decide)).mp hblocked
    exact hseen (hranges.covered_of_opener (Nat.zero_le place) hwritten)

/-- Masking blanks the block comments of a text, found from left to right, and then what follows two
dashes on a line of what that leaves. So every character stays or becomes a blank, no comment begins
in what is left, and masking that again changes nothing. -/
theorem mask_eq_blankAt (text : Text) :
    ∃ ranges, (∀ others, Blocks text 0 others ↔ others = ranges) ∧
      mask text =
        blankAt (Dashed (blankAt (Covered ranges) text)) (blankAt (Covered ranges) text) ∧
      (mask text).length = text.length ∧ List.Forall₂ Masked text (mask text) ∧
      Absent (mask text) ∧ mask (mask text) = mask text := by
  obtain ⟨ranges, hranges⟩ := exists_blocks text 0
  exact ⟨ranges, fun others => hranges.iff_eq, hranges.mask_eq, length_mask text, masked_mask text,
    absent_mask text, (absent_mask text).mask_eq⟩

end JoinGraph.Comment
