import JoinGraph.Comment
import Mathlib.Data.List.Infix

namespace JoinGraph.Comment

/-- A text of plain characters and of block comments, each of which is closed. -/
inductive Closed : Text → Prop
  | nil : Closed []
  | comment {inside rest : Text} (hinside : ¬ ['*', '/'] <:+: inside) (hrest : Closed rest) :
      Closed ('/' :: '*' :: (inside ++ '*' :: '/' :: rest))
  | plain {c : Char} {rest : Text} (hopens : ¬ ['/', '*'] <+: c :: rest) (hrest : Closed rest) :
      Closed (c :: rest)

def block (inside : Text) : Text :=
  '/' :: '*' :: (inside ++ ['*', '/'])

def line (inside : Text) : Text :=
  '-' :: '-' :: (inside ++ ['\n'])

theorem block_append (inside rest : Text) :
    block inside ++ rest = '/' :: '*' :: (inside ++ '*' :: '/' :: rest) := by
  simp only [block, List.cons_append, List.append_assoc, List.nil_append]

theorem line_append (inside rest : Text) :
    line inside ++ rest = '-' :: '-' :: (inside ++ '\n' :: rest) := by
  simp only [line, List.cons_append, List.append_assoc, List.nil_append]

theorem closed_block_append {inside rest : Text} (hinside : ¬ ['*', '/'] <:+: inside)
    (hrest : Closed rest) : Closed (block inside ++ rest) := by
  rw [block_append]
  exact .comment hinside hrest

theorem pair_isPrefix_cons_iff {a b c : Char} {rest : Text} :
    [a, b] <+: c :: rest ↔ a = c ∧ rest.head? = some b := by
  rw [List.cons_prefix_cons]
  cases rest with
  | nil => simp
  | cons d rest => simp [List.cons_prefix_cons, eq_comm]

theorem pair_not_isPrefix_append {a b c : Char} {rest after : Text}
    (hwithin : ¬ [a, b] <+: c :: rest)
    (hedge : rest = [] → a = c → after.head? ≠ some b) :
    ¬ [a, b] <+: c :: (rest ++ after) := by
  rw [pair_isPrefix_cons_iff] at hwithin ⊢
  rintro ⟨rfl, hhead⟩
  cases rest with
  | nil => exact hedge rfl rfl hhead
  | cons d rest => exact hwithin ⟨rfl, hhead⟩

section Blocks

theorem maskBlocks_false_cons {c : Char} {rest : Text} (h : ¬ ['/', '*'] <+: c :: rest) :
    maskBlocks false (c :: rest) = c :: maskBlocks false rest := by
  rw [maskBlocks]
  rintro tail rfl rfl
  exact h (List.prefix_append ['/', '*'] tail)

theorem maskBlocks_true_cons {c : Char} {rest : Text} (h : ¬ ['*', '/'] <+: c :: rest) :
    maskBlocks true (c :: rest) = ' ' :: maskBlocks true rest := by
  rw [maskBlocks]
  rintro tail rfl rfl
  exact h (List.prefix_append ['*', '/'] tail)

theorem maskBlocks_inside {inside : Text} (h : ¬ ['*', '/'] <:+: inside) (rest : Text) :
    maskBlocks true (inside ++ '*' :: '/' :: rest) =
      List.replicate (inside.length + 2) ' ' ++ maskBlocks false rest := by
  induction inside with
  | nil => rfl
  | cons c inside ih =>
      rw [List.infix_cons_iff, not_or] at h
      obtain ⟨hbegins, hinside⟩ := h
      have hcloses : ¬ ['*', '/'] <+: c :: (inside ++ '*' :: '/' :: rest) := by
        apply pair_not_isPrefix_append hbegins
        intro _ _
        simp
      rw [List.cons_append, maskBlocks_true_cons hcloses, ih hinside]
      rfl

theorem maskBlocks_append {before after : Text} (hbefore : Closed before)
    (hedge : before.getLast? = some '/' → after.head? ≠ some '*') :
    maskBlocks false (before ++ after) = maskBlocks false before ++ maskBlocks false after := by
  induction hbefore with
  | nil => rfl
  | @comment inside rest hinside _ ih =>
      have hrest : rest.getLast? = some '/' → after.head? ≠ some '*' := by
        intro hlast
        apply hedge
        rw [List.getLast?_cons, List.getLast?_cons, List.getLast?_append, List.getLast?_cons,
          List.getLast?_cons, hlast]
        rfl
      calc
        maskBlocks false ('/' :: '*' :: (inside ++ '*' :: '/' :: rest) ++ after) =
            ' ' :: ' ' :: maskBlocks true (inside ++ '*' :: '/' :: (rest ++ after)) := by
          simp only [List.cons_append, List.append_assoc, maskBlocks]
        _ = maskBlocks false ('/' :: '*' :: (inside ++ '*' :: '/' :: rest)) ++
            maskBlocks false after := by
          simp only [maskBlocks, maskBlocks_inside hinside, ih hrest, List.cons_append,
            List.append_assoc]
  | @plain c rest hopens _ ih =>
      have hrest : rest.getLast? = some '/' → after.head? ≠ some '*' := by
        intro hlast
        apply hedge
        rw [List.getLast?_cons, hlast]
        rfl
      have hpair : ¬ ['/', '*'] <+: c :: (rest ++ after) := by
        apply pair_not_isPrefix_append hopens
        rintro rfl rfl
        exact hedge rfl
      rw [List.cons_append, maskBlocks_false_cons hpair, maskBlocks_false_cons hopens, ih hrest]
      rfl

theorem maskBlocks_block {inside : Text} (h : ¬ ['*', '/'] <:+: inside) (after : Text) :
    maskBlocks false (block inside ++ after) =
      List.replicate (inside.length + 4) ' ' ++ maskBlocks false after := by
  rw [block_append, maskBlocks, maskBlocks_inside h]
  rfl

theorem closed_of_not_isInfix {text : Text} (h : ¬ ['/', '*'] <:+: text) : Closed text := by
  induction text with
  | nil => exact .nil
  | cons c rest ih =>
      rw [List.infix_cons_iff, not_or] at h
      exact .plain h.1 (ih h.2)

theorem maskBlocks_of_not_isInfix {text : Text} (h : ¬ ['/', '*'] <:+: text) :
    maskBlocks false text = text := by
  induction text with
  | nil => rfl
  | cons c rest ih =>
      rw [List.infix_cons_iff, not_or] at h
      rw [maskBlocks_false_cons h.1, ih h.2]

theorem maskBlocks_replicate (count : Nat) (after : Text) :
    maskBlocks false (List.replicate count ' ' ++ after) =
      List.replicate count ' ' ++ maskBlocks false after := by
  induction count with
  | zero => rfl
  | succ count ih =>
      rw [List.replicate_succ, List.cons_append, maskBlocks_false_cons, ih]
      · rfl
      · rw [pair_isPrefix_cons_iff]
        rintro ⟨hslash, -⟩
        exact absurd hslash (by decide)

end Blocks

section Lines

theorem maskLines_false_cons {c : Char} {rest : Text} (hnewline : c ≠ '\n')
    (h : ¬ ['-', '-'] <+: c :: rest) :
    maskLines false (c :: rest) = c :: maskLines false rest := by
  rw [maskLines]
  · exact hnewline
  · rintro tail rfl rfl
    exact h (List.prefix_append ['-', '-'] tail)

theorem maskLines_of_not_isInfix {text : Text} (h : ¬ ['-', '-'] <:+: text) :
    maskLines false text = text := by
  induction text with
  | nil => rfl
  | cons c rest ih =>
      rw [List.infix_cons_iff, not_or] at h
      by_cases hnewline : c = '\n'
      · rw [hnewline, maskLines, ih h.2]
      · rw [maskLines_false_cons hnewline h.1, ih h.2]

theorem maskLines_inside {inside : Text} (h : '\n' ∉ inside) (rest : Text) :
    maskLines true (inside ++ '\n' :: rest) =
      List.replicate inside.length ' ' ++ '\n' :: maskLines false rest := by
  induction inside with
  | nil => rfl
  | cons c inside ih =>
      rw [List.mem_cons, not_or] at h
      rw [List.cons_append, maskLines, ih h.2]
      · rfl
      · intro hc
        exact h.1 hc.symm

theorem maskLines_line (flag : Bool) (before : Text) {inside : Text} (h : '\n' ∉ inside)
    (after : Text) : maskLines flag (before ++ (line inside ++ after)) =
      maskLines flag (before ++ ['-', '-']) ++
        (List.replicate inside.length ' ' ++ '\n' :: maskLines false after) := by
  rw [line_append]
  fun_induction maskLines flag before with
  | case1 flag =>
      cases flag with
      | false => simp only [List.nil_append, maskLines, maskLines_inside h, List.cons_append]
      | true =>
          simp [maskLines, maskLines_inside h]
  | case2 flag rest ih => simp only [List.cons_append, maskLines, ih]
  | case3 rest ih => simp only [List.cons_append, maskLines, ih]
  | case4 c rest hnewline hdashes ih =>
      have hpair : ¬ ['-', '-'] <+: c :: rest := by
        rw [pair_isPrefix_cons_iff]
        rintro ⟨rfl, hhead⟩
        obtain ⟨tail, rfl⟩ := List.head?_eq_some_iff.mp hhead
        exact hdashes tail rfl rfl
      by_cases hlast : rest = [] ∧ c = '-'
      · -- A dash before the two opens the comment one character earlier.
        obtain ⟨rfl, rfl⟩ := hlast
        simp [maskLines, maskLines_inside h]
      · have hstep : ∀ tail : Text, maskLines false (c :: (rest ++ '-' :: tail)) =
            c :: maskLines false (rest ++ '-' :: tail) := by
          intro tail
          apply maskLines_false_cons hnewline
          apply pair_not_isPrefix_append hpair
          intro hrest hdash
          exact absurd ⟨hrest, hdash.symm⟩ hlast
        rw [List.cons_append, hstep, ih, List.cons_append, hstep]
        rfl
  | case5 c rest hnewline ih =>
      rw [List.cons_append, List.cons_append, maskLines, maskLines, ih]
      · rfl
      · exact hnewline
      · exact hnewline

end Lines

/-- The text begins no comment. -/
structure Absent (text : Text) : Prop where
  line : ¬ ['-', '-'] <:+: text
  block : ¬ ['/', '*'] <:+: text

theorem Absent.mask_eq {text : Text} (h : Absent text) : mask text = text := by
  rw [mask, maskBlocks_of_not_isInfix h.block, maskLines_of_not_isInfix h.line]

theorem mask_block {before inside : Text} (hbefore : Closed before)
    (hinside : ¬ ['*', '/'] <:+: inside) (after : Text) :
    mask (before ++ (block inside ++ after)) =
      mask (before ++ (List.replicate (inside.length + 4) ' ' ++ after)) := by
  have hblock : maskBlocks false (before ++ (block inside ++ after)) =
      maskBlocks false before ++
        (List.replicate (inside.length + 4) ' ' ++ maskBlocks false after) := by
    rw [maskBlocks_append hbefore, maskBlocks_block hinside]
    intro _
    simp [block]
  have hblanks : maskBlocks false
      (before ++ (List.replicate (inside.length + 4) ' ' ++ after)) =
      maskBlocks false before ++
        (List.replicate (inside.length + 4) ' ' ++ maskBlocks false after) := by
    rw [maskBlocks_append hbefore, maskBlocks_replicate]
    intro _
    simp [List.replicate_succ]
  rw [mask, mask, hblock, hblanks]

theorem line_not_isInfix {inside : Text} (h : ¬ ['/', '*'] <:+: inside) :
    ¬ ['/', '*'] <:+: line inside := by
  have hend : ¬ ['/', '*'] <:+: inside ++ ['\n'] := by
    rw [List.infix_concat_iff, not_or]
    refine ⟨?_, h⟩
    rintro ⟨front, hfront⟩
    have hlast := congrArg List.getLast? hfront
    simp at hlast
  rw [line, List.infix_cons_iff, List.infix_cons_iff, pair_isPrefix_cons_iff,
    pair_isPrefix_cons_iff]
  rintro (⟨hslash, -⟩ | ⟨hslash, -⟩ | hinfix)
  · exact absurd hslash (by decide)
  · exact absurd hslash (by decide)
  · exact hend hinfix

theorem mask_line {before inside : Text} (hbefore : Closed before) (hnewline : '\n' ∉ inside)
    (hinside : ¬ ['/', '*'] <:+: inside) (after : Text) :
    mask (before ++ (line inside ++ after)) =
      maskLines false (maskBlocks false before ++ ['-', '-']) ++
        (List.replicate inside.length ' ' ++ '\n' :: mask after) := by
  have hline := line_not_isInfix hinside
  have hblocks : maskBlocks false (before ++ (line inside ++ after)) =
      maskBlocks false before ++ (line inside ++ maskBlocks false after) := by
    rw [maskBlocks_append hbefore, maskBlocks_append (closed_of_not_isInfix hline),
      maskBlocks_of_not_isInfix hline]
    · intro hlast
      have hend : (('-' :: '-' :: inside) ++ ['\n']).getLast? = some '/' := hlast
      rw [List.getLast?_concat] at hend
      exact absurd hend (by decide)
    · intro _
      simp [line]
  rw [mask, hblocks, maskLines_line false _ hnewline]
  rfl

end JoinGraph.Comment
