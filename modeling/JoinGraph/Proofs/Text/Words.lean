import JoinGraph.Text.Word
import Mathlib.Data.List.Basic

/-!
What the readers of words leave behind, and where they stop.

No reader of words looks past a barrier: a character that is no blank, no dot and in no identifier,
such as a parenthesis or a comma. What a reader finds in front of a barrier it finds whatever
follows the barrier.
-/

namespace JoinGraph.Word

def blankCodes : List Nat :=
  List.range' 9 5 ++ List.range' 28 5 ++ List.range' 0x2000 11 ++
    [0x85, 0xA0, 0x1680, 0x2028, 0x2029, 0x202F, 0x205F, 0x3000]

theorem mem_blankCodes {c : Char} (h : isBlank c = true) : c.toNat ∈ blankCodes := by
  simp only [isBlank, Bool.or_eq_true, Bool.and_eq_true, decide_eq_true_eq, beq_iff_eq] at h
  simp only [blankCodes, List.mem_append, List.mem_range'_1, List.mem_cons, List.not_mem_nil,
    or_false]
  omega

theorem isFolded_eq_false_of_isBlank {c : Char} (h : isBlank c = true) : isFolded c = false := by
  have hall : ∀ code ∈ blankCodes, isFolded (Char.ofNat code) = false := by decide
  rw [← Char.ofNat_toNat c]
  exact hall c.toNat (mem_blankCodes h)

theorem isPlain_eq_false_of_isBlank {c : Char} (h : isBlank c = true) : isPlain c = false := by
  have hall : ∀ code ∈ blankCodes, isPlain (Char.ofNat code) = false := by decide
  rw [← Char.ofNat_toNat c]
  exact hall c.toNat (mem_blankCodes h)

theorem isBlank_eq_false_of_isPlain {c : Char} (h : isPlain c = true) : isBlank c = false := by
  by_contra hblank
  rw [isPlain_eq_false_of_isBlank (by simpa using hblank)] at h
  contradiction

theorem toNat_lt_of_isPlain {c : Char} (h : isPlain c = true) : c.toNat < 128 := by
  have hbelow : ∀ {last : UInt32}, last.toNat < 128 → c.val ≤ last → c.toNat < 128 :=
    fun hlast hle => Nat.lt_of_le_of_lt (UInt32.le_iff_toNat_le.mp hle) hlast
  simp only [isPlain, Bool.or_eq_true, beq_iff_eq] at h
  rcases h with (halphanum | rfl) | rfl
  · rcases Bool.or_eq_true_iff.mp halphanum with halpha | hdigit
    · rcases Bool.or_eq_true_iff.mp halpha with hupper | hlower
      · exact hbelow (by decide) (of_decide_eq_true hupper).2
      · exact hbelow (by decide) (of_decide_eq_true (Bool.and_eq_true_iff.mp hlower).2)
    · exact hbelow (by decide) (of_decide_eq_true (Bool.and_eq_true_iff.mp hdigit).2)
  · decide
  · decide

theorem isFolded_of_isPlain {c : Char} (h : isPlain c = true) : isFolded c = true := by
  have hall : ∀ code < 128, isPlain (Char.ofNat code) = true →
      isFolded (Char.ofNat code) = true := by
    decide
  rw [← Char.ofNat_toNat c] at h ⊢
  exact hall _ (toNat_lt_of_isPlain (Char.ofNat_toNat c ▸ h)) h

def isDotted (c : Char) : Bool :=
  isFolded c || c == '.'

theorem isDotted_of_isFolded {c : Char} (h : isFolded c = true) : isDotted c = true := by
  simp [isDotted, h]

theorem isDotted_of_isPlain {c : Char} (h : isPlain c = true) : isDotted c = true :=
  isDotted_of_isFolded (isFolded_of_isPlain h)

theorem isDotted_eq_false_iff {c : Char} :
    isDotted c = false ↔ isFolded c = false ∧ c ≠ '.' := by
  simp [isDotted]

theorem isDotted_eq_false_of_isBlank {c : Char} (h : isBlank c = true) : isDotted c = false := by
  have hdot : c ≠ '.' := by
    rintro rfl
    revert h
    decide
  simp [isDotted, isFolded_eq_false_of_isBlank h, hdot]

theorem isBlank_eq_false_of_isDotted {c : Char} (h : isDotted c = true) : isBlank c = false := by
  by_contra hblank
  rw [isDotted_eq_false_of_isBlank (by simpa using hblank)] at h
  contradiction

theorem dot_notMem_of_isFolded {name : Text} (h : ∀ c ∈ name, isFolded c = true) :
    '.' ∉ name := by
  intro hmem
  have hfolded := h '.' hmem
  revert hfolded
  decide

structure IsIdentifier (name : Text) : Prop where
  ne_nil : name ≠ []
  plain : ∀ c ∈ name, isPlain c = true

theorem IsIdentifier.dot_notMem {name : Text} (h : IsIdentifier name) : '.' ∉ name :=
  dot_notMem_of_isFolded fun c hc => isFolded_of_isPlain (h.plain c hc)

theorem isIdentifier_of_identifier? {text name after : Text}
    (h : identifier? isPlain text = some (name, after)) : IsIdentifier name where
  ne_nil := (append_of_identifier? h).2
  plain := fun _ hc => isWord_of_mem_identifier? h hc

/-- A character that no reader of words takes. -/
structure IsBarrier (c : Char) : Prop where
  not_folded : isFolded c = false
  not_blank : isBlank c = false
  not_dot : c ≠ '.'

instance (c : Char) : Decidable (IsBarrier c) :=
  decidable_of_iff (isFolded c = false ∧ isBlank c = false ∧ c ≠ '.')
    ⟨fun ⟨hfolded, hblank, hdot⟩ => ⟨hfolded, hblank, hdot⟩,
      fun ⟨hfolded, hblank, hdot⟩ => ⟨hfolded, hblank, hdot⟩⟩

theorem IsBarrier.not_dotted {c : Char} (h : IsBarrier c) : isDotted c = false :=
  isDotted_eq_false_iff.mpr ⟨h.not_folded, h.not_dot⟩

section Runs

variable {p : Char → Bool} {c : Char}

/-- A run of `p` from the front of the text ends before it gets past `c` behind the text. -/
def Halts (p : Char → Bool) (c : Char) (text : Text) : Prop :=
  p c = false ∨ ∃ d ∈ text, p d = false

theorem Halts.tail {d : Char} {rest : Text} (h : Halts p c (d :: rest)) (hd : p d = true) :
    Halts p c rest := by
  rcases h with hc | ⟨e, he, hfalse⟩
  · exact Or.inl hc
  · rcases List.mem_cons.mp he with rfl | he
    · rw [hd] at hfalse
      contradiction
    · exact Or.inr ⟨e, he, hfalse⟩

theorem Halts.nil (h : Halts p c []) : p c = false := by
  rcases h with hc | ⟨d, hd, -⟩
  · exact hc
  · cases hd

theorem takeWhile_append_cons {text : Text} (h : Halts p c text) (after : Text) :
    (text ++ c :: after).takeWhile p = text.takeWhile p := by
  induction text with
  | nil => simp [h.nil]
  | cons d rest ih =>
      cases hd : p d with
      | false => simp [hd]
      | true => simp [hd, ih (h.tail hd)]

theorem dropWhile_append_cons {text : Text} (h : Halts p c text) (after : Text) :
    (text ++ c :: after).dropWhile p = text.dropWhile p ++ c :: after := by
  induction text with
  | nil => simp [h.nil]
  | cons d rest ih =>
      cases hd : p d with
      | false => simp [hd]
      | true => simp [hd, ih (h.tail hd)]

theorem not_of_mem_head?_dropWhile {text : Text} (h : c ∈ (text.dropWhile p).head?) :
    p c = false := by
  have hhead := List.head?_dropWhile_not p text
  rw [Option.mem_def.mp h] at hhead
  simpa using hhead

theorem takeWhile_append_of_head {run rest : Text} (hrun : ∀ c ∈ run, p c = true)
    (hrest : ∀ c ∈ rest.head?, p c = false) : (run ++ rest).takeWhile p = run := by
  rw [List.takeWhile_append_of_pos hrun]
  cases rest with
  | nil => simp
  | cons d rest => simp [hrest d rfl]

theorem dropWhile_append_of_head {run rest : Text} (hrun : ∀ c ∈ run, p c = true)
    (hrest : ∀ c ∈ rest.head?, p c = false) : (run ++ rest).dropWhile p = rest := by
  rw [List.dropWhile_append_of_pos hrun]
  cases rest with
  | nil => rfl
  | cons d rest => simp [hrest d rfl]

theorem mem_of_mem_head?_append {run rest : Text} (hne : run ≠ [])
    (h : c ∈ (run ++ rest).head?) : c ∈ run := by
  rw [List.head?_append_of_ne_nil _ hne] at h
  exact List.mem_of_head? h

theorem of_mem_takeWhile {text : Text} (h : c ∈ text.takeWhile p) : p c = true :=
  List.all_eq_true.mp List.all_takeWhile c h

end Runs

theorem isBlank_eq_false_of_isFolded {c : Char} (h : isFolded c = true) : isBlank c = false := by
  by_contra hblank
  rw [isFolded_eq_false_of_isBlank (by simpa using hblank)] at h
  contradiction

section Complete

theorem blanks?_eq_some {gap : Text} (hgap : ∀ c ∈ gap, isBlank c = true) (hne : gap ≠ [])
    (rest : Text) (hrest : ∀ c ∈ rest.head?, isBlank c = false) :
    blanks? (gap ++ rest) = some (gap, rest) := by
  obtain ⟨c, gap, rfl⟩ := List.exists_cons_of_ne_nil hne
  simp only [blanks?, takeWhile_append_of_head hgap hrest, dropWhile_append_of_head hgap hrest]

theorem identifier?_eq_some {isWord : Char → Bool} {name : Text}
    (hname : ∀ c ∈ name, isWord c = true) (hne : name ≠ []) (rest : Text)
    (hrest : ∀ c ∈ rest.head?, isWord c = false) :
    identifier? isWord (name ++ rest) = some (name, rest) := by
  obtain ⟨c, name, rfl⟩ := List.exists_cons_of_ne_nil hne
  simp only [identifier?, takeWhile_append_of_head hname hrest,
    dropWhile_append_of_head hname hrest]

theorem key?_eq_some {word read : Text} (h : read.map fold = word) (rest : Text) :
    key? word (read ++ rest) = some (read, rest) := by
  subst h
  induction read with
  | nil => rfl
  | cons c read ih => simp only [List.map_cons, List.cons_append, key?, if_true, ih, Option.map_some]

theorem ne_nil_of_map_fold {word read : Text} (h : read.map fold = word) (hword : word ≠ []) :
    read ≠ [] := by
  rintro rfl
  exact hword h.symm

theorem isFolded_of_map_fold {word read : Text} (h : read.map fold = word)
    (hword : word.all isPlain = true) : ∀ c ∈ read, isFolded c = true := by
  intro c hc
  apply List.all_eq_true.mp hword
  rw [← h]
  exact List.mem_map_of_mem hc

end Complete

section Stops

variable {c : Char}

theorem fold_notMem_of_isPlain (hc : isFolded c = false) {word : Text}
    (hword : ∀ letter ∈ word, isPlain letter = true) : fold c ∉ word := by
  intro hmem
  have hplain := hword _ hmem
  rw [isFolded, hplain] at hc
  contradiction

theorem key?_append (hc : isFolded c = false) {word : Text}
    (hword : ∀ letter ∈ word, isPlain letter = true) (text after : Text) :
    key? word (text ++ c :: after) =
      (key? word text).map fun (read, rest) => (read, rest ++ c :: after) := by
  induction word generalizing text with
  | nil => rfl
  | cons letter word ih =>
      have hrest : ∀ other ∈ word, isPlain other = true := by
        intro other hother
        exact hword other (List.mem_cons_of_mem letter hother)
      cases text with
      | nil =>
          have hfold : fold c ≠ letter := by
            rintro rfl
            exact fold_notMem_of_isPlain hc hword List.mem_cons_self
          simp [key?, hfold]
      | cons d text =>
          simp only [List.cons_append, key?]
          split
          · rw [ih hrest, Option.map_map, Option.map_map]
            rfl
          · rfl

theorem blanks?_append {text : Text} (h : Halts isBlank c text) (after : Text) :
    blanks? (text ++ c :: after) =
      (blanks? text).map fun (gap, rest) => (gap, rest ++ c :: after) := by
  simp only [blanks?, takeWhile_append_cons h, dropWhile_append_cons h]
  split <;> rfl

theorem segments_append_cons (hc : isDotted c = false) (text after : Text) :
    segments (text ++ c :: after) = ((segments text).1, (segments text).2 ++ c :: after) := by
  obtain ⟨hfolded, hdot⟩ := isDotted_eq_false_iff.mp hc
  induction text with
  | nil => simp [segments, hfolded, hdot]
  | cons d rest ih =>
      simp only [List.cons_append, segments]
      split
      · rw [ih]
      · split
        · cases rest with
          | nil => simp [hfolded]
          | cons e rest =>
              simp only [List.cons_append] at ih ⊢
              split
              · rw [ih]
              · rfl
        · rfl

theorem dotted?_append (hc : isDotted c = false) (text after : Text) :
    dotted? (text ++ c :: after) =
      (dotted? text).map fun (name, rest) => (name, rest ++ c :: after) := by
  cases text with
  | nil => simp [dotted?, (isDotted_eq_false_iff.mp hc).1]
  | cons d rest =>
      simp only [List.cons_append, dotted?]
      split
      · rw [← List.cons_append, segments_append_cons hc]
        rfl
      · rfl

end Stops

theorem append_of_phrase? {words : List Text} {text read after : Text}
    (h : phrase? words text = some (read, after)) : text = read ++ after := by
  induction words generalizing text read after with
  | nil =>
      simp only [phrase?, Option.some.injEq, Prod.mk.injEq] at h
      obtain ⟨rfl, rfl⟩ := h
      rfl
  | cons word more ih =>
      cases more with
      | nil => exact (append_of_key? h).1
      | cons next others =>
          simp only [phrase?, Option.bind_eq_bind, Option.bind_eq_some_iff, Prod.exists,
            Option.pure_def, Option.some.injEq, Prod.mk.injEq] at h
          obtain ⟨key, afterKey, hkey, gap, afterGap, hgap, rest, last, hrest, rfl, rfl⟩ := h
          rw [(append_of_key? hkey).1, (append_of_blanks? hgap).1, ih hrest]
          simp only [List.append_assoc]

theorem isBlank_of_mem_blanks? {text gap after : Text} (h : blanks? text = some (gap, after))
    {c : Char} (hc : c ∈ gap) : isBlank c = true := by
  simp only [blanks?] at h
  split at h
  · simp at h
  · simp only [Option.some.injEq, Prod.mk.injEq] at h
    obtain ⟨rfl, rfl⟩ := h
    exact of_mem_takeWhile hc

section Dotted

theorem isDotted_of_mem_segments {text : Text} {c : Char} (h : c ∈ (segments text).1) :
    isDotted c = true := by
  induction text with
  | nil => simp [segments] at h
  | cons d rest ih =>
      simp only [segments] at h
      split at h
      · next hd =>
          rcases List.mem_cons.mp h with rfl | h
          · exact isDotted_of_isFolded hd
          · exact ih h
      · split at h
        · next hd =>
            subst hd
            split at h
            · simp at h
            · split at h
              · rcases List.mem_cons.mp h with rfl | h
                · rfl
                · exact ih h
              · simp at h
        · simp at h

theorem not_isFolded_after_segments {text : Text} {c : Char} (h : c ∈ (segments text).2.head?) :
    isFolded c = false := by
  induction text with
  | nil => simp [segments] at h
  | cons d rest ih =>
      simp only [segments] at h
      split at h
      · exact ih h
      · next hd =>
          have hd : isFolded d = false := by simpa using hd
          split at h
          · split at h
            · obtain rfl : d = c := by simpa using h
              exact hd
            · split at h
              · exact ih h
              · obtain rfl : d = c := by simpa using h
                exact hd
          · obtain rfl : d = c := by simpa using h
            exact hd

theorem isFolded_of_mem_getLast?_segments {text : Text} {c : Char}
    (h : c ∈ (segments text).1.getLast?) : isFolded c = true := by
  induction text with
  | nil => simp [segments] at h
  | cons d rest ih =>
      simp only [segments] at h
      split at h
      · next hd =>
          rw [List.getLast?_cons, Option.mem_def, Option.some.injEq] at h
          cases hlast : (segments rest).1.getLast? with
          | none =>
              rw [hlast] at h
              exact h ▸ hd
          | some last =>
              rw [hlast, Option.getD_some] at h
              exact ih (h ▸ hlast)
      · split at h
        · split at h
          · simp at h
          · next e others =>
              split at h
              · next he =>
                  have hne : (segments (e :: others)).1 ≠ [] := by
                    simp [segments, he]
                  rw [List.getLast?_cons_of_ne_nil hne] at h
                  exact ih h
              · simp at h
        · simp at h

variable {text name after : Text} (h : dotted? text = some (name, after))

include h

theorem eq_segments_of_dotted? : segments text = (name, after) := by
  cases text with
  | nil => simp [dotted?] at h
  | cons c rest =>
      simp only [dotted?] at h
      split at h
      · simpa using h
      · simp at h

theorem isDotted_of_mem_dotted? {c : Char} (hc : c ∈ name) : isDotted c = true := by
  have hmem : c ∈ (segments text).1 := by
    rw [eq_segments_of_dotted? h]
    exact hc
  exact isDotted_of_mem_segments hmem

theorem not_isFolded_after_dotted? {c : Char} (hc : c ∈ after.head?) : isFolded c = false := by
  have hhead : c ∈ (segments text).2.head? := by
    rw [eq_segments_of_dotted? h]
    exact hc
  exact not_isFolded_after_segments hhead

theorem isFolded_of_mem_getLast?_dotted? {c : Char} (hc : c ∈ name.getLast?) :
    isFolded c = true := by
  have hlast : c ∈ (segments text).1.getLast? := by
    rw [eq_segments_of_dotted? h]
    exact hc
  exact isFolded_of_mem_getLast?_segments hlast

end Dotted

end JoinGraph.Word
