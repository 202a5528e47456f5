import JoinGraph.Proofs.Text.Words
import JoinGraph.Text.Capital
import JoinGraph.Text.Scan
import Mathlib.Data.List.Forall2

/-!
Spellings of a text.

Two texts are spellings of one another when they differ in the case of ASCII letters and in the
choice of blanks only. All spellings of a text have one canonical spelling, and the readers of words
read from it the canonical spelling of what they read from the text itself.
-/

namespace JoinGraph

/-- The characters differ in case only, or both are blank. -/
def Respelled (c d : Char) : Prop :=
  c.toUpper = d.toUpper ∨ (isBlank c = true ∧ isBlank d = true)

/-- The one spelling that stands for all spellings of a character. -/
def canonical (c : Char) : Char :=
  if isBlank c then ' ' else c.toUpper

namespace Text

def canon (text : Text) : Text :=
  text.map canonical

@[simp] theorem canon_nil : canon [] = [] := rfl

@[simp] theorem canon_cons (c : Char) (rest : Text) :
    canon (c :: rest) = canonical c :: canon rest := rfl

@[simp] theorem canon_append (first second : Text) :
    canon (first ++ second) = canon first ++ canon second :=
  List.map_append

@[simp] theorem length_canon (text : Text) : text.canon.length = text.length :=
  List.length_map _

theorem length_eq_of_canon_eq {first second : Text} (h : first.canon = second.canon) :
    first.length = second.length := by
  rw [← length_canon, h, length_canon]

end Text

namespace Spelling

open Text Word

/-- The characters that have another spelling and are not the canonical one. -/
def variants : List Char :=
  blankCodes.map Char.ofNat ++ "abcdefghijklmnopqrstuvwxyz".toList

theorem toUpper_eq_self {c : Char} (h : ¬ (97 ≤ c.toNat ∧ c.toNat ≤ 122)) : c.toUpper = c :=
  dif_neg h

theorem capital_of_toUpper {c letter : Char} (h : c.toUpper = letter)
    (hletter : letter.toNat < 128) : capital c = [letter] := by
  have hascii : c.toNat < 128 := by
    by_contra hge
    have hself : c.toUpper = c := toUpper_eq_self (by omega)
    rw [← h, hself] at hletter
    contradiction
  rw [capital, if_pos hascii, h]

theorem capital_eq_fold {c : Char} (hdotted : c ≠ '\u0130') (hkelvin : c ≠ '\u212A')
    (hascii : (fold c).toNat < 128) : capital c = [fold c] := by
  by_cases hdotless : c = '\u0131'
  · subst hdotless
    decide
  · by_cases hlong : c = '\u017F'
    · subst hlong
      decide
    · have hupper : fold c = c.toUpper := by
        simp [fold, hdotted, hdotless, hlong, hkelvin]
      exact capital_of_toUpper hupper.symm hascii

theorem upper_eq_map_fold {name : Text} (hascii : ∀ c ∈ name, (fold c).toNat < 128)
    (hdotted : '\u0130' ∉ name) (hkelvin : '\u212A' ∉ name) : name.upper = name.map fold := by
  induction name with
  | nil => rfl
  | cons c rest ih =>
      obtain ⟨hc, hrest⟩ := List.forall_mem_cons.mp hascii
      rw [List.mem_cons, not_or] at hdotted hkelvin
      rw [upper_cons, capital_eq_fold (Ne.symm hdotted.1) (Ne.symm hkelvin.1) hc,
        ih hrest hdotted.2 hkelvin.2]
      rfl

theorem upper_eq_of_map_fold {word name : Text}
    (hword : ∀ letter ∈ word, letter.toNat < 128 ∧ letter ∉ ['I', 'S', 'K'])
    (h : name.map fold = word) : name.upper = word := by
  subst h
  apply upper_eq_map_fold
  · intro c hc
    exact (hword _ (List.mem_map_of_mem hc)).1
  · intro hdotted
    exact (hword _ (List.mem_map_of_mem hdotted)).2 (by decide)
  · intro hkelvin
    exact (hword _ (List.mem_map_of_mem hkelvin)).2 (by decide)

theorem canonical_eq_self_or_mem (c : Char) : canonical c = c ∨ c ∈ variants := by
  unfold canonical
  split
  · next hblank =>
      right
      apply List.mem_append_left
      rw [List.mem_map]
      exact ⟨c.toNat, mem_blankCodes hblank, Char.ofNat_toNat c⟩
  · by_cases hsmall : 97 ≤ c.toNat ∧ c.toNat ≤ 122
    · right
      apply List.mem_append_right
      have hall : ∀ code ∈ List.range' 97 26,
          Char.ofNat code ∈ "abcdefghijklmnopqrstuvwxyz".toList := by
        decide
      rw [← Char.ofNat_toNat c]
      exact hall c.toNat (List.mem_range'_1.mpr (by omega))
    · left
      exact toUpper_eq_self hsmall

/-- What is the same for the finitely many variants is the same for every spelling. -/
theorem apply_canonical {α : Type} [DecidableEq α] (f : Char → α)
    (h : (variants.all fun c => decide (f (canonical c) = f c)) = true) (c : Char) :
    f (canonical c) = f c := by
  rcases canonical_eq_self_or_mem c with hsame | hmem
  · rw [hsame]
  · exact of_decide_eq_true (List.all_eq_true.mp h c hmem)

theorem isBlank_canonical (c : Char) : isBlank (canonical c) = isBlank c :=
  apply_canonical isBlank (by decide) c

theorem isFolded_canonical (c : Char) : isFolded (canonical c) = isFolded c :=
  apply_canonical isFolded (by decide) c

theorem isPlain_canonical (c : Char) : isPlain (canonical c) = isPlain c :=
  apply_canonical isPlain (by decide) c

theorem isInitial_canonical (c : Char) : isInitial (canonical c) = isInitial c :=
  apply_canonical isInitial (by decide) c

/-- The characters that the readers look for one by one. -/
def symbols : List Char :=
  ['.', ',', '(', ')', '=', '<', '>', '!', '-', '/', '*']

theorem canonical_symbol {s : Char} (hs : s ∈ symbols) : canonical s = s := by
  have hall : (symbols.all fun s => decide (canonical s = s)) = true := by decide
  exact of_decide_eq_true (List.all_eq_true.mp hall s hs)

theorem canonical_eq_symbol_iff {s c : Char} (hs : s ∈ symbols) : canonical c = s ↔ c = s := by
  have hall : (symbols.all fun s => variants.all fun c =>
      decide (decide (canonical c = s) = decide (c = s))) = true := by
    decide
  exact decide_eq_decide.mp
    (apply_canonical (fun c => decide (c = s)) (List.all_eq_true.mp hall s hs) c)

theorem eq_cons_of_canon {s : Char} (hs : s ∈ symbols) {text tail : Text}
    (h : text.canon = s :: tail) : ∃ rest : Text, text = s :: rest ∧ rest.canon = tail := by
  obtain ⟨c, rest, rfl, hc, hrest⟩ := List.map_eq_cons_iff.mp h
  exact ⟨rest, by rw [(canonical_eq_symbol_iff hs).mp hc], hrest⟩

theorem fold_canonical {c : Char} (hc : isBlank c = false) : fold (canonical c) = fold c := by
  have h := apply_canonical (fun c => if isBlank c then none else some (fold c)) (by decide) c
  simpa [isBlank_canonical, hc] using h

theorem fold_canonical_eq_iff {letter c : Char} (hletter : isPlain letter = true) :
    fold (canonical c) = letter ↔ fold c = letter := by
  cases hblank : isBlank c with
  | false => rw [fold_canonical hblank]
  | true =>
      have hplain : ∀ d : Char, isBlank d = true → fold d ≠ letter := by
        rintro d hd rfl
        rw [← isFolded, isFolded_eq_false_of_isBlank hd] at hletter
        contradiction
      constructor
      · intro h
        exact absurd h (hplain _ (by rw [isBlank_canonical, hblank]))
      · intro h
        exact absurd h (hplain _ hblank)

theorem capital_canonical {c : Char} (hc : isBlank c = false) :
    capital (canonical c) = capital c := by
  have h := apply_canonical (fun c => if isBlank c then [] else capital c) (by decide) c
  simpa [isBlank_canonical, hc] using h

theorem upper_canon {text : Text} (h : ∀ c ∈ text, isBlank c = false) :
    text.canon.upper = text.upper := by
  induction text with
  | nil => rfl
  | cons c rest ih =>
      obtain ⟨hc, hrest⟩ := List.forall_mem_cons.mp h
      rw [canon_cons, upper_cons, upper_cons, capital_canonical hc, ih hrest]

theorem isBlank_toUpper (c : Char) : isBlank c.toUpper = isBlank c := by
  cases hblank : isBlank c with
  | false =>
      have hsame := isBlank_canonical c
      rw [canonical, hblank] at hsame
      exact hsame
  | true =>
      have hall : ∀ code ∈ blankCodes, isBlank (Char.ofNat code).toUpper = true := by decide
      have hupper := hall c.toNat (mem_blankCodes hblank)
      rw [Char.ofNat_toNat] at hupper
      exact hupper

theorem respelled_iff {c d : Char} : Respelled c d ↔ canonical c = canonical d := by
  constructor
  · rintro (hupper | ⟨hc, hd⟩)
    · have hblank : isBlank c = isBlank d := by
        rw [← isBlank_toUpper c, hupper, isBlank_toUpper]
      rw [canonical, canonical, hblank, hupper]
    · rw [canonical, canonical, if_pos hc, if_pos hd]
  · intro hsame
    have hblank : isBlank c = isBlank d := by
      rw [← isBlank_canonical c, hsame, isBlank_canonical]
    cases hc : isBlank c with
    | true => exact Or.inr ⟨hc, hblank ▸ hc⟩
    | false =>
        left
        rw [canonical, canonical, ← hblank, hc] at hsame
        exact hsame

theorem forall₂_respelled_iff {first second : Text} :
    List.Forall₂ Respelled first second ↔ first.canon = second.canon := by
  have hsame : Respelled = fun c d => canonical c = canonical d := by
    funext c d
    exact propext respelled_iff
  rw [hsame, ← List.forall₂_eq_eq_eq, canon, canon, List.forall₂_map_left_iff,
    List.forall₂_map_right_iff]

theorem forall₂_of_map_eq {α β : Type} {f : α → β} {items others : List α}
    (h : items.map f = others.map f) :
    List.Forall₂ (fun item other => item ∈ items ∧ other ∈ others ∧ f item = f other)
      items others := by
  have hsame : List.Forall₂ (fun item other => f item = f other) items others := by
    rw [← List.forall₂_map_right_iff, ← List.forall₂_map_left_iff, List.forall₂_eq_eq_eq]
    exact h
  rw [List.forall₂_iff_zip] at hsame ⊢
  refine ⟨hsame.1, ?_⟩
  intro item other hmem
  obtain ⟨hitem, hother⟩ := List.of_mem_zip hmem
  exact ⟨hitem, hother, hsame.2 hmem⟩

theorem pair_isInfix_canon_iff {s t : Char} (hs : s ∈ symbols) (ht : t ∈ symbols) {text : Text} :
    [s, t] <:+: text.canon ↔ [s, t] <:+: text := by
  constructor
  · rintro ⟨before, after, h⟩
    obtain ⟨front, rest, htext, hfront, -⟩ := List.map_eq_append_iff.mp h.symm
    obtain ⟨skipped, pair, rfl, -, hpair⟩ := List.map_eq_append_iff.mp hfront
    obtain ⟨tail, rfl, htail⟩ := eq_cons_of_canon hs hpair
    obtain ⟨others, rfl, hothers⟩ := eq_cons_of_canon ht htail
    obtain rfl := List.map_eq_nil_iff.mp hothers
    exact ⟨skipped, rest, htext.symm⟩
  · rintro ⟨before, after, rfl⟩
    refine ⟨canon before, canon after, ?_⟩
    rw [canon_append, canon_append, canon_cons, canon_cons, canon_nil, canonical_symbol hs,
      canonical_symbol ht]

/-- Readers that find respelled what they find in another text may stand one behind the other. -/
theorem bind_map_respelled {α β : Type} {found : Option α} {respell : α → α} {respellAll : β → β}
    {next reader : α → Option β}
    (h : ∀ item, next (respell item) = (reader item).map respellAll) :
    (found.map respell).bind next = (found.bind reader).map respellAll := by
  cases found with
  | none => rfl
  | some item => exact h item

section Runs

variable {p : Char → Bool} (hp : ∀ c, p (canonical c) = p c) (text : Text)

include hp

theorem takeWhile_canon : text.canon.takeWhile p = canon (text.takeWhile p) := by
  have hcomp : p ∘ canonical = p := funext hp
  rw [canon, List.takeWhile_map, hcomp, canon]

theorem dropWhile_canon : text.canon.dropWhile p = canon (text.dropWhile p) := by
  have hcomp : p ∘ canonical = p := funext hp
  rw [canon, List.dropWhile_map, hcomp, canon]

theorem identifier?_canon :
    identifier? p text.canon = (identifier? p text).map (Prod.map canon canon) := by
  rw [identifier?, identifier?, takeWhile_canon hp, dropWhile_canon hp]
  cases text.takeWhile p with
  | nil => rfl
  | cons c rest => rfl

end Runs

theorem blanks?_canon (text : Text) :
    blanks? text.canon = (blanks? text).map (Prod.map canon canon) := by
  rw [blanks?, blanks?, takeWhile_canon isBlank_canonical, dropWhile_canon isBlank_canonical]
  cases text.takeWhile isBlank with
  | nil => rfl
  | cons c rest => rfl

theorem key?_canon {word : Text} (hword : ∀ letter ∈ word, isPlain letter = true) (text : Text) :
    key? word text.canon = (key? word text).map (Prod.map canon canon) := by
  induction word generalizing text with
  | nil => rfl
  | cons letter word ih =>
      obtain ⟨hletter, hrest⟩ := List.forall_mem_cons.mp hword
      cases text with
      | nil => rfl
      | cons c rest =>
          simp only [canon_cons, key?, fold_canonical_eq_iff hletter]
          split
          · rw [ih hrest, Option.map_map, Option.map_map]
            rfl
          · rfl

theorem phrase?_canon {words : List Text}
    (hwords : ∀ word ∈ words, ∀ letter ∈ word, isPlain letter = true) (text : Text) :
    phrase? words text.canon = (phrase? words text).map (Prod.map canon canon) := by
  induction words generalizing text with
  | nil => rfl
  | cons word more ih =>
      obtain ⟨hword, hmore⟩ := List.forall_mem_cons.mp hwords
      cases more with
      | nil => exact key?_canon hword text
      | cons next others =>
          simp only [phrase?, key?_canon hword, Option.bind_eq_bind]
          refine bind_map_respelled ?_
          rintro ⟨read, afterWord⟩
          simp only [Prod.map, blanks?_canon]
          refine bind_map_respelled ?_
          rintro ⟨gap, afterGap⟩
          simp only [Prod.map, ih hmore]
          refine bind_map_respelled ?_
          rintro ⟨last, after⟩
          simp [Prod.map]

theorem segments_canon (text : Text) :
    segments text.canon = Prod.map canon canon (segments text) := by
  have hdot : '.' ∈ symbols := by decide
  induction text with
  | nil => rfl
  | cons c rest ih =>
      simp only [canon_cons, segments, isFolded_canonical, canonical_eq_symbol_iff hdot]
      split
      · rw [ih]
        rfl
      · split
        · cases rest with
          | nil => rfl
          | cons d others =>
              simp only [canon_cons, isFolded_canonical]
              split
              · rw [← canon_cons, ih]
                rfl
              · rfl
        · rfl

theorem dotted?_canon (text : Text) :
    dotted? text.canon = (dotted? text).map (Prod.map canon canon) := by
  cases text with
  | nil => rfl
  | cons c rest =>
      have hsegments := segments_canon (c :: rest)
      rw [canon_cons] at hsegments
      simp only [canon_cons, dotted?, isFolded_canonical, hsegments]
      split
      · rfl
      · rfl

/-- What was found at a place, respelled. -/
def atPlace {α : Type} (respell : α → α) (found : Nat × α) : Nat × α :=
  (found.1, respell found.2)

section Occurrences

variable {α : Type} {isWord : Char → Bool} {recognise : Text → Option (α × Nat)} {respell : α → α}
  (hword : ∀ c, isWord (canonical c) = isWord c)
  (hrecognise : ∀ text : Text,
    recognise text.canon = (recognise text).map (Prod.map respell id))

include hword hrecognise

theorem occurrencesFrom_canon (offset : Nat) (inWord : Bool) (skip : Nat) (text : Text) :
    occurrencesFrom isWord recognise offset inWord skip text.canon =
      (occurrencesFrom isWord recognise offset inWord skip text).map (atPlace respell) := by
  induction text generalizing offset inWord skip with
  | nil => cases skip <;> rfl
  | cons c rest ih =>
      cases skip with
      | succ skip => simp only [canon_cons, occurrencesFrom, hword, ih]
      | zero =>
          have hfound := hrecognise (c :: rest)
          rw [canon_cons] at hfound
          simp only [canon_cons, occurrencesFrom, hword, hfound]
          cases inWord with
          | true => exact ih _ _ _
          | false =>
              cases recognise (c :: rest) with
              | none => exact ih _ _ _
              | some found => exact congrArg _ (ih _ _ _)

theorem occurrences_canon (text : Text) :
    occurrences isWord recognise text.canon =
      (occurrences isWord recognise text).map (atPlace respell) :=
  occurrencesFrom_canon hword hrecognise 0 false 0 text

omit hrecognise in
theorem occurrences_read_canon {read : Text → Option α} {size : α → Nat}
    (hread : ∀ text : Text, read text.canon = (read text).map respell)
    (hsize : ∀ found, size (respell found) = size found) (text : Text) :
    occurrences isWord (fun rest => (read rest).map fun found => (found, size found)) text.canon =
      (occurrences isWord (fun rest => (read rest).map fun found => (found, size found)) text).map
        (atPlace respell) := by
  apply occurrences_canon hword
  intro rest
  rw [hread, Option.map_map, Option.map_map]
  congr 1
  funext found
  exact Prod.ext rfl (hsize found)

end Occurrences

end Spelling

end JoinGraph
