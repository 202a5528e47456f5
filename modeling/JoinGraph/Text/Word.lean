import JoinGraph.Text.Blank

/-!
Identifiers and key words.

Two lexicons are in use. Comparisons between columns are read with the plain one, whose identifiers
are ASCII. Table references, aliases and WITH clauses are read without regard to case, and there
the four letters that fold into ASCII letters count as those: dotted capital I, dotless small i,
long s and the Kelvin sign.
-/

namespace JoinGraph.Word

/-- The characters of an identifier: ASCII letters and digits, the underscore and the dollar. -/
def isPlain (c : Char) : Bool :=
  c.isAlphanum || c == '_' || c == '$'

/-- The capital ASCII letter that `c` stands for without regard to case, else `c` itself. -/
def fold (c : Char) : Char :=
  if c = '\u0130' || c = '\u0131' then 'I'
  else if c = '\u017F' then 'S'
  else if c = '\u212A' then 'K'
  else c.toUpper

/-- The characters of an identifier without regard to case. -/
def isFolded (c : Char) : Bool :=
  isPlain (fold c)

/-- The characters that may begin an alias. -/
def isInitial (c : Char) : Bool :=
  isFolded c && !c.isDigit

/-- Read the key word `word`, given in capitals, at the front of a text, in any case. The answer
holds the characters read and those that follow. -/
def key? : Text → Text → Option (Text × Text)
  | [], text => some ([], text)
  | _ :: _, [] => none
  | letter :: word, c :: rest =>
      if fold c = letter then
        (key? word rest).map fun (read, after) => (c :: read, after)
      else none

theorem append_of_key? {word text read after : Text} (h : key? word text = some (read, after)) :
    text = read ++ after ∧ read.map fold = word := by
  induction word generalizing text read after with
  | nil =>
      simp only [key?, Option.some.injEq, Prod.mk.injEq] at h
      obtain ⟨rfl, rfl⟩ := h
      exact ⟨rfl, rfl⟩
  | cons letter word ih =>
      cases text with
      | nil => simp [key?] at h
      | cons c rest =>
          simp only [key?] at h
          split at h
          · next hc =>
              obtain ⟨⟨innerRead, innerAfter⟩, hinner, heq⟩ := Option.map_eq_some_iff.mp h
              simp only [Prod.mk.injEq] at heq
              obtain ⟨rfl, rfl⟩ := heq
              obtain ⟨rfl, hword⟩ := ih hinner
              exact ⟨rfl, by simp [hc, hword]⟩
          · simp at h

def blanks? (text : Text) : Option (Text × Text) :=
  match text.takeWhile isBlank with
  | [] => none
  | gap => some (gap, text.dropWhile isBlank)

theorem append_of_blanks? {text gap after : Text} (h : blanks? text = some (gap, after)) :
    text = gap ++ after ∧ gap ≠ [] := by
  simp only [blanks?] at h
  split at h
  · simp at h
  · next hgap =>
      simp only [Option.some.injEq, Prod.mk.injEq] at h
      obtain ⟨rfl, rfl⟩ := h
      exact ⟨List.takeWhile_append_dropWhile.symm, fun hnil => hgap hnil⟩

def phrase? : List Text → Text → Option (Text × Text)
  | [], text => some ([], text)
  | [word], text => key? word text
  | word :: more, text => do
      let (read, afterWord) ← key? word text
      let (gap, afterGap) ← blanks? afterWord
      let (others, after) ← phrase? more afterGap
      return (read ++ gap ++ others, after)

/-- Read an identifier: the longest run of the characters that `isWord` accepts, at least one. -/
def identifier? (isWord : Char → Bool) (text : Text) : Option (Text × Text) :=
  match text.takeWhile isWord with
  | [] => none
  | name => some (name, text.dropWhile isWord)

theorem append_of_identifier? {isWord : Char → Bool} {text name after : Text}
    (h : identifier? isWord text = some (name, after)) : text = name ++ after ∧ name ≠ [] := by
  simp only [identifier?] at h
  split at h
  · simp at h
  · next hname =>
      simp only [Option.some.injEq, Prod.mk.injEq] at h
      obtain ⟨rfl, rfl⟩ := h
      exact ⟨List.takeWhile_append_dropWhile.symm, fun hnil => hname hnil⟩

theorem isWord_of_mem_identifier? {isWord : Char → Bool} {text name after : Text}
    (h : identifier? isWord text = some (name, after)) {c : Char} (hc : c ∈ name) :
    isWord c = true := by
  simp only [identifier?] at h
  split at h
  · simp at h
  · simp only [Option.some.injEq, Prod.mk.injEq] at h
    obtain ⟨rfl, rfl⟩ := h
    exact List.all_eq_true.mp List.all_takeWhile c hc

theorem not_isWord_after_identifier? {isWord : Char → Bool} {text name rest : Text} {c : Char}
    (h : identifier? isWord text = some (name, c :: rest)) : isWord c = false := by
  simp only [identifier?] at h
  split at h
  · simp at h
  · simp only [Option.some.injEq, Prod.mk.injEq] at h
    have hhead := List.head?_dropWhile_not isWord text
    rw [h.2] at hhead
    simpa using hhead

/-- The rest of a dotted name, from inside one of its segments: a dot belongs to the name when
another segment follows it. -/
def segments : Text → Text × Text
  | [] => ([], [])
  | c :: rest =>
      if isFolded c then
        let (name, after) := segments rest
        (c :: name, after)
      else if c = '.' then
        match rest with
        | [] => ([], [c])
        | d :: _ =>
            if isFolded d then
              let (name, after) := segments rest
              (c :: name, after)
            else ([], c :: rest)
      else ([], c :: rest)

/-- Read a dotted name: identifiers with single dots between them. -/
def dotted? (text : Text) : Option (Text × Text) :=
  match text with
  | [] => none
  | c :: _ => if isFolded c then some (segments text) else none

theorem segments_append (text : Text) : (segments text).1 ++ (segments text).2 = text := by
  induction text with
  | nil => rfl
  | cons c rest ih =>
      simp only [segments]
      split
      · simp [ih]
      · split
        · split
          · rfl
          · split
            · simpa using ih
            · rfl
        · rfl

theorem append_of_dotted? {text name after : Text} (h : dotted? text = some (name, after)) :
    text = name ++ after ∧ name ≠ [] := by
  cases text with
  | nil => simp [dotted?] at h
  | cons c rest =>
      simp only [dotted?] at h
      split at h
      · next hc =>
          have heq : segments (c :: rest) = (name, after) := by simpa using h
          have happend := segments_append (c :: rest)
          rw [heq] at happend
          refine ⟨happend.symm, ?_⟩
          rintro rfl
          simp [segments, hc] at heq
      · simp at h

end JoinGraph.Word
