/-!
Text as a list of code points, with the few general operations that the rest of the library needs.

Every offset, length and width in this library counts code points, and texts are ordered by their
code points.
-/

namespace JoinGraph

/-- Text is a list of code points. -/
abbrev Text := List Char

namespace Text

/-- The test for equal texts can be relied on, in every list of texts alike. -/
instance lawfulBEq : LawfulBEq Text :=
  inferInstance

/-- Whether `a` is not behind `b` by code point order. -/
def le (a b : Text) : Bool :=
  !decide (b < a)

/-- The part of `text` from offset `start` up to, not including, offset `stop`. -/
def slice (text : Text) (start stop : Nat) : Text :=
  (text.drop start).take (stop - start)

theorem length_slice (text : Text) (start stop : Nat) :
    (text.slice start stop).length = min stop text.length - start := by
  simp only [slice, List.length_take, List.length_drop]
  omega

theorem slice_zero_length (text : Text) : text.slice 0 text.length = text := by
  simp [slice]

/-- The lines of a text: the pieces between its newlines, so never none. -/
def lines : Text → List Text
  | [] => [[]]
  | c :: rest =>
      if c = '\n' then [] :: lines rest
      else
        match lines rest with
        | [] => [[c]]
        | line :: more => (c :: line) :: more

theorem lines_ne_nil (text : Text) : text.lines ≠ [] := by
  cases text with
  | nil => simp [lines]
  | cons c rest =>
      simp only [lines]
      split
      · simp
      · split <;> simp

/-- Put `separator` between the parts. -/
def join (separator : Text) (parts : List Text) : Text :=
  List.intercalate separator parts

theorem join_lines (text : Text) : join ['\n'] text.lines = text := by
  induction text with
  | nil => rfl
  | cons c rest ih =>
      simp only [lines]
      split
      · next hc =>
          subst hc
          cases hl : lines rest with
          | nil => exact absurd hl (lines_ne_nil rest)
          | cons line more =>
              rw [hl] at ih
              simp only [join, List.intercalate, List.intersperse_cons_cons,
                List.flatten_cons, List.nil_append, List.singleton_append] at ih ⊢
              rw [ih]
      · split
        · next hl => exact absurd hl (lines_ne_nil rest)
        · next line more hl =>
            rw [hl] at ih
            cases more with
            | nil => simpa [join, List.intercalate] using ih
            | cons next others =>
                simpa [join, List.intercalate, List.intersperse_cons_cons] using ih

theorem newline_notMem_of_mem_lines {text line : Text} (h : line ∈ text.lines) : '\n' ∉ line := by
  induction text generalizing line with
  | nil => simp_all [lines]
  | cons c rest ih =>
      simp only [lines] at h
      split at h
      · rcases List.mem_cons.mp h with rfl | hrest
        · simp
        · exact ih hrest
      · next hc =>
          split at h
          · next hl => exact absurd hl (lines_ne_nil rest)
          · next first more hl =>
              rw [hl] at ih
              rcases List.mem_cons.mp h with rfl | hmore
              · have hfirst := ih List.mem_cons_self
                simp [Ne.symm hc, hfirst]
              · exact ih (List.mem_cons_of_mem first hmore)

def decimal (n : Nat) : Text :=
  Nat.toDigits 10 n

/-- An integer in decimal digits, with a minus sign in front of a negative one. -/
def integer (i : Int) : Text :=
  if i < 0 then '-' :: decimal i.natAbs else decimal i.natAbs

def padLeft (width : Nat) (text : Text) : Text :=
  List.replicate (width - text.length) ' ' ++ text

def padRight (width : Nat) (text : Text) : Text :=
  text ++ List.replicate (width - text.length) ' '

def trimRight (drop : Char → Bool) (text : Text) : Text :=
  (text.reverse.dropWhile drop).reverse

def trim (drop : Char → Bool) (text : Text) : Text :=
  trimRight drop (text.dropWhile drop)

def sort (texts : List Text) : List Text :=
  texts.mergeSort le

end Text

end JoinGraph
