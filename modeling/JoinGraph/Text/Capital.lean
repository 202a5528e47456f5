import JoinGraph.Text.Basic
import JoinGraph.Text.CapitalTable

namespace JoinGraph

namespace Text

/-- The capital form of one character, which may be several letters: sharp s becomes `SS`. -/
def capital (c : Char) : Text :=
  if c.toNat < 128 then [c.toUpper]
  else
    match capitalExpansions.find? (fun entry => entry.1 == c.toNat) with
    | some (_, codes) => codes.map Char.ofNat
    | none =>
        match capitalBlocks.find? (fun block => block.contains c.toNat) with
        | some block => [Char.ofNat (c.toNat + block.shift).toNat]
        | none => [c]

/-- The text in capital letters. -/
def upper (text : Text) : Text :=
  text.flatMap capital

@[simp] theorem upper_nil : upper [] = [] := rfl

@[simp] theorem upper_cons (c : Char) (rest : Text) :
    upper (c :: rest) = capital c ++ upper rest := rfl

theorem capitalExpansions_ne_nil : ∀ entry ∈ capitalExpansions, entry.2 ≠ [] := by
  decide

theorem capital_ne_nil (c : Char) : capital c ≠ [] := by
  unfold capital
  split
  · simp
  · split
    · next entry codes hfind =>
        have hmem := List.mem_of_find?_eq_some hfind
        simpa using capitalExpansions_ne_nil _ hmem
    · split <;> simp

theorem upper_eq_nil_iff {text : Text} : upper text = [] ↔ text = [] := by
  cases text with
  | nil => simp
  | cons c rest => simp [capital_ne_nil]

end Text

end JoinGraph
