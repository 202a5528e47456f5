import JoinGraph.Text.Basic

namespace JoinGraph.Text

/-- The occurrences in the part of a text that starts at offset `at`. `inWord` tells whether the
character before that part belongs to a word, and `skip` counts the characters still covered by
the last occurrence. -/
def occurrencesFrom {α : Type} (isWord : Char → Bool) (recognise : Text → Option (α × Nat)) :
    (offset : Nat) → (inWord : Bool) → (skip : Nat) → Text → List (Nat × α)
  | _, _, _, [] => []
  | offset, _, skip + 1, c :: rest =>
      occurrencesFrom isWord recognise (offset + 1) (isWord c) skip rest
  | offset, inWord, 0, c :: rest =>
      match if inWord then none else recognise (c :: rest) with
      | some (found, length) =>
          (offset, found) ::
            occurrencesFrom isWord recognise (offset + 1) (isWord c) (length - 1) rest
      | none => occurrencesFrom isWord recognise (offset + 1) (isWord c) 0 rest

/-- The occurrences in a text, each with its offset. The recogniser is given the text from a place
on and answers what it found there and how many characters that covers. -/
def occurrences {α : Type} (isWord : Char → Bool) (recognise : Text → Option (α × Nat))
    (text : Text) : List (Nat × α) :=
  occurrencesFrom isWord recognise 0 false 0 text

/-- The text without the occurrences that `recognise` finds, given how many characters one found
at the front covers. `skip` counts the characters still covered by the last occurrence. -/
def eraseFrom (recognise : Text → Option Nat) : (skip : Nat) → Text → Text
  | _, [] => []
  | skip + 1, _ :: rest => eraseFrom recognise skip rest
  | 0, c :: rest =>
      match recognise (c :: rest) with
      | some length => eraseFrom recognise (length - 1) rest
      | none => c :: eraseFrom recognise 0 rest

/-- The text without the occurrences that `recognise` finds from left to right. -/
def erase (recognise : Text → Option Nat) (text : Text) : Text :=
  eraseFrom recognise 0 text

end JoinGraph.Text
