import JoinGraph.Text.Basic

/-!
Counts of characters.

Offsets are unbounded, but a length, a number of characters to write and an offset from the end of
a text are signed words of 64 bits, and no text is longer than the memory.
-/

namespace JoinGraph

/-- Why there are not as many characters as asked for. -/
inductive CountFault
  /-- The number is no signed word of 64 bits. -/
  | tooWide
  /-- The characters would not fit into the memory. -/
  | outOfMemory
deriving DecidableEq, Repr

namespace CountFault

def message : CountFault → Text
  | tooWide => "cannot fit 'int' into an index-sized integer".toList
  | outOfMemory => []

end CountFault

namespace Count

def least : Int :=
  -(Nat.pow 2 63 : Nat)

def greatest : Int :=
  (Nat.pow 2 63 : Nat) - 1

/-- Whether a number is a signed word of 64 bits. -/
def fits (number : Int) : Bool :=
  least ≤ number && number ≤ greatest

/-- The most characters that are written at once. -/
def mostWritten : Nat :=
  Nat.pow 2 32

/-- How many characters to write when `number` of them are asked for: none if it is negative. -/
def toWrite (number : Int) : Except CountFault Nat :=
  if fits number then
    if number ≤ mostWritten then .ok number.toNat else .error .outOfMemory
  else .error .tooWide

theorem toWrite_eq_ok_iff {number : Int} {count : Nat} :
    toWrite number = .ok count ↔
      least ≤ number ∧ number ≤ mostWritten ∧ number.toNat = count := by
  have hmost : (mostWritten : Int) ≤ greatest := by decide
  simp only [toWrite, fits, Bool.and_eq_true, decide_eq_true_eq]
  split
  · next hfits =>
      split
      · next hwritten => simp [hfits.1, hwritten]
      · next hwritten => simp [hwritten]
  · next hfits =>
      simp only [reduceCtorEq, false_iff]
      intro h
      exact hfits ⟨h.1, by omega⟩

end Count

/-- A character over and over, `number` times. -/
def Text.repeated (c : Char) (number : Int) : Except CountFault Text :=
  (Count.toWrite number).map fun count => List.replicate count c

end JoinGraph
