import JoinGraph.Numeral.Rounding

namespace JoinGraph.Shortest

/-- Whether `digits` times ten to the power of `place` rounds to the binary number that is the
given fraction. -/
def readsBack (numerator denominator : Nat) (place : Int) (digits : Nat) : Bool :=
  let (decimalNumerator, decimalDenominator) := Rounding.scale 10 digits 1 place
  match Rounding.binary? decimalNumerator decimalDenominator with
  | none => false
  | some (binaryNumerator, binaryDenominator) =>
      binaryNumerator * denominator == numerator * binaryDenominator

/-- The two whole numbers around a fraction, the nearer one first. -/
def neighbours (numerator denominator : Nat) : List Nat :=
  let lower := numerator / denominator
  if Rounding.nearest numerator denominator = lower then [lower, lower + 1] else [lower + 1, lower]

/-- The first of the two decimals around a binary number, with the last digit at a given place, that
stands for it: its digits and that place. -/
def atPlace? (numerator denominator : Nat) (place : Int) : Option (Nat × Int) :=
  let (scaled, unit) := Rounding.scale 10 numerator denominator (-place)
  ((neighbours scaled unit).find? (readsBack numerator denominator place)).map (·, place)

theorem readsBack_of_atPlace? {numerator denominator digits : Nat} {place last : Int}
    (h : atPlace? numerator denominator place = some (digits, last)) :
    readsBack numerator denominator last digits = true := by
  simp only [atPlace?, Option.map_eq_some_iff, Prod.mk.injEq] at h
  obtain ⟨found, hfound, rfl, rfl⟩ := h
  exact List.find?_some hfound

/-- The first of the two decimals of `count` digits around a positive binary number that stands for
it. -/
def withCount? (numerator denominator count : Nat) : Option (Nat × Int) :=
  atPlace? numerator denominator (Rounding.decimalExponent numerator denominator - count + 1)

/-- As many digits are enough for every binary number. -/
def mostDigits : Nat := 17

/-- The shortest decimal that stands for a positive binary number: its digits and the exponent of
the last of them. -/
def decimal (numerator denominator : Nat) : Nat × Int :=
  match (List.range mostDigits).findSome? fun count =>
      withCount? numerator denominator (count + 1) with
  | some found => found
  | none =>
      let (digits, exponent) := Rounding.significant mostDigits numerator denominator
      (digits, exponent - mostDigits + 1)

end JoinGraph.Shortest
