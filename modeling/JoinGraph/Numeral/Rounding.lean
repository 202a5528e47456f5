import JoinGraph.Text.Basic

namespace JoinGraph.Rounding

/-- The whole number nearest to a fraction; a tie goes to the even one. -/
def nearest (numerator denominator : Nat) : Nat :=
  let quotient := numerator / denominator
  let rest := numerator % denominator
  if 2 * rest < denominator then quotient
  else if denominator < 2 * rest then quotient + 1
  else if quotient % 2 = 0 then quotient
  else quotient + 1

theorem nearest_within_half (numerator : Nat) {denominator : Nat} (h : 0 < denominator) :
    2 * numerator ≤ 2 * (denominator * nearest numerator denominator) + denominator ∧
      2 * (denominator * nearest numerator denominator) ≤ 2 * numerator + denominator := by
  have hdiv := Nat.div_add_mod numerator denominator
  have hmod := Nat.mod_lt numerator h
  have hnext : denominator * (numerator / denominator + 1) =
      denominator * (numerator / denominator) + denominator := Nat.mul_succ _ _
  simp only [nearest]
  split
  · omega
  · split
    · rw [hnext]
      omega
    · split
      · omega
      · rw [hnext]
        omega

/-- A fraction times a power of `base`, as a fraction. -/
def scale (base : Nat) (numerator denominator : Nat) (exponent : Int) : Nat × Nat :=
  if exponent < 0 then (numerator, denominator * base.pow exponent.natAbs)
  else (numerator * base.pow exponent.natAbs, denominator)

/-- The exponent of the last place of a fraction as a binary number: the places are 53 wide, and
none lies below the smallest positive number. -/
def lastPlace (numerator denominator : Nat) : Int :=
  let guess : Int := (Nat.log2 numerator : Int) - Nat.log2 denominator - 53
  let (scaled, unit) := scale 2 numerator denominator (-guess)
  max (if scaled / unit < Nat.pow 2 53 then guess else guess + 1) (-1074)

/-- The binary number nearest to a fraction, as a fraction, or `none` if it is infinite. -/
def binary? (numerator denominator : Nat) : Option (Nat × Nat) :=
  if numerator = 0 then some (0, 1)
  else
    let place := lastPlace numerator denominator
    let (scaled, unit) := scale 2 numerator denominator (-place)
    let mantissa := nearest scaled unit
    if 971 < place ∨ (place = 971 ∧ Nat.pow 2 53 ≤ mantissa) then none
    else some (scale 2 mantissa 1 place)

/-- The decimal exponent of a positive fraction: that of its first significant digit. Fractions
below ten to the power of minus 400 do not occur. -/
def decimalExponent (numerator denominator : Nat) : Int :=
  (Text.decimal (numerator * Nat.pow 10 400 / denominator)).length - 401

/-- A positive fraction rounded to `count` significant digits, with the exponent of the first of
them. -/
def significant (count numerator denominator : Nat) : Nat × Int :=
  let exponent := decimalExponent numerator denominator
  let (scaled, unit) := scale 10 numerator denominator ((count : Int) - 1 - exponent)
  let digits := nearest scaled unit
  if digits = Nat.pow 10 count then (Nat.pow 10 (count - 1), exponent + 1)
  else (digits, exponent)

end JoinGraph.Rounding
