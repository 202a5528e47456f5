import JoinGraph.Numeral.Shortest

namespace JoinGraph

inductive Numeral
  /-- A whole number. -/
  | whole (value : Nat)
  /-- The number `mantissa` times ten to the power of `exponent`. -/
  | decimal (mantissa : Nat) (exponent : Int)
  | infinite
  | notANumber
deriving DecidableEq, Repr

namespace Numeral

/-- The number that a row of decimal digits denotes. -/
def value (digits : Text) : Nat :=
  digits.foldl (fun total c => 10 * total + (c.toNat - '0'.toNat)) 0

/-- The binary number nearest to a numeral, as a fraction, or `none` if it is none. Numerals far
outside the range of those numbers are told by the count of their digits. -/
def fraction? : Numeral → Option (Nat × Nat)
  | whole value => Rounding.binary? value 1
  | decimal mantissa exponent =>
      let magnitude := (Text.decimal mantissa).length + exponent
      if mantissa = 0 ∨ magnitude < -400 then some (0, 1)
      else if 400 < magnitude then none
      else
        let (numerator, denominator) := Rounding.scale 10 mantissa 1 exponent
        Rounding.binary? numerator denominator
  | infinite | notANumber => none

/-- An exponent with its sign and at least two digits. -/
def exponentText (exponent : Int) : Text :=
  let digits := Text.decimal exponent.natAbs
  'e' :: (if exponent < 0 then '-' else '+') ::
    (List.replicate (2 - digits.length) '0' ++ digits)

/-- Digits with a point after the first `whole` of them, without needless zeros at the end. -/
def withPoint (whole : Nat) (digits : Text) : Text :=
  match Text.trimRight (· == '0') (digits.drop whole) with
  | [] => digits.take whole
  | decimals => digits.take whole ++ '.' :: decimals

/-- Digits of a number whose first one has the given exponent. The number is positional when the
exponent is from -4 up to, not including, `bound`, else it has an exponent. -/
def layout (bound : Int) (digits : Text) (exponent : Int) : Text :=
  if exponent < -4 ∨ bound ≤ exponent then withPoint 1 digits ++ exponentText exponent
  else if exponent < 0 then withPoint 1 (List.replicate exponent.natAbs '0' ++ digits)
  else
    let width := exponent.natAbs + 1
    withPoint width (digits ++ List.replicate (width - digits.length) '0')

/-- How many significant digits a number cell shows. -/
def precision : Nat := 6

/-- A fraction with six significant digits. -/
def generalFraction (numerator denominator : Nat) : Text :=
  if numerator = 0 then ['0']
  else
    let (digits, exponent) := Rounding.significant precision numerator denominator
    layout precision (Text.decimal digits) exponent

/-- A numeral with six significant digits. -/
def general (numeral : Numeral) : Text :=
  match numeral, numeral.fraction? with
  | notANumber, _ => "nan".toList
  | _, none => "inf".toList
  | _, some (numerator, denominator) => generalFraction numerator denominator

/-- From this exponent on the shortest form is not positional. -/
def positionalBound : Int := 16

/-- A binary number in its shortest form. A positional one has a decimal point. -/
def shortestFraction (numerator denominator : Nat) : Text :=
  if numerator = 0 then ['0', '.', '0']
  else
    let (digits, place) := Shortest.decimal numerator denominator
    let text := Text.decimal digits
    let shown := layout positionalBound text (place + text.length - 1)
    if shown.any fun c => c == '.' || c == 'e' then shown else shown ++ ['.', '0']

/-- A finite numeral in its shortest form. -/
def shortest? (numeral : Numeral) : Option Text :=
  numeral.fraction?.map fun (numerator, denominator) => shortestFraction numerator denominator

end Numeral

end JoinGraph
