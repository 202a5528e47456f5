import JoinGraph.Text.Basic
import JoinGraph.Text.PrintableTable

namespace JoinGraph.Text

/-- Whether `c` has a printed form. -/
def isPrintable (c : Char) : Bool :=
  let code := c.toNat
  if 0x20 ≤ code ∧ code < 0x7F then true
  else !unprintableRanges.any fun (first, last) => decide (first ≤ code) && decide (code ≤ last)

/-- The code point of `c` in lower-case hexadecimal, with zeros in front up to `width` digits. -/
def hexadecimal (width : Nat) (c : Char) : Text :=
  let digits := Nat.toDigits 16 c.toNat
  List.replicate (width - digits.length) '0' ++ digits

/-- One character between quotes of the kind `mark`. -/
def quoteChar (mark c : Char) : Text :=
  if c = mark || c = '\\' then ['\\', c]
  else if c = '\t' then ['\\', 't']
  else if c = '\n' then ['\\', 'n']
  else if c = '\r' then ['\\', 'r']
  else if isPrintable c then [c]
  else if c.toNat < 0x100 then '\\' :: 'x' :: hexadecimal 2 c
  else if c.toNat < 0x10000 then '\\' :: 'u' :: hexadecimal 4 c
  else '\\' :: 'U' :: hexadecimal 8 c

/-- The text between quotes. -/
def quoted (text : Text) : Text :=
  let mark := if '\'' ∈ text ∧ '"' ∉ text then '"' else '\''
  mark :: text.flatMap (quoteChar mark) ++ [mark]

end JoinGraph.Text
