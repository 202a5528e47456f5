import JoinGraph.Json.Basic

/-!
Reading JSON.

`Json.parse?` reads one value that fills a text. Fields keep their order, a number without a point
or an exponent is whole, and every other number keeps its digits. Each reader takes what it reads
from the front of a text and answers the rest. The depth of the readers of values is bounded by the
length of the text, since every bracket and every comma takes a character. A string comes back as it
was written, whatever follows it.
-/

namespace JoinGraph.Json

/-- Whether `c` may stand between the parts of a value. -/
def isGap (c : Char) : Bool :=
  c == ' ' || c == '\n' || c == '\r' || c == '\t'

def skipGaps (text : Text) : Text :=
  text.dropWhile isGap

/-- The value of a hexadecimal digit. -/
def hexadecimal? (c : Char) : Option Nat :=
  if c.isDigit then some (c.toNat - '0'.toNat)
  else if 'a' ≤ c ∧ c ≤ 'f' then some (c.toNat - 'a'.toNat + 10)
  else if 'A' ≤ c ∧ c ≤ 'F' then some (c.toNat - 'A'.toNat + 10)
  else none

/-- The code unit that four hexadecimal digits denote. -/
def unit? (a b c d : Char) : Option Nat := do
  let digits ← [a, b, c, d].mapM hexadecimal?
  return digits.foldl (fun total digit => 16 * total + digit) 0

/-- The character that a letter behind a backslash stands for. -/
def escaped? (c : Char) : Option Char :=
  if c = '"' ∨ c = '\\' ∨ c = '/' then some c
  else if c = 'n' then some '\n'
  else if c = 'r' then some '\r'
  else if c = 't' then some '\t'
  else if c = 'b' then some '\x08'
  else if c = 'f' then some '\x0c'
  else none

/-- Stands for half of a pair of code units whose other half is missing. -/
def replacement : Char :=
  '\uFFFD'

/-- What was read of a string, from its end to its beginning, and the first half of a pair of code
units if it waits for the second. -/
structure Unfinished where
  done : Text
  half : Option Nat

namespace Unfinished

/-- The string so far. A half that still waits is replaced. -/
def settled (unfinished : Unfinished) : Text :=
  match unfinished.half with
  | none => unfinished.done
  | some _ => replacement :: unfinished.done

/-- A character more. -/
def push (unfinished : Unfinished) (c : Char) : Unfinished :=
  ⟨c :: unfinished.settled, none⟩

/-- A code unit more: two halves make one character. -/
def pushUnit (unfinished : Unfinished) (unit : Nat) : Unfinished :=
  if 0xD800 ≤ unit ∧ unit < 0xDC00 then ⟨unfinished.settled, some unit⟩
  else if 0xDC00 ≤ unit ∧ unit < 0xE000 then
    match unfinished.half with
    | some first =>
        ⟨Char.ofNat (0x10000 + 0x400 * (first - 0xD800) + (unit - 0xDC00)) :: unfinished.done,
          none⟩
    | none => unfinished.push replacement
  else unfinished.push (Char.ofNat unit)

end Unfinished

def readText (unfinished : Unfinished) : Text → Option (Text × Text)
  | [] => none
  | '\\' :: 'u' :: a :: b :: c :: d :: rest =>
      match unit? a b c d with
      | none => none
      | some unit => readText (unfinished.pushUnit unit) rest
  | '\\' :: c :: rest =>
      match escaped? c with
      | none => none
      | some char => readText (unfinished.push char) rest
  | c :: rest =>
      if c = '"' then some (unfinished.settled.reverse, rest)
      else if c = '\\' ∨ c.toNat < 0x20 then none
      else readText (unfinished.push c) rest

theorem exists_of_length_eq_four {digits : Text} (h : digits.length = 4) :
    ∃ a b c d, digits = [a, b, c, d] := by
  rcases digits with _ | ⟨a, _ | ⟨b, _ | ⟨c, _ | ⟨d, _ | ⟨e, more⟩⟩⟩⟩⟩
  case cons.cons.cons.cons.nil => exact ⟨a, b, c, d, rfl⟩
  all_goals simp at h

theorem unit?_of_lt : ∀ code < 0x20, ∃ a b c d,
    List.replicate (4 - (Nat.toDigits 16 code).length) '0' ++ Nat.toDigits 16 code =
        [a, b, c, d] ∧
      unit? a b c d = some code := by
  intro code h
  have hall : ∀ code : Fin 0x20,
      let digits := List.replicate (4 - (Nat.toDigits 16 code).length) '0' ++ Nat.toDigits 16 code
      digits.length = 4 ∧
        unit? (digits.getD 0 '0') (digits.getD 1 '0') (digits.getD 2 '0') (digits.getD 3 '0') =
          some code.val := by
    decide
  obtain ⟨hlength, hunit⟩ := hall ⟨code, h⟩
  obtain ⟨a, b, c, d, hdigits⟩ := exists_of_length_eq_four hlength
  rw [hdigits] at hunit
  exact ⟨a, b, c, d, hdigits, hunit⟩

theorem readText_escapeChar (c : Char) (done rest : Text) :
    readText ⟨done, none⟩ (escapeChar c ++ rest) = readText ⟨c :: done, none⟩ rest := by
  unfold escapeChar
  split
  · next h => subst h; rfl
  split
  · next h => subst h; rfl
  split
  · next h => subst h; rfl
  split
  · next h => subst h; rfl
  split
  · next h => subst h; rfl
  split
  · next h => subst h; rfl
  split
  · next h => subst h; rfl
  split
  · next h =>
      obtain ⟨a, b, d, e, hdigits, hunit⟩ := unit?_of_lt c.toNat h
      have hhigh : ¬(0xD800 ≤ c.toNat ∧ c.toNat < 0xDC00) := by omega
      have hlow : ¬(0xDC00 ≤ c.toNat ∧ c.toNat < 0xE000) := by omega
      simp [escapeCode, Text.hexadecimal, hdigits, readText, hunit, Unfinished.pushUnit, hhigh,
        hlow, Unfinished.push, Unfinished.settled]
  · next hquote hslash _ _ _ _ _ hcontrol =>
      simp [readText, hquote, hslash, hcontrol, Unfinished.push, Unfinished.settled]

theorem readText_flatMap_escapeChar (value done rest : Text) :
    readText ⟨done, none⟩ (value.flatMap escapeChar ++ '"' :: rest) =
      some (done.reverse ++ value, rest) := by
  induction value generalizing done with
  | nil => simp [readText, Unfinished.settled]
  | cons c more ih => simp [List.flatMap_cons, List.append_assoc, readText_escapeChar, ih]

def words : List (String × Json) := [
  ("null", .null),
  ("true", .bool true),
  ("false", .bool false),
  ("NaN", .number false .notANumber),
  ("Infinity", .number false .infinite),
  ("-Infinity", .number true .infinite)]

def readWord (text : Text) : Option (Json × Text) :=
  words.findSome? fun (word, value) =>
    if word.toList.isPrefixOf text then some (value, text.drop word.length) else none

def readDigits (text : Text) : Option (Text × Text) :=
  let digits := text.takeWhile Char.isDigit
  if digits = [] then none else some (digits, text.drop digits.length)

/-- The decimals behind a point, none without a point. -/
def readDecimals (text : Text) : Option (Text × Text) :=
  match text with
  | '.' :: rest => readDigits rest
  | _ => some ([], text)

def readExponent (text : Text) : Option (Option Int × Text) :=
  match text with
  | mark :: rest =>
      if mark = 'e' ∨ mark = 'E' then
        let (negative, unsigned) := match rest with
          | '-' :: tail => (true, tail)
          | '+' :: tail => (false, tail)
          | tail => (false, tail)
        (readDigits unsigned).map fun (digits, after) =>
          let size : Int := Numeral.value digits
          (some (if negative then -size else size), after)
      else some (none, text)
  | [] => some (none, [])

/-- A number. A zero in front is the only digit before the point. -/
def readNumber (text : Text) : Option (Json × Text) := do
  let (negative, unsigned) := match text with
    | '-' :: rest => (true, rest)
    | rest => (false, rest)
  let (digits, afterDigits) ← readDigits unsigned
  if 1 < digits.length ∧ digits.head? = some '0' then none
  else
    let (decimals, afterDecimals) ← readDecimals afterDigits
    let (exponent, after) ← readExponent afterDecimals
    if decimals = [] ∧ exponent = none then
      let size : Int := Numeral.value digits
      return (.int (if negative then -size else size), after)
    else
      let mantissa := Numeral.value (digits ++ decimals)
      return (.number negative (.decimal mantissa (exponent.getD 0 - decimals.length)), after)

mutual

def readValue : (depth : Nat) → Text → Option (Json × Text)
  | 0, _ => none
  | depth + 1, source =>
      match skipGaps source with
      | '"' :: rest => (readText ⟨[], none⟩ rest).map fun (value, after) => (.text value, after)
      | '[' :: rest =>
          match skipGaps rest with
          | ']' :: after => some (.list [], after)
          | _ => (readItems depth rest).map fun (items, after) => (.list items, after)
      | '\x7b' :: rest =>
          match skipGaps rest with
          | '\x7d' :: after => some (.object [], after)
          | _ => (readFields depth rest).map fun (fields, after) => (.object fields, after)
      | other => (readWord other).orElse fun () => readNumber other

def readItems : (depth : Nat) → Text → Option (List Json × Text)
  | 0, _ => none
  | depth + 1, source =>
      match readValue depth source with
      | none => none
      | some (item, rest) =>
          match skipGaps rest with
          | ',' :: more => (readItems depth more).map fun (items, after) => (item :: items, after)
          | ']' :: after => some ([item], after)
          | _ => none

def readFields : (depth : Nat) → Text → Option (List (Text × Json) × Text)
  | 0, _ => none
  | depth + 1, source =>
      match skipGaps source with
      | '"' :: named =>
          match readText ⟨[], none⟩ named with
          | none => none
          | some (name, afterName) =>
              match skipGaps afterName with
              | ':' :: valued =>
                  match readValue depth valued with
                  | none => none
                  | some (value, rest) =>
                      match skipGaps rest with
                      | ',' :: more => (readFields depth more).map fun (fields, after) =>
                          ((name, value) :: fields, after)
                      | '\x7d' :: after => some ([(name, value)], after)
                      | _ => none
              | _ => none
      | _ => none

end

/-- The value that a text spells, if it spells one. -/
def parse? (text : Text) : Option Json :=
  match readValue (2 * text.length + 2) text with
  | some (value, rest) => if skipGaps rest = [] then some value else none
  | none => none

end JoinGraph.Json
