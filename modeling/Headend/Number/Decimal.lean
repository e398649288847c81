import Headend.Number.Binary64
import Headend.Number.Integer

/-!
# Decimal fractions

A decimal is a sign, the number that its digits form, and a power of ten. There are two readers:
`leadingFloat` takes the front of a text and never fails, and `float?` takes a text in full.
-/

namespace Headend.Number

/-- The value `digits * 10 ^ power`, with a sign. -/
structure Decimal where
  negative : Bool
  digits : Nat
  power : Int

/-- The nearest number of 64 bits. A magnitude of `10 ^ 400` or more is infinite and one below
`10 ^ -400` is zero, whatever the digits, so the power of ten that is computed stays small. -/
def Decimal.toBinary64 (d : Decimal) : Binary64 :=
  let length : Int := (Nat.toDigits 10 d.digits).length
  if d.digits = 0 then .ofParts d.negative 0
  else if 400 < length + d.power then .infinity d.negative
  else if length + d.power < -400 then .ofParts d.negative 0
  else if 0 ≤ d.power then .ofQuotient d.negative (d.digits * Nat.pow 10 d.power.toNat) 1
  else .ofQuotient d.negative d.digits (Nat.pow 10 (-d.power).toNat)

/-- Digits with an optional point: the digits, how many stand after the point, and the rest. At
least one digit must stand on one side. -/
def mantissa? (cs : List Char) : Option (List Char × Nat × List Char) :=
  let whole := cs.takeWhile Char.isDigit
  let after := match cs.dropWhile Char.isDigit with
    | '.' :: r => (r.takeWhile Char.isDigit, r.dropWhile Char.isDigit)
    | r => ([], r)
  if whole.isEmpty && after.1.isEmpty then none
  else some (whole ++ after.1, after.1.length, after.2)

/-- What stands where an exponent may follow. -/
inductive Exponent where
  | absent (rest : List Char)
  | given (power : Int) (rest : List Char)
  | unfinished

/-- Reads the exponent, if the letter for it stands first. -/
def exponent (cs : List Char) : Exponent :=
  match cs with
  | c :: r =>
    if c = 'e' ∨ c = 'E' then
      let (negative, r) := splitSign r
      let digits := r.takeWhile Char.isDigit
      if digits.isEmpty then .unfinished
      else
        let power : Int := natural digits
        .given (if negative then -power else power) (r.dropWhile Char.isDigit)
    else .absent (c :: r)
  | [] => .absent []

/-- Whether a text starts with a word, in any case of the letters A to Z. -/
def startsWithWord (word : List Char) (cs : List Char) : Bool :=
  word.isPrefixOf (cs.map Char.toLower)

/-- Whether a text is a word, in any case of the letters A to Z. -/
def isWord (word : List Char) (cs : List Char) : Bool := cs.map Char.toLower == word

/-- The number at the front of a text: blanks, a sign, digits with an optional point, an optional
exponent. Without a sign the names of infinity and of no number are read too. An exponent without
digits, and anything else, is zero. -/
def leadingFloat (s : String) : Binary64 :=
  let cs := s.toList.dropWhile isSpace
  let (negative, r) := splitSign cs
  match mantissa? r with
  | some (digits, places, rest) =>
    match exponent rest with
    | .absent _ => (Decimal.mk negative (natural digits) (-places)).toBinary64
    | .given power _ => (Decimal.mk negative (natural digits) (power - places)).toBinary64
    | .unfinished => .zero
  | none =>
    if startsWithWord ['n', 'a', 'n'] cs then .nan
    else if startsWithWord ['i', 'n', 'f'] cs then .infinity false
    else .zero

/-- A number written in full: a sign, then a name of infinity or of no number, or digits with an
optional point and an optional exponent. -/
def float? (s : String) : Option Binary64 :=
  let (negative, r) := splitSign s.toList
  if isWord ['n', 'a', 'n'] r then some .nan
  else if isWord ['i', 'n', 'f'] r || isWord ['i', 'n', 'f', 'i', 'n', 'i', 't', 'y'] r then
    some (.infinity negative)
  else
    match mantissa? r with
    | none => none
    | some (digits, places, rest) =>
      match exponent rest with
      | .absent [] => some (Decimal.mk negative (natural digits) (-places)).toBinary64
      | .given power [] => some (Decimal.mk negative (natural digits) (power - places)).toBinary64
      | _ => none

end Headend.Number
