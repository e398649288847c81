import Headend.Number.Integer

/-!
# Port expressions

A port may be written as an expression of decimal literals with `+`, `-` and `*`, where `*` binds
closer and the operators of one strength are applied from the left. Blanks may stand around a
literal. Every step is clamped to the range of 64 bits with sign, and a literal above it makes the
expression invalid.
-/

namespace Headend.Config.PortExpression

open Headend.Number (isSpace natural largest least)

/-- The nearest value that 64 bits with sign can hold. -/
def clamp (n : Int) : Int := max least (min largest n)

/-- A literal with the blanks around it. -/
def number (cs : List Char) : Option (Int × List Char) :=
  let r := cs.dropWhile isSpace
  let digits := r.takeWhile Char.isDigit
  if digits.isEmpty || largest < natural digits then none
  else some (natural digits, (r.dropWhile Char.isDigit).dropWhile isSpace)

/-- The literals that follow, each after a `*`, multiplied to a value. Each takes at least one
character, so as many rounds as there are characters are enough. -/
def factors : Nat → Int → List Char → Int × List Char
  | rounds + 1, value, '*' :: r =>
    match number r with
    | some (n, rest) => factors rounds (clamp (value * n)) rest
    | none => (value, '*' :: r)
  | _, value, r => (value, r)

/-- A product of literals. -/
def product (cs : List Char) : Option (Int × List Char) :=
  (number cs).map fun (n, r) => factors r.length n r

/-- The products that follow, each after a `+` or a `-`, added to a value or taken from it. -/
def terms : Nat → Int → List Char → Int × List Char
  | rounds + 1, value, '+' :: r =>
    match product r with
    | some (n, rest) => terms rounds (clamp (value + n)) rest
    | none => (value, '+' :: r)
  | rounds + 1, value, '-' :: r =>
    match product r with
    | some (n, rest) => terms rounds (clamp (value - n)) rest
    | none => (value, '-' :: r)
  | _, value, r => (value, r)

/-- The value of an expression, or nothing if the text is not one. -/
def value? (s : String) : Option Int :=
  match product s.toList with
  | some (n, r) =>
    match terms r.length n r with
    | (v, []) => some v
    | _ => none
  | none => none

end Headend.Config.PortExpression
