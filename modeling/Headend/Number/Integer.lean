/-!
# Integers at the front of a text

A value is read by its leading part: blanks, one sign, decimal digits. What follows is ignored, and
a text that does not start that way is zero. The magnitude is bounded by `largest` at every digit,
so a run of digits of any length has a value.

Facts: a bounded magnitude stays bounded (`appendDigit_le`, `magnitude_le`).
-/

namespace Headend.Number

/-- The largest integer of 64 bits with sign, which bounds the magnitude of every value. -/
def largest : Nat := 0x7fffffffffffffff

/-- The least integer of 64 bits with sign. -/
def least : Int := -0x8000000000000000

/-- The blanks that may stand before a number. -/
def isSpace (c : Char) : Bool := c == ' ' || c == '\t' || c == '\r' || c == '\n'

/-- The value of a decimal digit. -/
def digitValue (c : Char) : Nat := c.toNat - '0'.toNat

/-- A magnitude with one more digit; each of the two steps stops at `largest`. -/
def appendDigit (m : Nat) (c : Char) : Nat := min largest (min largest (m * 10) + digitValue c)

/-- The magnitude of a run of digits. -/
def magnitude (digits : List Char) : Nat := digits.foldl appendDigit 0

/-- Whether a minus sign stands first, and the text after an optional sign. -/
def splitSign : List Char → Bool × List Char
  | '-' :: r => (true, r)
  | '+' :: r => (false, r)
  | r => (false, r)

/-- The integer at the front of a text, or zero. -/
def leadingInteger (s : String) : Int :=
  let (negative, r) := splitSign (s.toList.dropWhile isSpace)
  let m := magnitude (r.takeWhile Char.isDigit)
  if negative then -m else m

/-- The number that a run of digits forms, without a bound. -/
def natural (digits : List Char) : Nat := digits.foldl (fun m c => m * 10 + digitValue c) 0

/-- An integer written in full: an optional sign and at least one digit, and nothing else. -/
def integer? (s : String) : Option Int :=
  let (negative, digits) := splitSign s.toList
  if digits.isEmpty || !digits.all Char.isDigit then none
  else
    let m : Int := natural digits
    some (if negative then -m else m)

/-- A number that fits in 32 bits, written as digits with an optional plus sign. -/
def word? (s : String) : Option UInt32 :=
  match s.toList with
  | '-' :: _ => none
  | _ =>
    match integer? s with
    | some n => if n < UInt32.size then some (UInt32.ofNat n.toNat) else none
    | none => none

/-! ### Bounds -/

theorem appendDigit_le (m : Nat) (c : Char) : appendDigit m c ≤ largest := Nat.min_le_left ..

theorem magnitude_le (digits : List Char) : magnitude digits ≤ largest := by
  suffices h : ∀ m ≤ largest, digits.foldl appendDigit m ≤ largest from h 0 (Nat.zero_le _)
  induction digits with
  | nil => intro m hm; exact hm
  | cons c r ih => intro m _; exact ih _ (appendDigit_le m c)

end Headend.Number
