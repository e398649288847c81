/-!
# Binary floating point numbers of 64 bits

A number is its 64 bits. A finite one has the value `significand * 2 ^ exponent` with a sign.
Rounding goes from an exact quotient to the nearest number, and a tie to the one with an even
significand, so that reading a decimal and multiplying by an integer are each exact but for one
rounding.

Facts: `nearestEven_bounds` (rounding moves a quotient by at most half a unit).
-/

namespace Headend.Number

/-- A number of 64 bits: a sign, an exponent field of 11 bits and a fraction of 52 bits. -/
structure Binary64 where
  bits : UInt64
deriving DecidableEq

namespace Binary64

/-! ### The parts of a number -/

/-- The place value of the exponent field, which is that of the hidden bit too. -/
def hiddenBit : Nat := 0x10000000000000

/-- The place value of the sign. -/
def topBit : Nat := 0x8000000000000000

/-- Whether the sign bit is set. -/
def negative (x : Binary64) : Bool := x.bits.toNat / topBit % 2 == 1

/-- The exponent field. -/
def field (x : Binary64) : Nat := x.bits.toNat / hiddenBit % 2048

/-- The fraction field. -/
def fraction (x : Binary64) : Nat := x.bits.toNat % hiddenBit

/-- The significand: the fraction, with its hidden bit unless the number is subnormal. -/
def significand (x : Binary64) : Nat := if x.field = 0 then x.fraction else hiddenBit + x.fraction

/-- The exponent of the significand's last bit. -/
def exponent (x : Binary64) : Int := (max x.field 1 : Nat) - 1075

/-- Whether this is no number. -/
def isNaN (x : Binary64) : Bool := x.field == 2047 && x.fraction != 0

/-- Whether this is one of the two infinities. -/
def isInfinite (x : Binary64) : Bool := x.field == 2047 && x.fraction == 0

/-- The sign bit by itself. -/
def signBit (negative : Bool) : Nat := if negative then topBit else 0

/-- A number from its sign and its other bits. -/
def ofParts (negative : Bool) (magnitude : Nat) : Binary64 :=
  ⟨UInt64.ofNat (signBit negative + magnitude)⟩

/-- The bits of infinity; the magnitude of every finite number is below. -/
def infinityBits : Nat := 2047 * hiddenBit

/-- The positive zero. -/
def zero : Binary64 := ⟨0⟩

/-- No number. -/
def nan : Binary64 := ofParts false (infinityBits + hiddenBit / 2)

/-- The infinity of a sign. -/
def infinity (negative : Bool) : Binary64 := ofParts negative infinityBits

/-- Minus one. -/
def minusOne : Binary64 := ofParts true (1023 * hiddenBit)

/-! ### Rounding -/

/-- The integer nearest to `n / d`, and of two the even one. -/
def nearestEven (n d : Nat) : Nat :=
  let q := n / d
  let r := n % d
  if 2 * r < d then q
  else if d < 2 * r then q + 1
  else if q % 2 = 0 then q
  else q + 1

/-- The quotient `n / (d * 2 ^ e)` as numerator and denominator. -/
def scaled (n d : Nat) (e : Int) : Nat × Nat :=
  if 0 ≤ e then (n, d <<< e.toNat) else (n <<< (-e).toNat, d)

/-- The exponent that leaves `n / d` a significand of 53 bits, or the least exponent there is. -/
def exponentOf (n d : Nat) : Int :=
  let e : Int := n.log2 - d.log2 - 53
  let (n', d') := scaled n d e
  max (if n' / d' < 2 * hiddenBit then e else e + 1) (-1074)

/-- The bits, without sign, of the number nearest to `n / d`. The field's place value makes a carry
out of the significand the next exponent, and out of the last exponent infinity. -/
def nearestBits (n d : Nat) : Nat :=
  if n = 0 then 0
  else
    let e := exponentOf n d
    let (n', d') := scaled n d e
    min infinityBits ((e + 1074).toNat * hiddenBit + nearestEven n' d')

/-- The number nearest to `n / d`, with a sign. -/
def ofQuotient (negative : Bool) (n d : Nat) : Binary64 := ofParts negative (nearestBits n d)

/-! ### Arithmetic -/

/-- The product with a positive integer, rounded. -/
def scale (x : Binary64) (k : Nat) : Binary64 :=
  if x.field = 2047 then x
  else
    let (n, d) := scaled (x.significand * k) 1 (-x.exponent)
    ofQuotient x.negative n d

/-- The integer nearest to a finite number; a half goes away from zero. -/
def nearestInteger (x : Binary64) : Int :=
  let (n, d) := scaled x.significand 1 (-x.exponent)
  let m : Nat := (2 * n + d) / (2 * d)
  if x.negative then -m else m

/-- The nearest integer within bounds; no number is zero. -/
def toInteger (x : Binary64) (low high : Int) : Int :=
  if x.isNaN then 0
  else if x.isInfinite then (if x.negative then low else high)
  else max low (min high x.nearestInteger)

/-- Whether a number is at least a natural number. -/
def atLeast (x : Binary64) (k : Nat) : Bool :=
  if x.isNaN then false
  else if x.isInfinite then !x.negative
  else
    let (n, d) := scaled x.significand 1 (-x.exponent)
    if x.negative then n == 0 && k == 0 else decide (k * d ≤ n)

/-- Equality of values: the two zeros are equal, and no number differs from itself. -/
def same (x y : Binary64) : Bool :=
  !x.isNaN && !y.isNaN && (x == y || (x.significand == 0 && x.field == 0 &&
    y.significand == 0 && y.field == 0))

/-! ### Laws of rounding -/

theorem nearestEven_bounds (n d : Nat) (hd : 0 < d) :
    2 * n ≤ d * (2 * nearestEven n d + 1) ∧ d * (2 * nearestEven n d) ≤ 2 * n + d := by
  have h := Nat.div_add_mod n d
  have hm := Nat.mod_lt n hd
  have e1 : ∀ q, d * (2 * q + 1) = 2 * (d * q) + d := by intro q; grind
  have e2 : ∀ q, d * (2 * q) = 2 * (d * q) := by intro q; grind
  have e3 : d * (n / d + 1) = d * (n / d) + d := by grind
  unfold nearestEven
  simp only [e1, e2]
  split
  · omega
  · split
    · rw [e3]; omega
    · split
      · omega
      · rw [e3]; omega

end Binary64

end Headend.Number
