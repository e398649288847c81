import Headend.Number.Binary64
import Mathlib.Algebra.Order.Field.Rat
import Mathlib.Algebra.Order.Field.Power
import Mathlib.Data.Nat.Log
import Mathlib.Tactic.FieldSimp
import Mathlib.Tactic.Linarith
import Mathlib.Tactic.Positivity
import Mathlib.Tactic.Ring

/-!
# Whole numbers as binary floating point numbers

A finite number has a rational value. Those whose value is a whole number below `2 ^ 53` are not
touched by rounding: their products are exact as long as these stay below `2 ^ 53` too, and the
nearest integer is the value itself.

Facts: `nearestBits_whole` (the bits of a whole number), `isWhole_ofQuotient` (each of them is
there), `IsWhole.scale` and `IsWhole.toInteger`.
-/

namespace Headend.Number.Binary64

/-- The value of a finite number. -/
def value (x : Binary64) : ℚ :=
  (if x.negative then -1 else 1) * x.significand * 2 ^ x.exponent

/-- A finite number whose value is a natural number. -/
structure IsWhole (x : Binary64) (n : ℕ) : Prop where
  finite : x.field ≠ 2047
  value_eq : x.value = n

/-! ### Parts of a number -/

section

variable {magnitude : ℕ} (h : magnitude < topBit) (negative : Bool)
include h

theorem toNat_ofParts :
    (ofParts negative magnitude).bits.toNat = signBit negative + magnitude := by
  refine UInt64.toNat_ofNat_of_lt' ?_
  unfold topBit at h
  unfold signBit topBit UInt64.size
  cases negative <;> simp only [Bool.false_eq_true, ↓reduceIte] <;> omega

theorem negative_ofParts : (ofParts negative magnitude).negative = negative := by
  rw [Binary64.negative, toNat_ofParts h]
  unfold topBit at h
  unfold signBit topBit
  cases negative <;> simp only [Bool.false_eq_true, ↓reduceIte, beq_iff_eq, beq_eq_false_iff_ne] <;>
    omega

theorem field_ofParts : (ofParts negative magnitude).field = magnitude / hiddenBit := by
  rw [field, toNat_ofParts h]
  unfold topBit at h
  unfold signBit topBit hiddenBit
  cases negative <;> simp only [Bool.false_eq_true, ↓reduceIte] <;> omega

theorem fraction_ofParts : (ofParts negative magnitude).fraction = magnitude % hiddenBit := by
  rw [fraction, toNat_ofParts h]
  unfold signBit topBit hiddenBit
  cases negative <;> simp only [Bool.false_eq_true, ↓reduceIte] <;> omega

end

/-! ### Rounding of whole numbers -/

theorem nearestEven_of_mul (q : ℕ) {d : ℕ} (hd : 0 < d) : nearestEven (q * d) d = q := by
  unfold nearestEven
  rw [Nat.mul_mod_left, Nat.mul_div_cancel q hd]
  exact if_pos hd

theorem scaled_neg (n d k : ℕ) : scaled n d (-(k : ℤ)) = (n * 2 ^ k, d) := by
  unfold scaled
  split
  · obtain rfl : k = 0 := by omega
    simp
  · rw [neg_neg, Int.toNat_natCast, Nat.shiftLeft_eq]

section

variable {n : ℕ} (hpos : 0 < n) (hn : n < 2 ^ 53)
include hpos hn

theorem log2_lt : n.log2 < 53 := (Nat.log2_lt (by omega)).2 hn

/-- The significand of a whole number has its hidden bit. -/
theorem significand_bounds :
    2 ^ 52 ≤ n * 2 ^ (52 - n.log2) ∧ n * 2 ^ (52 - n.log2) < 2 ^ 53 := by
  have hlog := log2_lt hpos hn
  have hlow : 2 ^ n.log2 ≤ n := Nat.log2_self_le (by omega)
  have hhigh : n < 2 ^ (n.log2 + 1) := Nat.lt_log2_self
  have hexponent : n.log2 + (52 - n.log2) = 52 := by omega
  constructor
  · calc 2 ^ 52 = 2 ^ n.log2 * 2 ^ (52 - n.log2) := by rw [← Nat.pow_add, hexponent]
      _ ≤ n * 2 ^ (52 - n.log2) := Nat.mul_le_mul_right _ hlow
  · calc n * 2 ^ (52 - n.log2) < 2 ^ (n.log2 + 1) * 2 ^ (52 - n.log2) :=
        Nat.mul_lt_mul_of_pos_right hhigh (Nat.two_pow_pos _)
      _ = 2 ^ 53 := by rw [← Nat.pow_add, Nat.add_right_comm, hexponent]

theorem exponentOf_whole (j : ℕ) : exponentOf (n * 2 ^ j) (2 ^ j) = (n.log2 : ℤ) - 52 := by
  have hlog := log2_lt hpos hn
  have hnumerator : (n * 2 ^ j).log2 = n.log2 + j := by
    refine (Nat.log2_eq_iff (Nat.mul_pos hpos (Nat.two_pow_pos j)).ne').2 ⟨?_, ?_⟩
    · rw [Nat.pow_add]
      exact Nat.mul_le_mul_right _ (Nat.log2_self_le hpos.ne')
    · rw [Nat.add_right_comm, Nat.pow_add]
      exact Nat.mul_lt_mul_of_pos_right Nat.lt_log2_self (Nat.two_pow_pos j)
  have hstart : ((n * 2 ^ j).log2 : ℤ) - ((2 ^ j).log2 : ℤ) - 53 =
      -((52 - n.log2 + 1 : ℕ) : ℤ) := by
    rw [hnumerator, Nat.log2_two_pow]
    omega
  have hquotient : n * 2 ^ j * 2 ^ (52 - n.log2 + 1) / 2 ^ j = n * 2 ^ (52 - n.log2) * 2 := by
    rw [Nat.mul_right_comm, Nat.mul_div_cancel _ (Nat.two_pow_pos j), Nat.pow_succ, Nat.mul_assoc]
  have hbits := (significand_bounds hpos hn).1
  unfold exponentOf
  rw [hstart]
  dsimp only
  rw [scaled_neg]
  dsimp only
  rw [hquotient, if_neg (by unfold hiddenBit; omega)]
  omega

/-- The bits of a whole number: its exponent, and the significand that begins with its first
digit. -/
theorem nearestBits_whole (j : ℕ) :
    nearestBits (n * 2 ^ j) (2 ^ j) =
      (n.log2 + 1022) * hiddenBit + n * 2 ^ (52 - n.log2) := by
  have hlog := log2_lt hpos hn
  have hexponent : (n.log2 : ℤ) - 52 = -((52 - n.log2 : ℕ) : ℤ) := by omega
  have hfield : (-((52 - n.log2 : ℕ) : ℤ) + 1074).toNat = n.log2 + 1022 := by omega
  have hbits := (significand_bounds hpos hn).2
  unfold nearestBits
  rw [if_neg (Nat.mul_pos hpos (Nat.two_pow_pos j)).ne', exponentOf_whole hpos hn, hexponent]
  dsimp only
  rw [scaled_neg, hfield, Nat.mul_right_comm]
  dsimp only
  rw [nearestEven_of_mul _ (Nat.two_pow_pos j)]
  refine Nat.min_eq_right ?_
  unfold infinityBits hiddenBit
  omega

end

theorem isWhole_zero (negative : Bool) : (ofParts negative 0).IsWhole 0 where
  finite := by
    rw [field_ofParts (by decide)]
    decide
  value_eq := by
    rw [value, significand, field_ofParts (by decide), fraction_ofParts (by decide)]
    simp

/-- Rounding leaves a whole number as it is. -/
theorem isWhole_ofParts {n : ℕ} (hpos : 0 < n) (hn : n < 2 ^ 53) :
    (ofParts false ((n.log2 + 1022) * hiddenBit + n * 2 ^ (52 - n.log2))).IsWhole n := by
  have hlog := log2_lt hpos hn
  obtain ⟨hlow, hhigh⟩ := significand_bounds hpos hn
  have hexponent : ((max (n.log2 + 1023) 1 : ℕ) : ℤ) - 1075 = n.log2 - 52 := by omega
  have hpow : (2 : ℚ) ^ (52 - n.log2) * 2 ^ ((n.log2 : ℤ) - 52) = 1 := by
    rw [← zpow_natCast, ← zpow_add₀ (by norm_num), Nat.cast_sub (by omega)]
    norm_num
  generalize hs : n * 2 ^ (52 - n.log2) = s at hlow hhigh ⊢
  have hsmall : (n.log2 + 1022) * hiddenBit + s < topBit := by
    unfold hiddenBit topBit
    omega
  have hfield : ((n.log2 + 1022) * hiddenBit + s) / hiddenBit = n.log2 + 1023 := by
    unfold hiddenBit
    omega
  have hfraction : ((n.log2 + 1022) * hiddenBit + s) % hiddenBit = s - hiddenBit := by
    unfold hiddenBit
    omega
  have hsum : hiddenBit + (s - hiddenBit) = s := Nat.add_sub_of_le hlow
  constructor
  · rw [field_ofParts hsmall, hfield]
    omega
  · rw [value, significand, exponent, field_ofParts hsmall, fraction_ofParts hsmall,
      negative_ofParts hsmall, hfield, hfraction, if_neg (Nat.succ_ne_zero _), hsum, hexponent,
      ← hs, if_neg Bool.false_ne_true]
    push_cast
    rw [one_mul, mul_assoc, hpow, mul_one]

theorem isWhole_ofQuotient {n : ℕ} (hn : n < 2 ^ 53) (j : ℕ) {negative : Bool}
    (hnegative : 0 < n → negative = false) :
    (ofQuotient negative (n * 2 ^ j) (2 ^ j)).IsWhole n := by
  unfold ofQuotient
  rcases Nat.eq_zero_or_pos n with rfl | hpos
  · rw [nearestBits, if_pos (Nat.zero_mul _)]
    exact isWhole_zero negative
  · rw [nearestBits_whole hpos hn, hnegative hpos]
    exact isWhole_ofParts hpos hn

/-! ### Arithmetic with whole numbers -/

namespace IsWhole

variable {x : Binary64} {n : ℕ} (h : x.IsWhole n)
include h

/-- Only zero can have a sign. -/
theorem negative_eq (hpos : 0 < n) : x.negative = false := by
  by_contra hnegative
  have hvalue := h.value_eq
  rw [value, if_pos (by simpa using hnegative)] at hvalue
  have hn : (0 : ℚ) < n := Nat.cast_pos.2 hpos
  have hmagnitude : (0 : ℚ) ≤ x.significand * 2 ^ x.exponent := by positivity
  rw [mul_assoc] at hvalue
  linarith

theorem magnitude : (x.significand : ℚ) * 2 ^ x.exponent = n := by
  rcases Nat.eq_zero_or_pos n with rfl | hpos
  · have hvalue := h.value_eq
    rw [value, mul_assoc, Nat.cast_zero, mul_eq_zero] at hvalue
    rw [Nat.cast_zero]
    refine hvalue.resolve_left ?_
    split <;> norm_num
  · have hvalue := h.value_eq
    rwa [value, h.negative_eq hpos, if_neg Bool.false_ne_true, one_mul] at hvalue

/-- A multiple, as the quotient from which it is rounded. -/
theorem scaled_mul (k : ℕ) :
    ∃ j, scaled (x.significand * k) 1 (-x.exponent) = (n * k * 2 ^ j, 2 ^ j) := by
  have hmagnitude := h.magnitude
  by_cases hexponent : 0 ≤ -x.exponent
  · obtain ⟨j, hj⟩ := Int.eq_ofNat_of_zero_le hexponent
    have hsignificand : x.significand = n * 2 ^ j := by
      have hq : (x.significand : ℚ) = n * 2 ^ j := by
        rw [← hmagnitude, ← neg_neg x.exponent, hj, zpow_neg, zpow_natCast]
        field_simp
      exact_mod_cast hq
    refine ⟨j, ?_⟩
    rw [scaled, if_pos hexponent, hsignificand, hj, Int.toNat_natCast, Nat.one_shiftLeft,
      Nat.mul_right_comm]
  · obtain ⟨j, hj⟩ := Int.eq_ofNat_of_zero_le (show 0 ≤ x.exponent by omega)
    have hsignificand : x.significand * 2 ^ j = n := by
      rw [hj, zpow_natCast] at hmagnitude
      exact_mod_cast hmagnitude
    refine ⟨0, ?_⟩
    rw [scaled, if_neg hexponent, neg_neg, hj, Int.toNat_natCast, Nat.shiftLeft_eq,
      Nat.mul_right_comm, hsignificand, Nat.pow_zero, Nat.mul_one]

/-- A product below `2 ^ 53` is exact. -/
theorem scale {k : ℕ} (hsmall : n * k < 2 ^ 53) : (x.scale k).IsWhole (n * k) := by
  obtain ⟨j, hj⟩ := h.scaled_mul k
  rw [Binary64.scale, if_neg h.finite, hj]
  exact isWhole_ofQuotient hsmall j fun hpos => h.negative_eq (Nat.pos_of_mul_pos_right hpos)

theorem nearestInteger : x.nearestInteger = n := by
  obtain ⟨j, hj⟩ := h.scaled_mul 1
  rw [Nat.mul_one, Nat.mul_one] at hj
  have hrounded : (2 * (n * 2 ^ j) + 2 ^ j) / (2 * 2 ^ j) = n := by
    have hpos := Nat.two_pow_pos j
    rw [Nat.div_eq_iff (by omega)]
    constructor <;> grind
  rw [Binary64.nearestInteger, hj]
  dsimp only
  rw [hrounded]
  rcases Nat.eq_zero_or_pos n with rfl | hpos
  · simp
  · rw [h.negative_eq hpos, if_neg Bool.false_ne_true]

theorem toInteger (low high : ℤ) : x.toInteger low high = max low (min high n) := by
  have hfield : (x.field == 2047) = false := beq_eq_false_iff_ne.2 h.finite
  rw [Binary64.toInteger, isNaN, isInfinite, hfield, Bool.false_and, Bool.false_and,
    if_neg Bool.false_ne_true, if_neg Bool.false_ne_true, h.nearestInteger]

end IsWhole

end Headend.Number.Binary64
