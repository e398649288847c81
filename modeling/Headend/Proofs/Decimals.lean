import Headend.Number.Integer
import Mathlib.Data.List.Basic
import Mathlib.Data.List.Induction
import Mathlib.Data.List.TakeWhile

/-!
# Decimals

The number that a run of digits forms is the standard library's reading of them, so the digits of a
number, with zeros before them or not, form that number again. The reading that is bounded at every
digit is the unbounded one cut off at the bound, and it is why a number is read back from its
decimal form exactly if its magnitude is within the bound: the one integer of 64 bits beyond it is
the least.

Facts: `natural_zeros_toDigits`, `exists_zeros_of_digits` (every run of digits is one of these),
`magnitude_eq_min`, `leadingInteger_toString`.
-/

namespace Headend.Number

/-! ### Digits -/

theorem not_isSpace_of_isDigit {c : Char} (h : c.isDigit = true) : isSpace c = false := by
  by_contra hs
  simp only [isSpace, Bool.not_eq_false, Bool.or_eq_true, beq_iff_eq] at hs
  rcases hs with ((rfl | rfl) | rfl) | rfl <;> exact absurd h (by decide)

theorem natural_eq_ofDigitChars (digits : List Char) :
    natural digits = Nat.ofDigitChars 10 digits 0 := by
  unfold natural Nat.ofDigitChars
  refine List.foldl_ext _ _ _ fun m c _ => ?_
  rw [Nat.mul_comm, digitValue]

/-- The digits of a number, after any zeros, form that number. -/
theorem natural_zeros_toDigits (zeros n : Nat) :
    natural (List.replicate zeros '0' ++ Nat.toDigits 10 n) = n := by
  rw [natural_eq_ofDigitChars, Nat.ofDigitChars_append, Nat.ofDigitChars_replicate_zero,
    Nat.mul_zero, Nat.ofDigitChars_ten_toDigits]

theorem isDigit_of_mem_zeros_toDigits {zeros n : Nat} {c : Char}
    (hc : c ∈ List.replicate zeros '0' ++ Nat.toDigits 10 n) : c.isDigit = true := by
  rcases List.mem_append.1 hc with hc | hc
  · rw [List.eq_of_mem_replicate hc]
    decide
  · exact Nat.isDigit_of_mem_toDigits (by decide) (by decide) hc

theorem toNat_of_isDigit {c : Char} (hc : c.isDigit = true) :
    '0'.toNat ≤ c.toNat ∧ c.toNat ≤ '9'.toNat := by
  simp only [Char.isDigit, Bool.and_eq_true, decide_eq_true_eq, ge_iff_le,
    UInt32.le_iff_toNat_le] at hc
  exact hc

theorem digitValue_lt_ten {c : Char} (hc : c.isDigit = true) : digitValue c < 10 := by
  have hle : c.toNat ≤ '9'.toNat := (toNat_of_isDigit hc).2
  have hnine : '9'.toNat = '0'.toNat + 9 := rfl
  unfold digitValue
  omega

theorem digitChar_digitValue {c : Char} (hc : c.isDigit = true) :
    (digitValue c).digitChar = c := by
  have hzero : '0'.toNat ≤ c.toNat := (toNat_of_isDigit hc).1
  rw [← Char.toNat_inj, Nat.toNat_digitChar_of_lt_ten (digitValue_lt_ten hc)]
  exact Nat.add_sub_cancel' hzero

theorem natural_concat (digits : List Char) (c : Char) :
    natural (digits ++ [c]) = 10 * natural digits + digitValue c := by
  rw [natural, List.foldl_append, Nat.mul_comm]
  rfl

/-- A run of digits is the decimal form of its number with zeros before it. -/
theorem exists_zeros_of_digits {digits : List Char} (hne : digits ≠ [])
    (h : ∀ c ∈ digits, c.isDigit = true) :
    ∃ zeros, digits = List.replicate zeros '0' ++ Nat.toDigits 10 (natural digits) := by
  induction digits using List.reverseRecOn with
  | nil => exact absurd rfl hne
  | append_singleton digits c ih =>
    have hc : c.isDigit = true := h c (by simp)
    have hlast : Nat.toDigits 10 (digitValue c) = [c] := by
      rw [Nat.toDigits_of_lt_base (digitValue_lt_ten hc), digitChar_digitValue hc]
    rw [natural_concat]
    rcases eq_or_ne digits [] with rfl | hdigits
    · refine ⟨0, ?_⟩
      have hzero : natural [] = 0 := rfl
      rw [hzero, Nat.mul_zero, Nat.zero_add, hlast]
      rfl
    · obtain ⟨zeros, hzeros⟩ := ih hdigits fun d hd => h d (by simp [hd])
      rcases Nat.eq_zero_or_pos (natural digits) with hzero | hpos
      · refine ⟨zeros + 1, ?_⟩
        rw [hzero] at hzeros ⊢
        rw [Nat.mul_zero, Nat.zero_add, hlast, hzeros, Nat.toDigits_zero,
          List.replicate_succ']
      · refine ⟨zeros, ?_⟩
        rw [← Nat.toDigits_append_toDigits (by decide) hpos (digitValue_lt_ten hc), hlast,
          ← List.append_assoc, ← hzeros]

/-! ### Bounded magnitudes -/

/-- Cutting off at the bound after every digit is cutting off once at the end. -/
theorem magnitude_eq_min (digits : List Char) :
    magnitude digits = min largest (natural digits) := by
  suffices h : ∀ m, digits.foldl appendDigit (min largest m) =
      min largest (digits.foldl (fun m c => m * 10 + digitValue c) m) from h 0
  induction digits with
  | nil => exact fun m => rfl
  | cons c r ih =>
    intro m
    have hstep : appendDigit (min largest m) c = min largest (m * 10 + digitValue c) := by
      unfold appendDigit
      omega
    rw [List.foldl_cons, List.foldl_cons, hstep, ih]

/-! ### Numbers in decimal form -/

section

variable {cs : List Char}

theorem splitSign_of_digits (h : ∀ c ∈ cs, c.isDigit = true) : splitSign cs = (false, cs) := by
  unfold splitSign
  split
  · exact absurd (h '-' List.mem_cons_self) (by decide)
  · exact absurd (h '+' List.mem_cons_self) (by decide)
  · rfl

theorem dropWhile_isSpace_of_digits (h : ∀ c ∈ cs, c.isDigit = true) :
    cs.dropWhile isSpace = cs := by
  cases cs with
  | nil => rfl
  | cons c r =>
    have hc : isSpace c = false := not_isSpace_of_isDigit (h c List.mem_cons_self)
    exact List.dropWhile_cons_of_neg (by rw [hc]; exact Bool.false_ne_true)

theorem magnitude_toDigits (n : Nat) :
    magnitude ((Nat.toDigits 10 n).takeWhile Char.isDigit) = min largest n := by
  have hall : ∀ c ∈ Nat.toDigits 10 n, c.isDigit = true := fun c hc =>
    Nat.isDigit_of_mem_toDigits (by decide) (by decide) hc
  rw [List.takeWhile_eq_self_iff.2 hall, magnitude_eq_min, natural_eq_ofDigitChars,
    Nat.ofDigitChars_ten_toDigits]

end

/-- A number is read back from its decimal form, but for the bound on its magnitude. -/
theorem leadingInteger_toString (n : Int) :
    leadingInteger (toString n) = max (-(largest : Int)) (min largest n) := by
  have hall : ∀ m : Nat, ∀ c ∈ Nat.toDigits 10 m, c.isDigit = true := fun m c hc =>
    Nat.isDigit_of_mem_toDigits (by decide) (by decide) hc
  cases n with
  | ofNat m =>
    have htext : (toString (Int.ofNat m)).toList = Nat.toDigits 10 m := Nat.toList_repr
    rw [leadingInteger, htext, dropWhile_isSpace_of_digits (hall m), splitSign_of_digits (hall m)]
    dsimp only
    rw [magnitude_toDigits, if_neg Bool.false_ne_true, Int.ofNat_eq_natCast]
    omega
  | negSucc m =>
    have htext : (toString (Int.negSucc m)).toList = '-' :: Nat.toDigits 10 (m + 1) := by
      have hs : toString (Int.negSucc m) = "-" ++ Nat.repr (m + 1) := rfl
      rw [hs, String.toList_append, Nat.toList_repr]
      rfl
    rw [leadingInteger, htext, List.dropWhile_cons_of_neg (by decide), splitSign]
    dsimp only
    rw [magnitude_toDigits, if_pos rfl, Int.negSucc_eq]
    omega

end Headend.Number
