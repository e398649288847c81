import Headend.Signal.Cause
import Mathlib.Data.Set.Function

/-!
# Words of causes

The word of a cause has 32 bits with sign. An error stands in the bits above the lowest eight, and a
signal is its own number, so a signal is told apart from errors by a bit among the lowest eight. What
is said of a word by division and remainder is what its bits say, also of a negative one: masking
leaves the remainder, and the shift to the right keeps the sign.

Facts: `and_eq_zero_iff` and `toInt_shiftRight` (remainder and quotient as bits), `decode_eq_ofWord?`
and `encode_eq_toInt_word` (causes and words by their bits), `told_of_isDistinct` (what the word of
a cause tells), `tells` (what a word tells), `words_roundTrip`.
-/

namespace Headend.Signal.Cause

/-! ### Causes and words by their bits -/

/-- The word of a cause, by a shift. -/
def word : Cause → Int32
  | signal n => Int32.ofInt n
  | error code => Int32.ofInt code.number <<< 8

/-- The cause of a word, by a mask and a shift. -/
def ofWord? (w : Int32) : Option Cause :=
  if w = 0 then none
  else if w &&& 0xff = 0 then some (error ((ExitCode.ofNumber? (w >>> 8).toInt).getD .generic))
  else some (signal w.toInt)

/-- A cause that its word tells apart: an error, or a signal with a bit among the lowest eight of its
number, which is one of 32 bits. -/
def IsDistinct : Cause → Prop
  | signal n => ∃ w : Int32, n = w.toInt ∧ w &&& 0xff ≠ 0
  | error _ => True

/-- Whether a word stands for an error that has no code of its own. -/
def IsNameless (w : Int32) : Prop := w &&& 0xff = 0 ∧ ExitCode.ofNumber? (w >>> 8).toInt = none

instance (w : Int32) : Decidable (IsNameless w) := inferInstanceAs (Decidable (_ ∧ _))

/-- The mask leaves the remainder. -/
theorem and_eq_zero_iff (w : Int32) : w &&& 0xff = 0 ↔ w.toInt % 256 = 0 := by
  have hmask : w &&& 0xff = 0 ↔ w.toBitVec.toNat % 256 = 0 := by
    rw [← Int32.toBitVec_inj, Int32.toBitVec_and, ← BitVec.toNat_inj, BitVec.toNat_and]
    exact iff_of_eq (congrArg (· = 0) (Nat.and_two_pow_sub_one_eq_mod w.toBitVec.toNat 8))
  have hvalue : w.toInt =
      if 2 * w.toBitVec.toNat < 2 ^ 32 then (w.toBitVec.toNat : Int)
      else w.toBitVec.toNat - 2 ^ 32 :=
    BitVec.toInt_eq_toNat_cond w.toBitVec
  rw [hmask, hvalue]
  split <;> omega

/-- The shift is a division that rounds down. -/
theorem toInt_shiftRight (w : Int32) : (w >>> 8).toInt = w.toInt / 256 := by
  have hshift : (w >>> 8).toInt = w.toInt >>> (8 : Nat) := BitVec.toInt_sshiftRight
  rw [hshift, Int.shiftRight_eq_div_pow]
  rfl

theorem toInt_eq_zero_iff (w : Int32) : w.toInt = 0 ↔ w = 0 := Int32.toInt_inj (y := 0)

theorem decode_eq_ofWord? (w : Int32) : decode w.toInt = ofWord? w := by
  unfold decode ofWord?
  simp only [toInt_eq_zero_iff, and_eq_zero_iff, toInt_shiftRight]

theorem encode_eq_toInt_word {c : Cause} (hc : c.IsDistinct) : c.encode = c.word.toInt := by
  cases c with
  | signal n =>
    obtain ⟨w, rfl, -⟩ := hc
    rw [encode, word, Int32.ofInt_toInt]
  | error code => cases code <;> decide

/-! ### What the word of a cause tells -/

/-- What is told of a cause by its word. -/
structure Told (c : Cause) : Prop where
  /-- The word has 32 bits, and a shift makes it. -/
  bits : c.encode = c.word.toInt
  /-- The word is not the one of no cause. -/
  ne_zero : c.encode ≠ 0
  /-- The word is read as the cause. -/
  read : decode c.encode = some c

theorem decode_signal {w : Int32} (hw : w &&& 0xff ≠ 0) :
    decode (signal w.toInt).encode = some (signal w.toInt) := by
  have hlow : w.toInt % 256 ≠ 0 := fun h => hw ((and_eq_zero_iff w).2 h)
  have hzero : w.toInt ≠ 0 := by
    intro h
    rw [h] at hlow
    exact hlow rfl
  rw [decode, encode, if_neg hzero, if_neg hlow]

theorem told_of_isDistinct {c : Cause} (hc : c.IsDistinct) : c.Told := by
  have hread : decode c.encode = some c := by
    cases c with
    | signal n =>
      obtain ⟨w, rfl, hw⟩ := hc
      exact decode_signal hw
    | error code => exact decode_encode_error code
  refine ⟨encode_eq_toInt_word hc, ?_, hread⟩
  intro hzero
  rw [hzero] at hread
  cases hread

theorem injOn_encode : Set.InjOn encode {c | c.IsDistinct} := by
  intro c hc c' hc' h
  have hread : decode c'.encode = some c := h ▸ (told_of_isDistinct hc).read
  rw [(told_of_isDistinct hc').read] at hread
  exact (Option.some.inj hread).symm

/-! ### What a word tells -/

/-- What a word tells of a cause. -/
structure Tells (w : Int32) : Prop where
  /-- The bits of the word decide. -/
  bits : decode w.toInt = ofWord? w
  /-- Only zero is no cause. -/
  none_iff : decode w.toInt = none ↔ w = 0
  /-- The word of the cause is the word itself, unless this is an error without a code. -/
  again : ∀ c, decode w.toInt = some c →
    c.encode = if IsNameless w then (error .generic).encode else w.toInt
  /-- What is read of the word of the cause is the cause. -/
  twice : (decode w.toInt).bind (fun c => decode c.encode) = decode w.toInt

/-- A word is read as a cause that its word tells apart. -/
theorem isDistinct_of_decode {w : Int32} {c : Cause} (h : decode w.toInt = some c) :
    c.IsDistinct := by
  rw [decode_eq_ofWord?, ofWord?] at h
  split at h
  · cases h
  · split at h
    · cases h
      trivial
    · rename_i hlow
      cases h
      exact ⟨w, rfl, hlow⟩

theorem encode_of_decode {w : Int32} {c : Cause} (h : decode w.toInt = some c) :
    c.encode = if IsNameless w then (error .generic).encode else w.toInt := by
  rw [decode_eq_ofWord?, ofWord?] at h
  split at h
  · cases h
  · split at h
    · rename_i hlow
      cases h
      cases hcode : ExitCode.ofNumber? (w >>> 8).toInt with
      | none => rw [if_pos ⟨hlow, hcode⟩, Option.getD_none]
      | some code =>
        have hnamed : ¬IsNameless w := fun hn => by simp [hn.2] at hcode
        have hnumber : code.number = w.toInt / 256 := by
          rw [ExitCode.number_of_ofNumber? hcode, toInt_shiftRight]
        have hdivides : w.toInt % 256 = 0 := (and_eq_zero_iff w).1 hlow
        rw [if_neg hnamed, Option.getD_some, encode, hnumber]
        omega
    · rename_i hlow
      cases h
      have hsignal : ¬IsNameless w := fun hn => hlow hn.1
      rw [if_neg hsignal, encode]

theorem tells (w : Int32) : Tells w where
  bits := decode_eq_ofWord? w
  none_iff := by rw [decode_eq_none_iff, toInt_eq_zero_iff]
  again c h := encode_of_decode h
  twice := by
    cases h : decode w.toInt with
    | none => rfl
    | some c => exact (told_of_isDistinct (isDistinct_of_decode h)).read

/-- Words and causes: those that are told apart by their words are read back from them, and every
word says which cause it stands for. -/
theorem words_roundTrip :
    (∀ c : Cause, c.IsDistinct → c.Told) ∧ Set.InjOn encode {c | c.IsDistinct} ∧
      ∀ w : Int32, Tells w :=
  ⟨fun _ hc => told_of_isDistinct hc, injOn_encode, tells⟩

/-- A negative word keeps its sign under the shift, so it has no code, and the word of the cause is
another one. -/
example : decode (-256) = some (error .generic) ∧ (error .generic).encode = 0xc00 := by decide

end Headend.Signal.Cause
