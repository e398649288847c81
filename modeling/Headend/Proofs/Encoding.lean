import Headend.Text.Utf8
import Mathlib.Data.List.Basic

/-!
# Octets of a text

Writing a text as octets and reading them gives the text back. The first octet of a sequence
announces how many follow and, where a shorter form or a surrogate would be possible, bounds the
next; a character never leaves these bounds.

Facts: `decodeFrom_encode` (one character), `decode_octets`.
-/

namespace Headend.Text

/-! ### Octets of a sequence -/

/-- What a first octet announces, by its number. -/
theorem lead_ofNat {n : Nat} (h : n < 256) :
    lead (UInt8.ofNat n) =
      if n < 0x80 then .single (Char.ofNat n)
      else if n < 0xc2 then .invalid
      else if n < 0xe0 then .begun ⟨1, 0x80, 0xbf, n - 0xc0⟩
      else if n = 0xe0 then .begun ⟨2, 0xa0, 0xbf, 0⟩
      else if n = 0xed then .begun ⟨2, 0x80, 0x9f, 0xd⟩
      else if n < 0xf0 then .begun ⟨2, 0x80, 0xbf, n - 0xe0⟩
      else if n = 0xf0 then .begun ⟨3, 0x90, 0xbf, 0⟩
      else if n < 0xf4 then .begun ⟨3, 0x80, 0xbf, n - 0xf0⟩
      else if n = 0xf4 then .begun ⟨3, 0x80, 0x8f, 4⟩
      else .invalid := by
  have hn : (UInt8.ofNat n).toNat = n := UInt8.toNat_ofNat_of_lt' h
  unfold lead
  simp only [UInt8.lt_iff_toNat_lt, ← UInt8.toNat_inj, hn, UInt8.reduceToNat]

section

variable {low high : UInt8} {a b c d : Nat} (r : Octets)

/-- An octet within its range adds six bits to a sequence. -/
theorem decodeFrom_continue (missing : Nat) (hlow : low.toNat ≤ b + 0x80)
    (hhigh : b + 0x80 ≤ high.toNat) (hb : b < 0x80) :
    decodeFrom (some ⟨missing, low, high, a⟩) (UInt8.ofNat (b + 0x80) :: r) =
      if missing = 1 then Char.ofNat (a * 64 + b) :: decodeFrom none r
      else decodeFrom (some ⟨missing - 1, 0x80, 0xbf, a * 64 + b⟩) r := by
  have hsmall : b + 0x80 < UInt8.size := Nat.add_lt_add_right hb 0x80
  have hn : (UInt8.ofNat (b + 0x80)).toNat = b + 0x80 := UInt8.toNat_ofNat_of_lt' hsmall
  rw [decodeFrom, if_pos, hn, Nat.add_sub_cancel]
  rw [UInt8.le_iff_toNat_le, UInt8.le_iff_toNat_le, hn]
  exact ⟨hlow, hhigh⟩

theorem decodeFrom_one (hlow : low.toNat ≤ b + 0x80) (hhigh : b + 0x80 ≤ high.toNat)
    (hb : b < 0x40) :
    decodeFrom (some ⟨1, low, high, a⟩) (UInt8.ofNat (b + 0x80) :: r) =
      Char.ofNat (a * 64 + b) :: decodeFrom none r := by
  rw [decodeFrom_continue r 1 hlow hhigh (by omega), if_pos rfl]

theorem decodeFrom_two (hlow : low.toNat ≤ b + 0x80) (hhigh : b + 0x80 ≤ high.toNat)
    (hb : b < 0x40) (hc : c < 0x40) :
    decodeFrom (some ⟨2, low, high, a⟩)
        (UInt8.ofNat (b + 0x80) :: UInt8.ofNat (c + 0x80) :: r) =
      Char.ofNat ((a * 64 + b) * 64 + c) :: decodeFrom none r := by
  rw [decodeFrom_continue _ 2 hlow hhigh (by omega), if_neg (by decide)]
  exact decodeFrom_one r (Nat.le_add_left ..) (Nat.add_le_add_right (Nat.le_of_lt_succ hc) 0x80) hc

theorem decodeFrom_three (hlow : low.toNat ≤ b + 0x80) (hhigh : b + 0x80 ≤ high.toNat)
    (hb : b < 0x40) (hc : c < 0x40) (hd : d < 0x40) :
    decodeFrom (some ⟨3, low, high, a⟩)
        (UInt8.ofNat (b + 0x80) :: UInt8.ofNat (c + 0x80) :: UInt8.ofNat (d + 0x80) :: r) =
      Char.ofNat (((a * 64 + b) * 64 + c) * 64 + d) :: decodeFrom none r := by
  rw [decodeFrom_continue _ 3 hlow hhigh (by omega), if_neg (by decide)]
  exact decodeFrom_two r (Nat.le_add_left ..) (Nat.add_le_add_right (Nat.le_of_lt_succ hc) 0x80) hc
    hd

end

/-! ### Characters and texts -/

/-- No character is a surrogate or above the last code point. -/
theorem toNat_isValid (c : Char) :
    c.val.toNat < 0xd800 ∨ 0xdfff < c.val.toNat ∧ c.val.toNat < 0x110000 := by
  have h := c.valid
  simpa only [UInt32.isValidChar, Nat.isValidChar] using h

/-- The octets of a character are read as that character. -/
theorem decodeFrom_encode (c : Char) (r : Octets) :
    decodeFrom none (String.utf8EncodeChar c ++ r) = c :: decodeFrom none r := by
  have hchar : ∀ n, n = c.val.toNat → Char.ofNat n :: decodeFrom none r = c :: decodeFrom none r :=
    fun n h => by rw [h]; exact congrArg (· :: decodeFrom none r) (Char.ofNat_toNat c)
  have hvalid := toNat_isValid c
  -- The bounds of the second octet, by their numbers.
  have h80 : UInt8.toNat 0x80 = 0x80 := rfl
  have h90 : UInt8.toNat 0x90 = 0x90 := rfl
  have ha0 : UInt8.toNat 0xa0 = 0xa0 := rfl
  have h8f : UInt8.toNat 0x8f = 0x8f := rfl
  have h9f : UInt8.toNat 0x9f = 0x9f := rfl
  have hbf : UInt8.toNat 0xbf = 0xbf := rfl
  unfold String.utf8EncodeChar
  generalize c.val.toNat = v at hchar hvalid
  dsimp only
  split
  · rw [List.cons_append, decodeFrom, lead_ofNat (by omega), if_pos (by omega)]
    exact hchar v rfl
  split
  · rw [List.cons_append, List.cons_append, decodeFrom, lead_ofNat (by omega), if_neg (by omega),
      if_neg (by omega), if_pos (by omega)]
    refine (decodeFrom_one r ?_ ?_ ?_).trans (hchar _ ?_) <;> omega
  split
  · rw [List.cons_append, List.cons_append, List.cons_append, decodeFrom, lead_ofNat (by omega),
      if_neg (by omega), if_neg (by omega), if_neg (by omega)]
    obtain hshort | hsurrogate | hother : v / 4096 = 0 ∨ v / 4096 = 13 ∨
      v / 4096 ≠ 0 ∧ v / 4096 ≠ 13 := by omega
    · rw [if_pos (by omega)]
      refine (decodeFrom_two r ?_ ?_ ?_ ?_).trans (hchar _ ?_) <;> omega
    · rw [if_neg (by omega), if_pos (by omega)]
      refine (decodeFrom_two r ?_ ?_ ?_ ?_).trans (hchar _ ?_) <;> omega
    · rw [if_neg (by omega), if_neg (by omega), if_pos (by omega)]
      refine (decodeFrom_two r ?_ ?_ ?_ ?_).trans (hchar _ ?_) <;> omega
  · rw [List.cons_append, List.cons_append, List.cons_append, List.cons_append, decodeFrom,
      lead_ofNat (by omega), if_neg (by omega), if_neg (by omega), if_neg (by omega),
      if_neg (by omega), if_neg (by omega), if_neg (by omega)]
    obtain hshort | hlast | hother : v / 262144 = 0 ∨ v / 262144 = 4 ∨
      v / 262144 ≠ 0 ∧ v / 262144 < 4 := by omega
    · rw [if_pos (by omega)]
      refine (decodeFrom_three r ?_ ?_ ?_ ?_ ?_).trans (hchar _ ?_) <;> omega
    · rw [if_neg (by omega), if_neg (by omega), if_pos (by omega)]
      refine (decodeFrom_three r ?_ ?_ ?_ ?_ ?_).trans (hchar _ ?_) <;> omega
    · rw [if_neg (by omega), if_pos (by omega)]
      refine (decodeFrom_three r ?_ ?_ ?_ ?_ ?_).trans (hchar _ ?_) <;> omega

theorem octets_eq_flatMap (s : String) : octets s = s.toList.flatMap String.utf8EncodeChar := by
  rw [octets, String.toUTF8_eq_toByteArray, ← String.utf8Encode_toList, List.utf8Encode]
  simp

/-- The octets of a text are read as that text. -/
theorem decode_octets (s : String) : decode (octets s) = s.toList := by
  rw [octets_eq_flatMap, decode]
  induction s.toList with
  | nil => rfl
  | cons c r ih => rw [List.flatMap_cons, decodeFrom_encode, ih]

end Headend.Text
