/-!
# UTF-8

Text as octets and octets as text. Reading is lossy: each maximal part of the octets that cannot
be continued to a well-formed sequence is read as one replacement character. Sizes and cuts are
counted in octets.

Facts: a cut fits its budget (`size_takeSize`) and is an initial part of the text
(`takeSize_append_drop`); what stands between two texts is cut out (`cut?_append`).
-/

namespace Headend.Text

/-- Octets, as they stand in a file. -/
abbrev Octets := List UInt8

/-! ### Size in octets -/

/-- How many octets a text takes. -/
def size : List Char → Nat
  | [] => 0
  | c :: r => c.utf8Size + size r

/-- The longest initial part of a text that takes at most `budget` octets. -/
def takeSize : Nat → List Char → List Char
  | _, [] => []
  | budget, c :: r =>
    if c.utf8Size ≤ budget then c :: takeSize (budget - c.utf8Size) r else []

@[simp] theorem size_nil : size [] = 0 := rfl

@[simp] theorem size_cons (c : Char) (r : List Char) : size (c :: r) = c.utf8Size + size r := rfl

theorem size_append (a b : List Char) : size (a ++ b) = size a + size b := by
  induction a with
  | nil => simp
  | cons c r ih => simp only [List.cons_append, size_cons, ih]; omega

theorem size_takeSize (n : Nat) (cs : List Char) : size (takeSize n cs) ≤ n := by
  induction cs generalizing n with
  | nil => simp [takeSize]
  | cons c r ih =>
    rw [takeSize]
    split
    · have := ih (n - c.utf8Size)
      simp only [size_cons]; omega
    · simp

theorem takeSize_append_drop (n : Nat) (cs : List Char) :
    takeSize n cs ++ cs.drop (takeSize n cs).length = cs := by
  induction cs generalizing n with
  | nil => simp [takeSize]
  | cons c r ih =>
    rw [takeSize]
    split
    · simp [ih]
    · simp

theorem takeSize_of_size_le {n : Nat} {cs : List Char} (h : size cs ≤ n) :
    takeSize n cs = cs := by
  induction cs generalizing n with
  | nil => rfl
  | cons c r ih =>
    simp only [size_cons] at h
    rw [takeSize, if_pos (by omega), ih (by omega)]

theorem takeSize_size_append (a b : List Char) : takeSize (size a) (a ++ b) = a := by
  induction a with
  | nil =>
    cases b with
    | nil => rfl
    | cons c r =>
      have := c.utf8Size_pos
      rw [List.nil_append, takeSize, if_neg (by simp only [size_nil]; omega)]
  | cons c r ih =>
    rw [List.cons_append, takeSize, size_cons, if_pos (by omega), Nat.add_sub_cancel_left, ih]

/-- The part of a text between two places that are counted in octets, if both stand between
characters. -/
def cut? (cs : List Char) (start stop : Nat) : Option (List Char) :=
  let before := takeSize start cs
  let part := takeSize (stop - start) (cs.drop before.length)
  if size before = start ∧ size part = stop - start then some part else none

theorem cut?_append (a b c : List Char) :
    cut? (a ++ b ++ c) (size a) (size a + size b) = some b := by
  rw [cut?, List.append_assoc, takeSize_size_append, List.drop_left, Nat.add_sub_cancel_left,
    takeSize_size_append, if_pos ⟨rfl, rfl⟩]

/-! ### Writing -/

/-- The octets of a text. -/
def octets (s : String) : Octets := s.toUTF8.data.toList

/-! ### Reading -/

/-- The character that stands for octets that are no text. -/
def replacement : Char := '\ufffd'

/-- A sequence that has begun: how many octets it still needs, the range of the next one, and the
number formed so far. -/
structure Begun where
  missing : Nat
  low : UInt8
  high : UInt8
  value : Nat

/-- What an octet that stands first in a sequence announces. -/
inductive Lead where
  | single (c : Char)
  | begun (b : Begun)
  | invalid

/-- Reading the first octet of a sequence. The second octet's range excludes overlong forms,
surrogates and numbers above the last code point. -/
def lead (b : UInt8) : Lead :=
  if b < 0x80 then .single (Char.ofNat b.toNat)
  else if b < 0xc2 then .invalid
  else if b < 0xe0 then .begun ⟨1, 0x80, 0xbf, b.toNat - 0xc0⟩
  else if b = 0xe0 then .begun ⟨2, 0xa0, 0xbf, 0⟩
  else if b = 0xed then .begun ⟨2, 0x80, 0x9f, 0xd⟩
  else if b < 0xf0 then .begun ⟨2, 0x80, 0xbf, b.toNat - 0xe0⟩
  else if b = 0xf0 then .begun ⟨3, 0x90, 0xbf, 0⟩
  else if b < 0xf4 then .begun ⟨3, 0x80, 0xbf, b.toNat - 0xf0⟩
  else if b = 0xf4 then .begun ⟨3, 0x80, 0x8f, 4⟩
  else .invalid

/-- Reads octets, of which the first may continue a sequence that has begun. An octet that does not
continue it ends it as a replacement character and is read as a first octet. -/
def decodeFrom : Option Begun → Octets → List Char
  | none, [] => []
  | some _, [] => [replacement]
  | none, b :: r =>
    match lead b with
    | .single c => c :: decodeFrom none r
    | .begun s => decodeFrom (some s) r
    | .invalid => replacement :: decodeFrom none r
  | some s, b :: r =>
    if s.low ≤ b ∧ b ≤ s.high then
      let value := s.value * 64 + (b.toNat - 0x80)
      if s.missing = 1 then Char.ofNat value :: decodeFrom none r
      else decodeFrom (some ⟨s.missing - 1, 0x80, 0xbf, value⟩) r
    else
      replacement ::
        match lead b with
        | .single c => c :: decodeFrom none r
        | .begun t => decodeFrom (some t) r
        | .invalid => replacement :: decodeFrom none r

/-- The text that octets stand for, with a replacement character for each part that is no text. -/
def decode (bs : Octets) : List Char := decodeFrom none bs

end Headend.Text
