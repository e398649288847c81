import Headend.Proofs.Encoding
import Mathlib.Tactic.Common

/-!
# Reading octets that need not be text

Octets are read part by part. Where the octets of a character stand, it is read. Anywhere else the
longest part that begins the octets of some character, or one octet if no character begins so, is
read as one replacement character (`ReadsAs`). This says what reading gives without the states that
it goes through.

Facts: `encode_of_announced` (a sequence that is complete), `exists_completion` (every sequence that
has begun can be completed), `readable_or_broken` (what stands first), `BrokenPart.unique`,
`readsAs_iff`.
-/

namespace Headend.Text

/-- Whether octets begin the octets of some character. -/
def BeginsCharacter (p : Octets) : Prop := ∃ c, p <+: String.utf8EncodeChar c

/-- A part of octets, with others behind it, that is read as one replacement character. -/
structure BrokenPart (p rest : Octets) : Prop where
  ne_nil : p ≠ []
  /-- There is no character here. -/
  unreadable : ∀ c, ¬String.utf8EncodeChar c <+: p ++ rest
  begins_or_single : BeginsCharacter p ∨ p.length = 1
  /-- With one octet more no character begins so. -/
  longest : ∀ b, rest.head? = some b → ¬BeginsCharacter (p ++ [b])

/-- What octets are read as. -/
inductive ReadsAs : Octets → List Char → Prop where
  | nothing : ReadsAs [] []
  | character (c : Char) {rest : Octets} {cs : List Char} :
    ReadsAs rest cs → ReadsAs (String.utf8EncodeChar c ++ rest) (c :: cs)
  | broken {p rest : Octets} {cs : List Char} :
    BrokenPart p rest → ReadsAs rest cs → ReadsAs (p ++ rest) (replacement :: cs)

/-! ### Complete sequences -/

theorem toNat_ofNat {n : Nat} (h : n < 0xd800 ∨ 0xdfff < n ∧ n < 0x110000) :
    (Char.ofNat n).val.toNat = n := by
  have hvalid : n.isValidChar := h
  rw [Char.ofNat, dif_pos hvalid]
  exact UInt32.toNat_ofNatLT ..

section

variable {a b c d : Nat} (hb : b < 0x40)
include hb

theorem encode_two (ha : 2 ≤ a) (ha' : a < 0x20) :
    String.utf8EncodeChar (Char.ofNat (a * 64 + b)) =
      [UInt8.ofNat (a + 0xc0), UInt8.ofNat (b + 0x80)] := by
  have hval := toNat_ofNat (n := a * 64 + b) (by omega)
  have hlead : (a * 64 + b) / 64 % 32 = a := by omega
  have hlast : (a * 64 + b) % 64 = b := by omega
  simp only [String.utf8EncodeChar, hval, hlead, hlast]
  rw [if_neg (by omega), if_pos (by omega)]

variable (hc : c < 0x40)
include hc

theorem encode_three (ha : a < 0x10) (hlong : a = 0 → 0x20 ≤ b) (hsurrogate : a = 13 → b < 0x20) :
    String.utf8EncodeChar (Char.ofNat ((a * 64 + b) * 64 + c)) =
      [UInt8.ofNat (a + 0xe0), UInt8.ofNat (b + 0x80), UInt8.ofNat (c + 0x80)] := by
  have hval := toNat_ofNat (n := (a * 64 + b) * 64 + c) (by omega)
  have hlead : ((a * 64 + b) * 64 + c) / 4096 % 16 = a := by omega
  have hsecond : ((a * 64 + b) * 64 + c) / 64 % 64 = b := by omega
  have hlast : ((a * 64 + b) * 64 + c) % 64 = c := by omega
  simp only [String.utf8EncodeChar, hval, hlead, hsecond, hlast]
  rw [if_neg (by omega), if_neg (by omega), if_pos (by omega)]

theorem encode_four (hd : d < 0x40) (ha : a < 5) (hlong : a = 0 → 0x10 ≤ b)
    (hlast : a = 4 → b < 0x10) :
    String.utf8EncodeChar (Char.ofNat (((a * 64 + b) * 64 + c) * 64 + d)) =
      [UInt8.ofNat (a + 0xf0), UInt8.ofNat (b + 0x80), UInt8.ofNat (c + 0x80),
        UInt8.ofNat (d + 0x80)] := by
  have hval := toNat_ofNat (n := ((a * 64 + b) * 64 + c) * 64 + d) (by omega)
  have hlead : (((a * 64 + b) * 64 + c) * 64 + d) / 262144 % 8 = a := by omega
  have hsecond : (((a * 64 + b) * 64 + c) * 64 + d) / 4096 % 64 = b := by omega
  have hthird : (((a * 64 + b) * 64 + c) * 64 + d) / 64 % 64 = c := by omega
  have hfourth : (((a * 64 + b) * 64 + c) * 64 + d) % 64 = d := by omega
  simp only [String.utf8EncodeChar, hval, hlead, hsecond, hthird, hfourth]
  rw [if_neg (by omega), if_neg (by omega), if_neg (by omega)]

end

namespace Begun

/-- A sequence with one octet more. -/
def next (s : Begun) (b : UInt8) : Begun :=
  ⟨s.missing - 1, 0x80, 0xbf, s.value * 64 + (b.toNat - 0x80)⟩

/-- A sequence with more octets. -/
def after (s : Begun) (q : Octets) : Begun := q.foldl next s

/-- Whether an octet continues a sequence. -/
def Admits (s : Begun) (b : UInt8) : Prop := s.low ≤ b ∧ b ≤ s.high

/-- Whether octets continue a sequence. -/
def Takes (s : Begun) : Octets → Prop
  | [] => True
  | b :: q => 0 < s.missing ∧ s.Admits b ∧ (s.next b).Takes q

/-- What a first octet announces, by its number: how many octets follow, the range of the next one,
and the highest bits of the character. -/
inductive Announced : Nat → Begun → Prop where
  | two {a : Nat} : 2 ≤ a → a < 0x20 → Announced (a + 0xc0) ⟨1, 0x80, 0xbf, a⟩
  | three {a : Nat} : a < 0x10 → Announced (a + 0xe0)
    ⟨2, if a = 0 then 0xa0 else 0x80, if a = 13 then 0x9f else 0xbf, a⟩
  | four {a : Nat} : a < 5 → Announced (a + 0xf0)
    ⟨3, if a = 0 then 0x90 else 0x80, if a = 4 then 0x8f else 0xbf, a⟩

end Begun

open Begun (Announced)

variable {b : UInt8} {s : Begun} {p q rest rest' : Octets}

theorem announced_of_lead (h : lead b = .begun s) : Announced b.toNat s := by
  have hb := b.toNat_lt
  rw [← UInt8.ofNat_toNat (x := b), lead_ofNat hb] at h
  generalize b.toNat = n at h
  have hbegun : ∀ t, Lead.begun t = .begun s → t = s := fun _ => Lead.begun.inj
  split_ifs at h
  · obtain rfl := hbegun _ h
    obtain ⟨a, rfl⟩ : ∃ a, n = a + 0xc0 := ⟨n - 0xc0, by omega⟩
    rw [Nat.add_sub_cancel]
    exact .two (by omega) (by omega)
  · obtain rfl := hbegun _ h
    subst n
    exact .three (a := 0) (by decide)
  · obtain rfl := hbegun _ h
    subst n
    exact .three (a := 13) (by decide)
  · obtain rfl := hbegun _ h
    obtain ⟨a, rfl⟩ : ∃ a, n = a + 0xe0 := ⟨n - 0xe0, by omega⟩
    have hthree : Announced (a + 0xe0) _ := .three (by omega)
    rw [if_neg (by omega), if_neg (by omega)] at hthree
    rwa [Nat.add_sub_cancel]
  · obtain rfl := hbegun _ h
    subst n
    exact .four (a := 0) (by decide)
  · obtain rfl := hbegun _ h
    obtain ⟨a, rfl⟩ : ∃ a, n = a + 0xf0 := ⟨n - 0xf0, by omega⟩
    have hfour : Announced (a + 0xf0) _ := .four (by omega)
    rw [if_neg (by omega), if_neg (by omega)] at hfour
    rwa [Nat.add_sub_cancel]
  · obtain rfl := hbegun _ h
    subst n
    exact .four (a := 4) (by decide)

/-! ### Sequences that begin -/

/-- The six bits of an octet that continues a sequence, within its range. -/
theorem exists_bits {low high : UInt8} (hlow : low ≤ b) (hhigh : b ≤ high) (h80 : 0x80 ≤ low)
    (hbf : high ≤ 0xbf) :
    ∃ n, b = UInt8.ofNat (n + 0x80) ∧ b.toNat - 0x80 = n ∧ n < 0x40 ∧
      low.toNat ≤ n + 0x80 ∧ n + 0x80 ≤ high.toNat := by
  rw [UInt8.le_iff_toNat_le] at hlow hhigh h80 hbf
  have hlow' : UInt8.toNat 0x80 = 0x80 := rfl
  have hhigh' : UInt8.toNat 0xbf = 0xbf := rfl
  have hcancel : b.toNat - 0x80 + 0x80 = b.toNat := by omega
  refine ⟨b.toNat - 0x80, ?_, rfl, ?_⟩
  · rw [hcancel, UInt8.ofNat_toNat]
  · omega

/-- A first octet with all that it announces is a character. -/
theorem encode_of_announced (h : Announced b.toNat s) (hq : s.Takes q)
    (hlength : q.length = s.missing) :
    String.utf8EncodeChar (Char.ofNat (s.after q).value) = b :: q := by
  generalize hn : b.toNat = n at h
  have hb : ∀ a, a = n → UInt8.ofNat a = b := by
    rintro a rfl
    rw [← hn, UInt8.ofNat_toNat]
  cases h with
  | @two a hlow hhigh =>
    obtain ⟨x, rfl⟩ := List.length_eq_one_iff.1 hlength
    obtain ⟨-, hx, -⟩ := hq
    obtain ⟨i, rfl, hi, hi', -⟩ := exists_bits hx.1 hx.2 (UInt8.le_refl _) (UInt8.le_refl _)
    change String.utf8EncodeChar (Char.ofNat (a * 64 + _)) = _
    rw [hi, encode_two hi' hlow hhigh, hb _ rfl]
  | @three a ha =>
    obtain ⟨x, y, rfl⟩ := List.length_eq_two.1 hlength
    obtain ⟨-, hx, -, hy, -⟩ := hq
    obtain ⟨i, rfl, hi, hi', hlow, hhigh⟩ := exists_bits hx.1 hx.2 (by dsimp only; split <;> decide)
      (by dsimp only; split <;> decide)
    obtain ⟨j, rfl, hj, hj', -⟩ := exists_bits hy.1 hy.2 (UInt8.le_refl _) (UInt8.le_refl _)
    have hlong : a = 0 → 0x20 ≤ i := by
      rintro rfl
      have h : 0xa0 ≤ i + 0x80 := hlow
      omega
    have hsurrogate : a = 13 → i < 0x20 := by
      rintro rfl
      have h : i + 0x80 ≤ 0x9f := hhigh
      omega
    change String.utf8EncodeChar (Char.ofNat ((a * 64 + _) * 64 + _)) = _
    rw [hi, hj, encode_three hi' hj' ha hlong hsurrogate, hb _ rfl]
  | @four a ha =>
    obtain ⟨x, y, z, rfl⟩ := List.length_eq_three.1 hlength
    obtain ⟨-, hx, -, hy, -, hz, -⟩ := hq
    obtain ⟨i, rfl, hi, hi', hlow, hhigh⟩ := exists_bits hx.1 hx.2 (by dsimp only; split <;> decide)
      (by dsimp only; split <;> decide)
    obtain ⟨j, rfl, hj, hj', -⟩ := exists_bits hy.1 hy.2 (UInt8.le_refl _) (UInt8.le_refl _)
    obtain ⟨k, rfl, hk, hk', -⟩ := exists_bits hz.1 hz.2 (UInt8.le_refl _) (UInt8.le_refl _)
    have hlong : a = 0 → 0x10 ≤ i := by
      rintro rfl
      have h : 0x90 ≤ i + 0x80 := hlow
      omega
    have hlast : a = 4 → i < 0x10 := by
      rintro rfl
      have h : i + 0x80 ≤ 0x8f := hhigh
      omega
    change String.utf8EncodeChar (Char.ofNat (((a * 64 + _) * 64 + _) * 64 + _)) = _
    rw [hi, hj, hk, encode_four hi' hj' hk' ha hlong hlast, hb _ rfl]

theorem encode_of_single {c : Char} (h : lead b = .single c) : String.utf8EncodeChar c = [b] := by
  have hb := b.toNat_lt
  rw [← UInt8.ofNat_toNat (x := b), lead_ofNat hb] at h
  split_ifs at h with hsmall
  obtain rfl := Lead.single.inj h
  have hval := toNat_ofNat (n := b.toNat) (by omega)
  simp only [String.utf8EncodeChar, hval]
  rw [if_pos (by omega), UInt8.ofNat_toNat]

namespace Begun

theorem next_low_le_high (s : Begun) (b : UInt8) : (s.next b).low ≤ (s.next b).high :=
  show (0x80 : UInt8) ≤ 0xbf by decide

theorem exists_takes (h : s.low ≤ s.high) : ∃ q, s.Takes q ∧ q.length = s.missing := by
  generalize hn : s.missing = n
  induction n generalizing s with
  | zero => exact ⟨[], trivial, rfl⟩
  | succ n ih =>
    have hnext : (s.next s.low).missing = n := by
      rw [next, hn]
      rfl
    obtain ⟨q, hq, hlength⟩ := ih (s := s.next s.low) (s.next_low_le_high s.low) hnext
    refine ⟨s.low :: q, ⟨?_, ⟨UInt8.le_refl _, h⟩, hq⟩, congrArg (· + 1) hlength⟩
    rw [hn]
    exact Nat.succ_pos n

/-- Every sequence that has begun can be completed. -/
theorem exists_completion (h : s.low ≤ s.high) (hq : s.Takes q) (hlength : q.length ≤ s.missing) :
    ∃ e, s.Takes (q ++ e) ∧ (q ++ e).length = s.missing := by
  induction q generalizing s with
  | nil => exact exists_takes h
  | cons b q ih =>
    obtain ⟨hmissing, hb, hq⟩ := hq
    have hshorter : q.length ≤ (s.next b).missing := Nat.le_sub_one_of_lt hlength
    obtain ⟨e, he, hcomplete⟩ := ih (s := s.next b) (s.next_low_le_high b) hq hshorter
    refine ⟨e, ⟨hmissing, hb, he⟩, ?_⟩
    rw [List.cons_append, List.length_cons, hcomplete]
    exact Nat.sub_add_cancel hmissing

/-- Octets continue a sequence up to where it is complete, or an octet does not continue it. -/
theorem exists_split (s : Begun) (r : Octets) :
    ∃ q rest, r = q ++ rest ∧ s.Takes q ∧ q.length ≤ s.missing ∧
      (q.length = s.missing ∨ ∀ b, rest.head? = some b → ¬(s.after q).Admits b) := by
  induction r generalizing s with
  | nil => exact ⟨[], [], rfl, trivial, Nat.zero_le _, .inr fun b hb => by cases hb⟩
  | cons x r ih =>
    rcases Nat.eq_zero_or_pos s.missing with hmissing | hmissing
    · exact ⟨[], x :: r, rfl, trivial, Nat.zero_le _, .inl hmissing.symm⟩
    by_cases hx : s.Admits x
    · obtain ⟨q, rest, rfl, hq, hlength, hend⟩ := ih (s.next x)
      refine ⟨x :: q, rest, rfl, ⟨hmissing, hx, hq⟩, ?_, hend.imp_left fun h => ?_⟩
      · exact Nat.add_le_of_le_sub hmissing hlength
      · rw [List.length_cons, h]
        exact Nat.sub_add_cancel hmissing
    · refine ⟨[], x :: r, rfl, trivial, Nat.zero_le _, .inr ?_⟩
      rintro b ⟨⟩
      exact hx

end Begun

/-- A range that is narrowed at one end only is not empty. -/
theorem narrowed_le {a k : Nat} {low high : UInt8} (hk : k ≠ 0) (hlow : low ≤ 0xbf)
    (hhigh : 0x80 ≤ high) :
    (if a = 0 then low else 0x80) ≤ if a = k then high else 0xbf := by
  by_cases ha : a = 0
  · rw [if_pos ha, if_neg (ha ▸ hk.symm)]
    exact hlow
  · rw [if_neg ha]
    split
    · exact hhigh
    · decide

theorem Begun.Announced.low_le_high {n : Nat} (h : Announced n s) : s.low ≤ s.high := by
  cases h with
  | two => exact show (0x80 : UInt8) ≤ 0xbf by decide
  | three => exact narrowed_le (by decide) (by decide) (by decide)
  | four => exact narrowed_le (by decide) (by decide) (by decide)

/-- A sequence that is not continued is read as a replacement character. -/
theorem decodeFrom_stuck (hq : s.Takes q) (hlength : q.length < s.missing)
    (hstop : ∀ x, rest.head? = some x → ¬(s.after q).Admits x) :
    decodeFrom (some s) (q ++ rest) = replacement :: decodeFrom none rest := by
  induction q generalizing s with
  | nil =>
    match rest with
    | [] => rfl
    | x :: r =>
      have hx : ¬(s.low ≤ x ∧ x ≤ s.high) := hstop x rfl
      simp only [List.nil_append, decodeFrom, if_neg hx]
  | cons b q ih =>
    obtain ⟨-, hb, hq⟩ := hq
    have hmissing : s.missing ≠ 1 := by
      rw [List.length_cons] at hlength
      omega
    have hb' : s.low ≤ b ∧ b ≤ s.high := hb
    rw [List.cons_append, decodeFrom, if_pos hb']
    dsimp only
    rw [if_neg hmissing]
    exact ih hq (Nat.lt_sub_of_add_lt hlength) hstop

theorem decodeFrom_ne_nil {r : Octets} (hr : r ≠ []) : decodeFrom none r ≠ [] := by
  have hbegun : ∀ (s : Begun) (r : Octets), decodeFrom (some s) r ≠ [] := by
    intro s r
    induction r generalizing s with
    | nil => exact List.cons_ne_nil _ _
    | cons b r ih =>
      rw [decodeFrom]
      split
      · dsimp only
        split
        · exact List.cons_ne_nil _ _
        · exact ih _
      · exact List.cons_ne_nil _ _
  obtain ⟨b, r, rfl⟩ := List.exists_cons_of_ne_nil hr
  rw [decodeFrom]
  split
  · exact List.cons_ne_nil _ _
  · exact hbegun _ _
  · exact List.cons_ne_nil _ _

/-! ### What stands first -/

theorem decodeFrom_encode_nil (c : Char) : decodeFrom none (String.utf8EncodeChar c) = [c] := by
  rw [← List.append_nil (String.utf8EncodeChar c), decodeFrom_encode, decodeFrom]

/-- The octets of a character do not begin those of another. -/
theorem encode_eq_of_prefix {c c' : Char}
    (h : String.utf8EncodeChar c <+: String.utf8EncodeChar c') :
    String.utf8EncodeChar c = String.utf8EncodeChar c' := by
  obtain ⟨z, hz⟩ := h
  have hdecode := decodeFrom_encode_nil c'
  rw [← hz, decodeFrom_encode] at hdecode
  obtain rfl : z = [] := by
    by_contra hne
    exact decodeFrom_ne_nil hne (List.cons.inj hdecode).2
  rwa [List.append_nil] at hz

theorem BeginsCharacter.of_prefix (h : BeginsCharacter q) (hp : p <+: q) : BeginsCharacter p := by
  obtain ⟨c, hc⟩ := h
  exact ⟨c, hp.trans hc⟩

theorem not_beginsCharacter_of_invalid (h : lead b = .invalid) : ¬BeginsCharacter [b] := by
  rintro ⟨c, z, hz⟩
  have hdecode := decodeFrom_encode_nil c
  rw [← hz, List.singleton_append, decodeFrom, h] at hdecode
  obtain ⟨rfl, hnone⟩ := List.cons.inj hdecode
  obtain rfl : z = [] := by
    by_contra hne
    exact decodeFrom_ne_nil hne hnone
  have hthree : ([b] ++ []).length = (String.utf8EncodeChar replacement).length :=
    congrArg List.length hz
  rw [List.append_nil, List.length_singleton] at hthree
  revert hthree
  decide

theorem brokenPart_of_invalid (h : lead b = .invalid) (rest : Octets) : BrokenPart [b] rest where
  ne_nil := List.cons_ne_nil b []
  unreadable c hc := by
    have hb : [b] <+: String.utf8EncodeChar c := by
      have hlength : [b].length ≤ (String.utf8EncodeChar c).length := by
        rw [String.length_utf8EncodeChar]
        exact c.utf8Size_pos
      exact List.prefix_of_prefix_length_le (List.prefix_append [b] rest) hc hlength
    exact not_beginsCharacter_of_invalid h ⟨c, hb⟩
  begins_or_single := .inr rfl
  longest x _ hx := not_beginsCharacter_of_invalid h (hx.of_prefix (List.prefix_append [b] [x]))

section

variable (h : lead b = .begun s) (hq : s.Takes q)
include h hq

theorem exists_encode (hlength : q.length ≤ s.missing) :
    ∃ c e, String.utf8EncodeChar c = b :: q ++ e ∧ (q ++ e).length = s.missing := by
  have hannounced := announced_of_lead h
  obtain ⟨e, he, hcomplete⟩ := Begun.exists_completion hannounced.low_le_high hq hlength
  exact ⟨_, e, encode_of_announced hannounced he hcomplete, hcomplete⟩

variable (hlength : q.length < s.missing)
include hlength

theorem not_beginsCharacter_of_stuck {x : UInt8} (hx : ¬(s.after q).Admits x) :
    ¬BeginsCharacter (b :: q ++ [x]) := by
  rintro ⟨c, z, hz⟩
  have hstop : ∀ x', (x :: z).head? = some x' → ¬(s.after q).Admits x' := by
    rintro x' ⟨⟩
    exact hx
  have htext : b :: q ++ [x] ++ z = b :: (q ++ x :: z) := by simp
  have hdecode := decodeFrom_encode_nil c
  rw [← hz, htext, decodeFrom, h] at hdecode
  dsimp only at hdecode
  rw [decodeFrom_stuck hq hlength hstop] at hdecode
  exact decodeFrom_ne_nil (List.cons_ne_nil x z) (List.cons.inj hdecode).2

theorem brokenPart_of_stuck (hstop : ∀ x, rest.head? = some x → ¬(s.after q).Admits x) :
    BrokenPart (b :: q) rest where
  ne_nil := List.cons_ne_nil b q
  unreadable c hc := by
    -- A character within the part would begin one that completes the part.
    have hwithin : ¬String.utf8EncodeChar c <+: b :: q := by
      intro hp
      obtain ⟨c', e, he, hcomplete⟩ := exists_encode h hq (Nat.le_of_lt hlength)
      have heq := encode_eq_of_prefix (hp.trans (he ▸ List.prefix_append (b :: q) e))
      have hle := hp.length_le
      rw [heq, he, List.cons_append, List.length_cons, hcomplete, List.length_cons] at hle
      omega
    rcases List.prefix_or_prefix_of_prefix hc (List.prefix_append (b :: q) rest) with hp | ⟨t, ht⟩
    · exact hwithin hp
    · match t with
      | [] =>
        rw [List.append_nil] at ht
        exact hwithin (ht ▸ List.prefix_refl _)
      | x :: t =>
        rw [← ht, List.prefix_append_right_inj] at hc
        obtain ⟨t', rfl⟩ := hc
        refine not_beginsCharacter_of_stuck h hq hlength (hstop x rfl) ⟨c, ?_⟩
        rw [← ht]
        exact ⟨t, by simp⟩
  begins_or_single := by
    obtain ⟨c, e, he, -⟩ := exists_encode h hq (Nat.le_of_lt hlength)
    exact .inl ⟨c, he ▸ List.prefix_append (b :: q) e⟩
  longest x hx := not_beginsCharacter_of_stuck h hq hlength (hstop x hx)

end

/-- First stand the octets of a character, or a part that is read as a replacement character. -/
theorem readable_or_broken (b : UInt8) (r : Octets) :
    (∃ c rest, b :: r = String.utf8EncodeChar c ++ rest) ∨
      ∃ p rest, b :: r = p ++ rest ∧ BrokenPart p rest ∧
        decodeFrom none (b :: r) = replacement :: decodeFrom none rest := by
  cases h : lead b with
  | single c => exact .inl ⟨c, r, by rw [encode_of_single h]; rfl⟩
  | invalid => exact .inr ⟨[b], r, rfl, brokenPart_of_invalid h r, by rw [decodeFrom, h]⟩
  | begun s =>
    obtain ⟨q, rest, rfl, hq, hlength, hend⟩ := s.exists_split r
    rcases Nat.eq_or_lt_of_le hlength with hcomplete | hshort
    · have hchar := encode_of_announced (announced_of_lead h) hq hcomplete
      exact .inl ⟨Char.ofNat (s.after q).value, rest, by rw [hchar]; rfl⟩
    · have hstop := hend.resolve_left (Nat.ne_of_lt hshort)
      refine .inr ⟨b :: q, rest, rfl, brokenPart_of_stuck h hq hshort hstop, ?_⟩
      rw [decodeFrom, h]
      exact decodeFrom_stuck hq hshort hstop

/-! ### What octets are read as -/

/-- Where a part is broken, it is so in one way only. -/
theorem BrokenPart.unique (h : BrokenPart p rest) (h' : BrokenPart q rest')
    (heq : p ++ rest = q ++ rest') : p = q := by
  have hshorter : ∀ {p rest q rest' : Octets}, BrokenPart p rest → BrokenPart q rest' →
      p ++ rest = q ++ rest' → p <+: q → p = q := by
    rintro p rest q rest' h h' heq ⟨e, rfl⟩
    match e with
    | [] => exact (List.append_nil p).symm
    | x :: e =>
      rw [List.append_assoc] at heq
      obtain rfl := List.append_cancel_left heq
      have hone : p ++ [x] <+: p ++ x :: e := ⟨e, by simp⟩
      rcases h'.begins_or_single with hbegins | hsingle
      · exact absurd (hbegins.of_prefix hone) (h.longest x rfl)
      · have hpos := List.length_pos_iff.2 h.ne_nil
        rw [List.length_append, List.length_cons] at hsingle
        omega
  rcases List.prefix_or_prefix_of_prefix (heq ▸ List.prefix_append p rest)
    (List.prefix_append q rest') with hp | hp
  · exact hshorter h h' heq hp
  · exact (hshorter h' h heq.symm hp).symm

theorem readsAs_decode (r : Octets) : ReadsAs r (decode r) := by
  generalize hn : r.length = n
  induction n using Nat.strongRecOn generalizing r with
  | ind n ih =>
    match r with
    | [] => exact .nothing
    | b :: r =>
      rcases readable_or_broken b r with ⟨c, rest, heq⟩ | ⟨p, rest, heq, hbroken, hdecode⟩
      · have hshorter : rest.length < n := by
          have hpos := c.utf8Size_pos
          rw [heq, List.length_append, String.length_utf8EncodeChar] at hn
          omega
        rw [heq, decode, decodeFrom_encode]
        exact .character c (ih _ hshorter rest rfl)
      · have hshorter : rest.length < n := by
          have hpos := List.length_pos_iff.2 hbroken.ne_nil
          rw [heq, List.length_append] at hn
          omega
        rw [decode, hdecode, heq]
        exact .broken hbroken (ih _ hshorter rest rfl)

/-- Octets are read in one way. -/
theorem readsAs_iff {r : Octets} {cs : List Char} : ReadsAs r cs ↔ cs = decode r := by
  refine ⟨fun h => ?_, fun h => h ▸ readsAs_decode r⟩
  induction h with
  | nothing => rfl
  | character c _ ih => rw [decode, decodeFrom_encode, ih, decode]
  | @broken p rest cs hbroken _ ih =>
    obtain ⟨b, p', rfl⟩ := List.exists_cons_of_ne_nil hbroken.ne_nil
    rw [List.cons_append]
    rcases readable_or_broken b (p' ++ rest) with ⟨c, z, heq⟩ | ⟨q, z, heq, hbroken', hdecode⟩
    · exact absurd ⟨z, heq.symm⟩ (hbroken.unreadable c)
    · obtain rfl := hbroken.unique hbroken' heq
      rw [← List.cons_append] at heq
      obtain rfl := List.append_cancel_left heq
      rw [decode, hdecode, ih, decode]

end Headend.Text
