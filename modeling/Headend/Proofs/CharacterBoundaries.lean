import Headend.Proofs.Encoding

/-!
# Boundaries between characters

A place in the octets of a text is a boundary if an initial part of the text ends there. The octets
show it: no character begins with an octet that continues a sequence. So the search downwards for a
boundary, from any place within a text, ends at the longest initial part that does not reach beyond
that place.

Facts: `utf8EncodeChar_eq_cons` (the octets of a character), `isBoundary_iff` (what a boundary is),
`LongestPrefix.takeSize`, `LongestPrefix.boundaryBelow` (what the search finds).
-/

namespace Headend.Text

/-- Whether an octet continues a sequence. -/
def Continues (b : UInt8) : Prop := 0x80 ≤ b ∧ b < 0xc0

/-- Whether a place stands at the front, at the end, or before an octet that continues nothing. -/
def IsBoundary (bs : Octets) (n : Nat) : Prop :=
  n = 0 ∨ n = bs.length ∨ ∃ b, bs[n]? = some b ∧ ¬Continues b

instance (b : UInt8) : Decidable (Continues b) := inferInstanceAs (Decidable (_ ∧ _))

instance (bs : Octets) (n : Nat) : Decidable (IsBoundary bs n) :=
  inferInstanceAs (Decidable (n = 0 ∨ n = bs.length ∨ ∃ b, bs[n]? = some b ∧ ¬Continues b))

/-- The search downwards for a boundary, unless it leaves the octets. -/
def boundaryBelow (bs : Octets) : Nat → Option Nat
  | 0 => if IsBoundary bs 0 then some 0 else none
  | n + 1 => if IsBoundary bs (n + 1) then some (n + 1) else boundaryBelow bs n

/-- The longest initial part of a text that takes at most so many octets. -/
structure LongestPrefix (budget : Nat) (p cs : List Char) : Prop where
  initial : p <+: cs
  fits : size p ≤ budget
  longest : ∀ q, q <+: cs → size q ≤ budget → q <+: p

variable {budget n : Nat} {p q cs : List Char} {bs : Octets}

/-! ### Initial parts of a text -/

theorem size_le_of_initial (h : p <+: cs) : size p ≤ size cs := by
  obtain ⟨t, rfl⟩ := h
  rw [size_append]
  exact Nat.le_add_right ..

theorem LongestPrefix.takeSize (budget : Nat) (cs : List Char) :
    LongestPrefix budget (takeSize budget cs) cs where
  initial := ⟨_, takeSize_append_drop budget cs⟩
  fits := size_takeSize budget cs
  longest := by
    intro q hq hfits
    induction cs generalizing budget q with
    | nil => exact hq
    | cons c cs ih =>
      match q with
      | [] => exact List.nil_prefix
      | c' :: q =>
        obtain ⟨rfl, hq'⟩ := List.cons_prefix_cons.1 hq
        rw [size_cons] at hfits
        rw [Text.takeSize, if_pos (by omega), List.cons_prefix_cons]
        exact ⟨rfl, ih (budget - c'.utf8Size) q hq' (by omega)⟩

theorem LongestPrefix.unique (h : LongestPrefix budget p cs) (h' : LongestPrefix budget q cs) :
    p = q := by
  have hp : p <+: q := h'.longest p h.initial h.fits
  have hq : q <+: p := h.longest q h'.initial h'.fits
  exact hp.eq_of_length (Nat.le_antisymm hp.length_le hq.length_le)

theorem length_octets (l : String) : (octets l).length = size l.toList := by
  rw [octets_eq_flatMap]
  induction l.toList with
  | nil => rfl
  | cons c cs ih =>
    rw [List.flatMap_cons, List.length_append, String.length_utf8EncodeChar, ih, size_cons]

/-- The octets of an initial part are the first octets of the text. -/
theorem octets_of_prefix {l l' : String} (h : l.toList <+: l'.toList) :
    octets l = (octets l').take (octets l).length := by
  obtain ⟨t, ht⟩ := h
  rw [octets_eq_flatMap l', ← ht, List.flatMap_append, ← octets_eq_flatMap, List.take_left]

/-! ### Boundaries -/

/-- The octets of a character: one that begins a sequence, and others that continue it. -/
theorem utf8EncodeChar_eq_cons (c : Char) :
    ∃ b q, String.utf8EncodeChar c = b :: q ∧ ¬Continues b ∧ ∀ x ∈ q, Continues x := by
  have hbegins : ∀ n, n < 0x80 ∨ 0xc0 ≤ n → n < 0x100 → ¬Continues (UInt8.ofNat n) := by
    intro n hn hlt
    rw [Continues, UInt8.le_iff_toNat_le, UInt8.lt_iff_toNat_lt, UInt8.toNat_ofNat_of_lt' hlt]
    show ¬(0x80 ≤ n ∧ n < 0xc0)
    omega
  have hcontinues : ∀ n, n < 0x40 → Continues (UInt8.ofNat (n + 0x80)) := by
    intro n hn
    have hlt : n + 0x80 < 0x100 := by omega
    rw [Continues, UInt8.le_iff_toNat_le, UInt8.lt_iff_toNat_lt, UInt8.toNat_ofNat_of_lt' hlt]
    exact ⟨Nat.le_add_left .., Nat.add_lt_add_right hn 0x80⟩
  have hvalid := toNat_isValid c
  unfold String.utf8EncodeChar
  generalize c.val.toNat = v at hvalid
  dsimp only
  have hlast : v % 64 < 0x40 := Nat.mod_lt v (by decide)
  have hbefore : v / 64 % 64 < 0x40 := Nat.mod_lt _ (by decide)
  have hfirst : v / 4096 % 64 < 0x40 := Nat.mod_lt _ (by decide)
  split_ifs
  · exact ⟨_, [], rfl, hbegins _ (by omega) (by omega), List.forall_mem_nil _⟩
  · refine ⟨_, [_], rfl, hbegins _ (by omega) (by omega), ?_⟩
    exact List.forall_mem_singleton.2 (hcontinues _ hlast)
  · refine ⟨_, [_, _], rfl, hbegins _ (by omega) (by omega), ?_⟩
    simp only [List.forall_mem_cons]
    exact ⟨hcontinues _ hbefore, hcontinues _ hlast, List.forall_mem_nil _⟩
  · refine ⟨_, [_, _, _], rfl, hbegins _ (by omega) (by omega), ?_⟩
    simp only [List.forall_mem_cons]
    exact ⟨hcontinues _ hfirst, hcontinues _ hbefore, hcontinues _ hlast, List.forall_mem_nil _⟩

/-- Behind a character the boundaries are those of what follows, and within it there are none. -/
theorem isBoundary_cons (c : Char) (cs : List Char) (n : Nat) :
    IsBoundary ((c :: cs).flatMap String.utf8EncodeChar) n ↔
      n = 0 ∨ c.utf8Size ≤ n ∧ IsBoundary (cs.flatMap String.utf8EncodeChar) (n - c.utf8Size) := by
  obtain ⟨b, q, henc, -, hq⟩ := utf8EncodeChar_eq_cons c
  have hlength : (String.utf8EncodeChar c).length = c.utf8Size := String.length_utf8EncodeChar c
  have hpos := c.utf8Size_pos
  rw [List.flatMap_cons]
  generalize htail : cs.flatMap String.utf8EncodeChar = bs
  -- What follows begins with no octet that continues a sequence.
  have hfirst : IsBoundary (String.utf8EncodeChar c ++ bs) c.utf8Size := by
    match cs with
    | [] =>
      subst htail
      exact .inr (.inl (by rw [List.flatMap_nil, List.append_nil, hlength]))
    | c' :: cs =>
      obtain ⟨b', q', henc', hb', -⟩ := utf8EncodeChar_eq_cons c'
      refine .inr (.inr ⟨b', ?_, hb'⟩)
      rw [← hlength, List.getElem?_append_right (Nat.le_refl _), Nat.sub_self, ← htail,
        List.flatMap_cons, henc']
      rfl
  rcases Nat.lt_or_ge n c.utf8Size with hlt | hge
  · constructor
    · rintro (hzero | hend | ⟨x, hx, hnot⟩)
      · exact .inl hzero
      · rw [List.length_append, hlength] at hend
        omega
      · match n with
        | 0 => exact .inl rfl
        | n + 1 =>
          rw [List.getElem?_append_left (hlength ▸ hlt), henc, List.getElem?_cons_succ] at hx
          exact absurd (hq x (List.mem_of_getElem? hx)) hnot
    · rintro (hzero | ⟨hle, -⟩)
      · exact .inl hzero
      · omega
  · obtain ⟨m, rfl⟩ := Nat.exists_eq_add_of_le hge
    have hbehind : (String.utf8EncodeChar c ++ bs)[c.utf8Size + m]? = bs[m]? := by
      rw [List.getElem?_append_right (hlength ▸ hge), hlength, Nat.add_sub_cancel_left]
    have hend : c.utf8Size + m = (String.utf8EncodeChar c ++ bs).length ↔ m = bs.length := by
      rw [List.length_append, hlength, Nat.add_left_cancel_iff]
    rw [Nat.add_sub_cancel_left]
    constructor
    · rintro (hzero | h)
      · omega
      · rw [hend, hbehind] at h
        exact .inr ⟨hge, .inr h⟩
    · rintro (hzero | ⟨-, rfl | h⟩)
      · omega
      · exact hfirst
      · rw [← hend, ← hbehind] at h
        exact .inr h

/-- Boundaries are where initial parts of the text end. -/
theorem isBoundary_iff {l : String} :
    IsBoundary (octets l) n ↔ ∃ p, p <+: l.toList ∧ size p = n := by
  rw [octets_eq_flatMap]
  induction l.toList generalizing n with
  | nil =>
    constructor
    · rintro (rfl | rfl | ⟨b, hb, -⟩)
      · exact ⟨[], List.nil_prefix, rfl⟩
      · exact ⟨[], List.nil_prefix, rfl⟩
      · cases hb
    · rintro ⟨p, hp, rfl⟩
      rw [List.prefix_nil.1 hp]
      exact .inl rfl
  | cons c cs ih =>
    rw [isBoundary_cons, ih]
    constructor
    · rintro (rfl | ⟨hle, p, hp, hsize⟩)
      · exact ⟨[], List.nil_prefix, rfl⟩
      · refine ⟨c :: p, List.cons_prefix_cons.2 ⟨rfl, hp⟩, ?_⟩
        rw [size_cons, hsize, Nat.add_sub_of_le hle]
    · rintro ⟨p, hp, rfl⟩
      match p with
      | [] => exact .inl rfl
      | c' :: p =>
        obtain ⟨rfl, hp'⟩ := List.cons_prefix_cons.1 hp
        rw [size_cons, Nat.add_sub_cancel_left]
        exact .inr ⟨Nat.le_add_right .., p, hp', rfl⟩

/-! ### The search -/

theorem boundaryBelow_eq {m : Nat} (hm : IsBoundary bs m) (hle : m ≤ n)
    (hnone : ∀ k, m < k → k ≤ n → ¬IsBoundary bs k) : boundaryBelow bs n = some m := by
  induction n with
  | zero =>
    obtain rfl := Nat.le_zero.1 hle
    rw [boundaryBelow, if_pos hm]
  | succ n ih =>
    rw [boundaryBelow]
    rcases Nat.eq_or_lt_of_le hle with rfl | hlt
    · rw [if_pos hm]
    · rw [if_neg (hnone _ hlt (Nat.le_refl _))]
      exact ih (Nat.le_of_lt_succ hlt) fun k hk hkn => hnone k hk (Nat.le_succ_of_le hkn)

/-- The search ends where the longest initial part does that does not reach beyond its start. -/
theorem LongestPrefix.boundaryBelow {l : String} (h : LongestPrefix n p l.toList) :
    boundaryBelow (octets l) n = some (size p) := by
  refine boundaryBelow_eq (isBoundary_iff.2 ⟨p, h.initial, rfl⟩) h.fits fun k hk hkn hboundary => ?_
  obtain ⟨q, hq, rfl⟩ := isBoundary_iff.1 hboundary
  exact absurd (size_le_of_initial (h.longest q hq hkn)) (Nat.not_le.2 hk)

example : boundaryBelow (octets "a€b") 3 = some 1 := by decide

end Headend.Text
