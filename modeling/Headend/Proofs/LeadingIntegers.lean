import Headend.Proofs.ExpressionGrammar
import Headend.Proofs.LineEffects
import Mathlib.Algebra.Ring.Int.Defs

/-!
# What is read as an integer

An integer stands at the front of a text: blanks, one sign at most, and a run of digits that goes on
as long as it can. It is read as its number, with the magnitude bounded once; every other text is
zero. In words of 64 bits no step overflows: both steps of a digit stop at the greatest word, and the
negation of the greatest word is a word too.

Facts: `leadingInteger_text` (what is at the front), `leadingInteger_of_not_text` (what is not),
`appendDigit?_eq_some` and `foldlM_appendDigit?` (one digit and all digits in words),
`inWords?_eq_some`, `Reader.run_uint` (numbers of 32 bits), `readsInteger`.
-/

namespace Headend.Number

/-! ### Integers at the front of a text -/

/-- What may stand between blanks and digits. -/
inductive Sign where
  | absent | plus | minus
deriving DecidableEq

namespace Sign

/-- The characters of a sign. -/
def chars : Sign → List Char
  | absent => []
  | plus => ['+']
  | minus => ['-']

/-- What a sign makes of a magnitude. -/
def apply : Sign → Nat → Int
  | minus, m => -m
  | _, m => m

end Sign

/-- An integer at the front of a text, and what follows it. -/
structure Front where
  blanks : List Char
  sign : Sign
  digits : List Char
  rest : List Char
  blank : ∀ c ∈ blanks, isSpace c = true
  some_digit : digits ≠ []
  digit : ∀ c ∈ digits, c.isDigit = true
  stops : ∀ c, rest.head? = some c → c.isDigit = false

/-- A digit is no sign. -/
theorem splitSign_of_isDigit {c : Char} {r : List Char} (hc : c.isDigit = true) :
    splitSign (c :: r) = (false, c :: r) := by
  unfold splitSign
  split
  · rename_i h
    cases h
    exact absurd hc (by decide)
  · rename_i h
    cases h
    exact absurd hc (by decide)
  · rfl

namespace Front

/-- The whole text. -/
def text (f : Front) : List Char := f.blanks ++ (f.sign.chars ++ (f.digits ++ f.rest))

/-- The number that the digits stand for. -/
def magnitude (f : Front) : Nat := Nat.ofDigitChars 10 f.digits 0

/-- The integer without a bound. -/
def exact (f : Front) : Int := f.sign.apply f.magnitude

variable (f : Front)

theorem dropWhile_text : f.text.dropWhile isSpace = f.sign.chars ++ (f.digits ++ f.rest) := by
  refine Config.PortExpression.dropWhile_append_of_stop f.blank fun c hc => ?_
  cases hs : f.sign with
  | plus | minus =>
    rw [hs] at hc
    cases hc
    decide
  | absent =>
    rw [hs, Sign.chars, List.nil_append, List.head?_append_of_ne_nil _ f.some_digit] at hc
    exact not_isSpace_of_isDigit (f.digit c (List.mem_of_head? hc))

theorem splitSign_chars :
    splitSign (f.sign.chars ++ (f.digits ++ f.rest)) = (f.sign == .minus, f.digits ++ f.rest) := by
  cases f.sign with
  | plus | minus => rfl
  | absent =>
    obtain ⟨c, r, hcr⟩ := List.exists_cons_of_ne_nil f.some_digit
    have hc : c.isDigit = true := f.digit c (hcr ▸ List.mem_cons_self)
    rw [Sign.chars, List.nil_append, hcr, List.cons_append, splitSign_of_isDigit hc]
    rfl

theorem takeWhile_digits : (f.digits ++ f.rest).takeWhile Char.isDigit = f.digits :=
  Config.PortExpression.takeWhile_append_of_stop f.digit f.stops

theorem magnitude_digits : Number.magnitude f.digits = min largest f.magnitude := by
  rw [magnitude_eq_min, natural_eq_ofDigitChars, Front.magnitude]

end Front

/-- The integer at the front is read, with the magnitude bounded. -/
theorem leadingInteger_text {s : String} {f : Front} (hs : s.toList = f.text) :
    leadingInteger s = f.sign.apply (min largest f.magnitude) := by
  rw [leadingInteger, hs, f.dropWhile_text, f.splitSign_chars]
  dsimp only
  rw [f.takeWhile_digits, f.magnitude_digits]
  cases f.sign <;> rfl

example : leadingInteger "\t-99999999999999999999x" = -9223372036854775807 := by decide +kernel

theorem splitSign_eq (cs : List Char) :
    ∃ sign : Sign, cs = sign.chars ++ (splitSign cs).2 := by
  unfold splitSign
  split
  · exact ⟨.minus, rfl⟩
  · exact ⟨.plus, rfl⟩
  · exact ⟨.absent, rfl⟩

/-- Where no digits come after blanks and a sign, nothing is read. -/
theorem leadingInteger_of_not_text {s : String} (hs : ∀ f : Front, s.toList ≠ f.text) :
    leadingInteger s = 0 := by
  obtain ⟨sign, hsign⟩ := splitSign_eq (s.toList.dropWhile isSpace)
  generalize hr : (splitSign (s.toList.dropWhile isSpace)).2 = r at hsign
  have hdigits : r.takeWhile Char.isDigit = [] := by
    by_contra hne
    refine hs ⟨s.toList.takeWhile isSpace, sign, r.takeWhile Char.isDigit,
      r.dropWhile Char.isDigit, fun c hc => List.mem_takeWhile_imp hc, hne,
      fun c hc => List.mem_takeWhile_imp hc, fun c hc => ?_⟩ ?_
    · have hstop := List.head?_dropWhile_not Char.isDigit r
      rw [hc] at hstop
      simpa using hstop
    · rw [Front.text, List.takeWhile_append_dropWhile, ← hsign, List.takeWhile_append_dropWhile]
  rw [leadingInteger]
  dsimp only
  rw [hr, hdigits]
  split <;> rfl

theorem leadingInteger_bounds (s : String) :
    -(largest : Int) ≤ leadingInteger s ∧ leadingInteger s ≤ largest := by
  have hle := magnitude_le ((splitSign (s.toList.dropWhile isSpace)).2.takeWhile Char.isDigit)
  rw [leadingInteger]
  dsimp only
  split <;> omega

/-! ### Words of 64 bits -/

/-- The word of an integer, unless it overflows. -/
def checkedWord? (n : Int) : Option Int64 :=
  if least ≤ n ∧ n ≤ largest then some (Int64.ofInt n) else none

/-- The word nearest to an integer. -/
def nearestWord (n : Int) : Int64 := Int64.ofInt (max least (min largest n))

/-- A word with one more digit; the value of the digit is a difference of octets, which fails if it
falls below zero. -/
def appendDigit? (w : Int64) (c : Char) : Option Int64 :=
  if '0'.toNat ≤ c.toNat then
    some (nearestWord ((nearestWord (w.toInt * 10)).toInt + digitValue c))
  else none

/-- What a sign makes of a word, unless the negation overflows. -/
def Sign.apply? : Sign → Int64 → Option Int64
  | minus, w => checkedWord? (-w.toInt)
  | _, w => some w

/-- The integer at the front in words, unless a step overflows. -/
def Front.inWords? (f : Front) : Option Int64 := do
  let w ← f.digits.foldlM appendDigit? 0
  f.sign.apply? w

theorem toInt_ofInt {n : Int} (hleast : least ≤ n) (hlargest : n ≤ largest) :
    (Int64.ofInt n).toInt = n := by
  unfold least at hleast
  unfold largest at hlargest
  exact Int64.toInt_ofInt_of_le (by omega) (by omega)

theorem toInt_nearestWord (n : Int) : (nearestWord n).toInt = max least (min largest n) := by
  have hbounds : least ≤ largest := by decide
  exact toInt_ofInt (by omega) (by omega)

/-- One digit: the word holds the magnitude before and after. -/
theorem appendDigit?_eq_some {w : Int64} {m : Nat} {c : Char} (hw : w.toInt = m)
    (hc : c.isDigit = true) :
    ∃ w', appendDigit? w c = some w' ∧ w'.toInt = appendDigit m c := by
  have hleast : least ≤ 0 := by decide
  refine ⟨_, if_pos (toNat_of_isDigit hc).1, ?_⟩
  rw [toInt_nearestWord, toInt_nearestWord, hw]
  unfold appendDigit
  omega

/-- All digits, one after the other. -/
theorem foldlM_appendDigit? {digits : List Char} (h : ∀ c ∈ digits, c.isDigit = true) {w : Int64}
    {m : Nat} (hw : w.toInt = m) :
    ∃ w', digits.foldlM appendDigit? w = some w' ∧ w'.toInt = digits.foldl appendDigit m := by
  induction digits generalizing w m with
  | nil => exact ⟨w, rfl, hw⟩
  | cons c r ih =>
    obtain ⟨w₁, hstep, hw₁⟩ := appendDigit?_eq_some hw (h c List.mem_cons_self)
    obtain ⟨w₂, hrest, hw₂⟩ := ih (fun d hd => h d (List.mem_cons_of_mem c hd)) hw₁
    refine ⟨w₂, ?_, hw₂⟩
    rw [List.foldlM_cons, hstep]
    exact hrest

/-- No step overflows, and the word is the integer that is read. -/
theorem inWords?_eq_some (f : Front) :
    ∃ w, f.inWords? = some w ∧ w.toInt = f.sign.apply (min largest f.magnitude) := by
  obtain ⟨w, hfold, hw⟩ := foldlM_appendDigit? f.digit (w := 0) (m := 0) rfl
  have hvalue : w.toInt = (min largest f.magnitude : Nat) := by
    rw [hw, ← f.magnitude_digits, magnitude]
  unfold Front.inWords?
  rw [hfold]
  cases hs : f.sign with
  | absent | plus => exact ⟨w, rfl, hvalue⟩
  | minus =>
    have hleast : least ≤ -w.toInt := by
      have : least ≤ -(largest : Int) := by decide
      omega
    have hlargest : -w.toInt ≤ largest := by omega
    refine ⟨Int64.ofInt (-w.toInt), if_pos ⟨hleast, hlargest⟩, ?_⟩
    rw [toInt_ofInt hleast hlargest, hvalue]
    rfl

end Headend.Number

namespace Headend.Config

open Headend.Number (Front largest leadingInteger leadingInteger_text leadingInteger_of_not_text
  leadingInteger_bounds inWords?_eq_some)

/-! ### Numbers of 32 bits -/

namespace Reader

theorem run_word {c left : Cursor} {raw : String} (hc : c.next = (some raw, left)) (site : Site) :
    word.run site c = .ok raw left := by
  rw [word, run_bind]
  unfold run next
  rw [hc]
  rfl

theorem run_uint {c left : Cursor} {raw : String} (hc : c.next = (some raw, left)) (site : Site) :
    uint.run site c =
      if 0 ≤ leadingInteger raw ∧ leadingInteger raw < 2 ^ 32 then
        .ok (UInt32.ofNat (leadingInteger raw).toNat) left
      else .error (.badValue site.keyword raw) left := by
  have hsize : ((UInt32.size : Nat) : Int) = 2 ^ 32 := rfl
  rw [uint, run_bind, run_word hc]
  dsimp only
  rw [below, hsize]
  by_cases hrange : 0 ≤ leadingInteger raw ∧ leadingInteger raw < 2 ^ 32
  · rw [if_pos hrange, if_pos hrange]
    rfl
  · rw [if_neg hrange, if_neg hrange]
    rfl

end Reader

/-- What is read of a token as a number of 32 bits. -/
structure ReadsUint (site : Site) (c left : Cursor) (raw : String) : Prop where
  /-- An integer within the range is the number. -/
  accepted : ∀ f : Front, raw.toList = f.text → 0 ≤ f.exact → f.exact ≤ 2 ^ 32 - 1 →
    ∃ v, Reader.uint.run site c = .ok v left ∧ (v.toNat : Int) = f.exact
  /-- Any other integer is refused. -/
  refused : ∀ f : Front, raw.toList = f.text → f.exact < 0 ∨ 2 ^ 32 - 1 < f.exact →
    Reader.uint.run site c = .error (.badValue site.keyword raw) left
  /-- A token without an integer is zero. -/
  other : (∀ f : Front, raw.toList ≠ f.text) → Reader.uint.run site c = .ok 0 left

/-- What is read of a text as an integer. -/
structure ReadsInteger (s : String) : Prop where
  /-- The integer at the front, with its magnitude bounded. -/
  front : ∀ f : Front, s.toList = f.text →
    leadingInteger s = f.sign.apply (min (2 ^ 63 - 1) f.magnitude)
  /-- Without an integer at the front, zero. -/
  other : (∀ f : Front, s.toList ≠ f.text) → leadingInteger s = 0
  /-- No step overflows in words of 64 bits. -/
  words : ∀ f : Front, s.toList = f.text → ∃ w, f.inWords? = some w ∧ w.toInt = leadingInteger s
  /-- The range of what is read. -/
  bounds : -(2 ^ 63 - 1) ≤ leadingInteger s ∧ leadingInteger s ≤ 2 ^ 63 - 1
  /-- The same text as a token that has to be a number of 32 bits. -/
  uint : ∀ site c left, c.next = (some s, left) → ReadsUint site c left s

/-- The bound does not reach into the range of 32 bits. -/
theorem leadingInteger_of_exact {s : String} {f : Front} (hs : s.toList = f.text) :
    (0 ≤ leadingInteger s ∧ leadingInteger s < 2 ^ 32 ↔ 0 ≤ f.exact ∧ f.exact ≤ 2 ^ 32 - 1) ∧
      (0 ≤ f.exact → f.exact ≤ 2 ^ 32 - 1 → leadingInteger s = f.exact) := by
  rw [leadingInteger_text hs, Front.exact]
  unfold largest
  cases f.sign <;> simp only [Number.Sign.apply] <;> omega

theorem readsUint {site : Site} {c left : Cursor} {raw : String} (hc : c.next = (some raw, left)) :
    ReadsUint site c left raw where
  accepted f hf hleast hgreatest := by
    obtain ⟨hrange, hvalue⟩ := leadingInteger_of_exact hf
    rw [Reader.run_uint hc, if_pos (hrange.2 ⟨hleast, hgreatest⟩), hvalue hleast hgreatest]
    refine ⟨_, rfl, ?_⟩
    have hlt : f.exact.toNat < UInt32.size := by
      have : UInt32.size = 2 ^ 32 := rfl
      omega
    rw [UInt32.toNat_ofNat_of_lt' hlt]
    omega
  refused f hf hout := by
    rw [Reader.run_uint hc, if_neg]
    rw [(leadingInteger_of_exact hf).1]
    omega
  other hnone := by
    rw [Reader.run_uint hc, leadingInteger_of_not_text hnone]
    rfl

theorem readsInteger (s : String) : ReadsInteger s where
  front f hf := leadingInteger_text hf
  other hnone := leadingInteger_of_not_text hnone
  words f hf := by
    rw [leadingInteger_text hf]
    exact inWords?_eq_some f
  bounds := leadingInteger_bounds s
  uint site c left hc := readsUint hc

end Headend.Config
