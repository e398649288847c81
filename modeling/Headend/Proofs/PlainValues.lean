import Headend.Proofs.AddedLines
import Headend.Proofs.Decimals
import Headend.Proofs.Replacement
import Headend.Proofs.Spacing

/-!
# Lines with a plain value

A value of letters, digits and dashes is one token whatever stands around it, so the line that gives
it to a keyword is a line of its own, and it sets the parameter of the keyword to what is read of
the value. A number of 32 bits is read back from its decimal form, and so is any integer whose
magnitude 64 bits with sign can hold.

Facts: `isLine_assignment`, `dispatch_set` (what such a line does), `int_toString` and
`uint_toString` (numbers that are read back), `named_of_isPlain`.
-/

namespace Headend.Config

open Headend.Number (largest least leadingInteger leadingInteger_toString)

/-! ### Plain values -/

/-- A character of a name or of a number. -/
def isPlain (c : Char) : Bool := c.isAlphanum || c == '-'

/-- A value that is one token whatever stands around it. -/
structure IsPlain (v : String) : Prop where
  ne_nil : v.toList ≠ []
  plain : ∀ c ∈ v.toList, isPlain c = true

variable {k v : String}

theorem ne_of_isPlain {c b : Char} (hc : isPlain c = true) (hb : isPlain b = false) : c ≠ b := by
  rintro rfl
  rw [hb] at hc
  cases hc

/-- A value of which every character is tested. -/
theorem isPlain_of_all (hne : v.toList ≠ []) (hall : v.toList.all isPlain = true) : IsPlain v :=
  ⟨hne, List.all_eq_true.1 hall⟩

theorem isBlank_of_isPlain {c : Char} (hc : isPlain c = true) : Text.isBlank c = false := by
  have hall : Text.blanks.all (fun b => !isPlain b) = true := by decide
  rw [Text.isBlank, List.contains_eq_mem, decide_eq_false_iff_not]
  intro hmem
  have hnot := List.all_eq_true.1 hall c hmem
  rw [hc] at hnot
  cases hnot

theorem isDelimiter_of_isPlain {c : Char} (hc : isPlain c = true) :
    Cursor.isDelimiter c = false := by
  simp [Cursor.isDelimiter, ne_of_isPlain hc (b := ' ') (by decide),
    ne_of_isPlain hc (b := '\t') (by decide), ne_of_isPlain hc (b := '=') (by decide)]

theorem IsPlain.isValue (hv : IsPlain v) : IsValue v where
  ne_nil := hv.ne_nil
  no_equals h := ne_of_isPlain (hv.plain _ h) (by decide) rfl
  first c hc := isBlank_of_isPlain (hv.plain c (List.mem_of_head? hc))
  last c hc := isBlank_of_isPlain (hv.plain c (List.mem_of_getLast? hc))

theorem isPlain_toString (n : Int) : IsPlain (toString n) := by
  refine ⟨TemplateValues.toString_toList_ne_nil n, fun c hc => ?_⟩
  have hdecimal := TemplateValues.isDecimal_of_mem_toString hc
  simp only [TemplateValues.isDecimal, Bool.or_eq_true] at hdecimal
  simp only [isPlain, Char.isAlphanum, Bool.or_eq_true]
  exact hdecimal.imp_left .inr

theorem word_of_isPlain (hv : IsPlain v) (site : Site) :
    Reader.word.run site ⟨v.toList⟩ = .ok v ⟨[]⟩ := by
  have hnext : Cursor.next ⟨v.toList⟩ = (some v, ⟨[]⟩) := by
    unfold Cursor.next
    simp only [Cursor.splitOff_of_forall hv.ne_nil
      fun c hc => isDelimiter_of_isPlain (hv.plain c hc), String.ofList_toList]
  unfold Reader.word
  rw [Reader.run_bind]
  unfold Reader.run Reader.next
  rw [hnext]
  rfl

/-! ### Lines with a plain value -/

/-- The line that gives a value to a keyword. -/
def assignment (k v : String) : String := k ++ " = " ++ v

theorem assignment_eq (k v : String) : assignment k v = k ++ " " ++ "=" ++ " " ++ v := by
  refine String.toList_inj.1 ?_
  simp [assignment]

theorem size_le_length (cs : List Char) : Text.size cs ≤ 4 * cs.length := by
  induction cs with
  | nil => exact Nat.le_refl 0
  | cons c r ih =>
    have hc : c.utf8Size ≤ 4 := c.utf8Size_le_four
    rw [Text.size_cons, List.length_cons]
    omega

/-- A keyword with a plain value stands on a line, if both are short. -/
theorem isLine_assignment (hk : '\n' ∉ k.toList) (hv : IsPlain v)
    (hlength : k.length + v.length ≤ 100) : IsLine (assignment k v) where
  ne_nil h := hv.ne_nil (List.append_eq_nil_iff.1 (String.toList_append ▸ h)).2
  no_feed hmem := by
    simp only [assignment, String.toList_append, List.mem_append] at hmem
    rcases hmem with (hmem | hmem) | hmem
    · exact hk hmem
    · exact absurd hmem (by decide)
    · exact ne_of_isPlain (hv.plain _ hmem) (by decide) rfl
  ends := by
    rw [assignment, String.toList_append]
    exact hv.isValue.stripEnds_append _
  size_le := by
    refine (size_le_length _).trans ?_
    simp only [assignment, String.toList_append, List.length_append, String.length_toList]
    have : " = ".length = 3 := rfl
    unfold maxLineSize
    omega

/-- A line sets what its plain value is read as. -/
theorem dispatch_set {α : Type} {p : Part} {read : Reader α} (put : α → p.Params → p.Params)
    {s : Section} {x : α}
    (howner : owner? Section.all k = some (s, .parameter p (Reader.set read put)))
    (htokens : read.Tokenwise) (hv : IsPlain v)
    (hread : ∀ site, read.run site ⟨v.toList⟩ = .ok x ⟨[]⟩) (d : Draft) :
    dispatch Section.all d (assignment k v) =
      ⟨.ok (.handled s), { d with store := d.store.setPart p (put x (d.store.part p)) }, []⟩ := by
  have hkeyword : k ∈ Section.keywords := by
    obtain ⟨hs, hdirective⟩ := owner?_eq_some howner
    exact List.mem_flatMap.2 ⟨s, hs, Section.mem_keys_iff.2 ⟨_, hdirective⟩⟩
  have hgap : IsGap " " := by simp [IsGap]
  have hline : directiveLine? (stripEnds (assignment k v).toList) =
      some (k, afterKeyword " " " " v) := by
    rw [assignment_eq]
    exact directiveLine?_of_assignment hkeyword hgap hv.isValue
  have hvalue : ∀ site, read.run site (afterKeyword " " " " v) = .ok x ⟨[]⟩ := fun site =>
    (htokens site _ _ (sameTokens_afterKeyword hgap hgap)).trans (hread site)
  have hchange : ∀ site, (Reader.set read put).run site (afterKeyword " " " " v) =
      .ok (fun a => (put x a, [])) ⟨[]⟩ := by
    intro site
    rw [Reader.set, Reader.run_bind, hvalue]
    rfl
  rw [dispatch_of_owner hline howner]
  simp only [Directive.apply, Directive.readChange, hchange, Directive.finish, List.append_nil]

/-! ### Values that are read back -/

theorem int_toString (n : Int) (site : Site) :
    Reader.int.run site ⟨(toString n).toList⟩ =
      .ok (max (-(largest : Int)) (min largest n)) ⟨[]⟩ := by
  rw [Reader.int, Reader.run_bind, word_of_isPlain (isPlain_toString n)]
  dsimp only
  rw [leadingInteger_toString]
  rfl

theorem uint_toString (n : UInt32) (site : Site) :
    Reader.uint.run site ⟨(toString n.toNat).toList⟩ = .ok n ⟨[]⟩ := by
  have htext : toString n.toNat = toString (n.toNat : Int) := rfl
  have hlt : n.toNat < UInt32.size := n.toNat_lt
  have hbelow : Reader.below UInt32.size (leadingInteger (toString (n.toNat : Int))) =
      some n.toNat := by
    have hsmall : UInt32.size ≤ largest := by decide
    have hvalue : max (-(largest : Int)) (min largest n.toNat) = n.toNat := by omega
    rw [leadingInteger_toString, hvalue, Reader.below, if_pos ⟨by omega, by omega⟩,
      Int.toNat_natCast]
  rw [htext, Reader.uint, Reader.run_bind, word_of_isPlain (isPlain_toString _)]
  dsimp only
  rw [hbelow, Option.map_some, UInt32.ofNat_toNat]
  rfl

theorem named_of_isPlain {α : Type} {ofName? : String → Option α} {x : α} (hv : IsPlain v)
    (hx : ofName? v = some x) (site : Site) :
    (Reader.named ofName?).run site ⟨v.toList⟩ = .ok x ⟨[]⟩ := by
  rw [Reader.named, Reader.run_bind, word_of_isPlain hv]
  dsimp only
  rw [hx]
  rfl

end Headend.Config
