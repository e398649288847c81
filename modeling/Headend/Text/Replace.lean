/-!
# Replacing a token in a text

Occurrences of a token are found from left to right and do not overlap; what was put in is not
looked at again. An empty token occurs before every character and at the end.

Facts: `replace_of_absent` (a text without the token stays as it is).
-/

namespace Headend.Text

/-- Replaces the occurrences of a token that is not empty, having to skip some characters of an
occurrence first. -/
def replaceFrom (token value : List Char) : Nat → List Char → List Char
  | _, [] => []
  | 0, c :: r =>
    if token.isPrefixOf (c :: r) then value ++ replaceFrom token value (token.length - 1) r
    else c :: replaceFrom token value 0 r
  | skip + 1, _ :: r => replaceFrom token value skip r

/-- Puts a value before every character and at the end. -/
def interleave (value : List Char) : List Char → List Char
  | [] => value
  | c :: r => value ++ c :: interleave value r

/-- Replaces every occurrence of a token by a value. -/
def replace (template token value : List Char) : List Char :=
  if token = [] then interleave value template else replaceFrom token value 0 template

/-! ### When nothing is replaced -/

theorem replaceFrom_of_absent {token value cs : List Char} (h : ¬ token <:+: cs) :
    replaceFrom token value 0 cs = cs := by
  induction cs with
  | nil => rfl
  | cons c r ih =>
    have hp : token.isPrefixOf (c :: r) = false := by
      rw [Bool.eq_false_iff, ne_eq, List.isPrefixOf_iff_prefix]
      exact fun hp => h hp.isInfix
    rw [replaceFrom, hp]
    simp only [Bool.false_eq_true, ↓reduceIte, List.cons.injEq, true_and]
    exact ih fun hi => h (hi.trans (List.suffix_cons c r).isInfix)

theorem replace_of_absent {token value cs : List Char} (h : ¬ token <:+: cs) :
    replace cs token value = cs := by
  have ht : token ≠ [] := by rintro rfl; exact h ⟨[], cs, rfl⟩
  rw [replace, if_neg ht, replaceFrom_of_absent h]

end Headend.Text
