/-!
# Blank characters

The characters with the Unicode property `White_Space`, and the two operations on text that
depend on them: trimming both ends and removing every blank.

Facts: what is left of a text starts with no blank (`head?_dropWhile_isBlank`) and ends with none
(`getLast?_trim`).
-/

namespace Headend.Text

/-- The characters with the Unicode property `White_Space`, in code point order. -/
def blanks : List Char :=
  ['\t', '\n', '\x0b', '\x0c', '\r', ' ', '\u0085', '\u00a0', '\u1680', '\u2000', '\u2001',
   '\u2002', '\u2003', '\u2004', '\u2005', '\u2006', '\u2007', '\u2008', '\u2009', '\u200a',
   '\u2028', '\u2029', '\u202f', '\u205f', '\u3000']

/-- Whether a character is blank. -/
def isBlank (c : Char) : Bool := blanks.contains c

/-- The text without the blanks at its end. -/
def trimEnd (cs : List Char) : List Char := (cs.reverse.dropWhile isBlank).reverse

/-- The text without the blanks at its two ends. -/
def trim (cs : List Char) : List Char := trimEnd (cs.dropWhile isBlank)

/-- The text without any blank. -/
def dropBlanks (cs : List Char) : List Char := cs.filter fun c => !isBlank c

/-! ### What trimming leaves -/

theorem isBlank_of_isWhitespace {c : Char} (h : c.isWhitespace = true) : isBlank c = true := by
  simp only [Char.isWhitespace, Bool.or_eq_true, decide_eq_true_eq] at h
  rcases h with ((h | h) | h) | h <;> subst h <;> decide

theorem head?_dropWhile_isBlank (cs : List Char) {c : Char}
    (h : (cs.dropWhile isBlank).head? = some c) : isBlank c = false := by
  induction cs with
  | nil => simp at h
  | cons d r ih =>
    by_cases hd : isBlank d = true
    · rw [List.dropWhile_cons_of_pos hd] at h; exact ih h
    · rw [List.dropWhile_cons_of_neg hd] at h
      simp only [List.head?_cons, Option.some.injEq] at h
      subst h; simpa using hd

theorem getLast?_trimEnd (cs : List Char) {c : Char}
    (h : (trimEnd cs).getLast? = some c) : isBlank c = false := by
  rw [trimEnd, List.getLast?_reverse] at h
  exact head?_dropWhile_isBlank _ h

theorem getLast?_trim (cs : List Char) {c : Char}
    (h : (trim cs).getLast? = some c) : isBlank c = false :=
  getLast?_trimEnd _ h

end Headend.Text
