import Headend.Text.Blank

/-!
# Tokens of a line

A line is read from left to right by a cursor. A token is a run of characters other than the
delimiters; the one delimiter that ends it is read with it. A whole value, in which blanks count,
reaches up to the next `=`.

Facts: what is taken stands in the line after what was skipped and before what is left
(`splitOff_append`), it is not empty and holds no delimiter (`splitOff_ne_nil`, `splitOff_clean`),
and each piece shortens the line (`length_splitOff_lt`).
-/

namespace Headend.Config

/-- What is left of a line to read. -/
structure Cursor where
  rest : List Char
deriving DecidableEq

namespace Cursor

/-- The cursor at the start of a line. -/
def ofLine (line : String) : Cursor := ⟨line.toList⟩

/-- Whether a character separates tokens. -/
def isDelimiter (c : Char) : Bool := c == ' ' || c == '\t' || c == '='

/-- Whether a character ends a whole value. -/
def isEquals (c : Char) : Bool := c == '='

/-- The first piece between delimiters, and what follows the delimiter that ends it. There is no
piece if only delimiters are left. -/
def splitOff (isEnd : Char → Bool) (cs : List Char) : Option (List Char × List Char) :=
  match cs.dropWhile isEnd with
  | [] => none
  | c :: r =>
    some ((c :: r).takeWhile fun d => !isEnd d, ((c :: r).dropWhile fun d => !isEnd d).tail)

/-- The next token. -/
def next (c : Cursor) : Option String × Cursor :=
  match splitOff isDelimiter c.rest with
  | some (token, rest) => (some (String.ofList token), ⟨rest⟩)
  | none => (none, ⟨[]⟩)

/-- The value up to the next `=`, without the blanks around it; there is none if nothing is left
of it. -/
def wholeValue (c : Cursor) : Option String × Cursor :=
  match splitOff isEquals c.rest with
  | some (piece, rest) =>
    let value := Text.trim piece
    (if value = [] then none else some (String.ofList value), ⟨rest⟩)
  | none => (none, ⟨[]⟩)

/-! ### Pieces of a line -/

theorem splitOff_eq_some_iff {isEnd : Char → Bool} {cs piece rest : List Char} :
    splitOff isEnd cs = some (piece, rest) ↔
      cs.dropWhile isEnd ≠ [] ∧ piece = (cs.dropWhile isEnd).takeWhile (fun d => !isEnd d) ∧
        rest = ((cs.dropWhile isEnd).dropWhile fun d => !isEnd d).tail := by
  unfold splitOff
  split
  · simp_all
  · rename_i h
    simp only [Option.some.injEq, Prod.mk.injEq, h]
    constructor
    · rintro ⟨rfl, rfl⟩; exact ⟨by simp, rfl, rfl⟩
    · rintro ⟨-, rfl, rfl⟩; exact ⟨rfl, rfl⟩

theorem dropWhile_isEnd_head {isEnd : Char → Bool} {cs : List Char} {c : Char} {r : List Char}
    (h : cs.dropWhile isEnd = c :: r) : isEnd c = false := by
  induction cs with
  | nil => simp at h
  | cons d t ih =>
    by_cases hd : isEnd d = true
    · rw [List.dropWhile_cons_of_pos hd] at h; exact ih h
    · rw [List.dropWhile_cons_of_neg hd] at h
      simp only [List.cons.injEq] at h
      rw [← h.1]; simpa using hd

theorem splitOff_ne_nil {isEnd : Char → Bool} {cs piece rest : List Char}
    (h : splitOff isEnd cs = some (piece, rest)) : piece ≠ [] := by
  obtain ⟨hne, rfl, -⟩ := splitOff_eq_some_iff.1 h
  match hd : cs.dropWhile isEnd with
  | [] => exact absurd hd hne
  | c :: r => simp [dropWhile_isEnd_head hd]

theorem splitOff_clean {isEnd : Char → Bool} {cs piece rest : List Char}
    (h : splitOff isEnd cs = some (piece, rest)) : ∀ c ∈ piece, isEnd c = false := by
  obtain ⟨-, rfl, -⟩ := splitOff_eq_some_iff.1 h
  intro c hc
  simpa using List.all_eq_true.1 List.all_takeWhile c hc

theorem splitOff_append {isEnd : Char → Bool} {cs piece rest : List Char}
    (h : splitOff isEnd cs = some (piece, rest)) :
    ∃ ending, ending.length ≤ 1 ∧ cs.takeWhile isEnd ++ piece ++ ending ++ rest = cs := by
  obtain ⟨-, rfl, rfl⟩ := splitOff_eq_some_iff.1 h
  refine ⟨((cs.dropWhile isEnd).dropWhile fun d => !isEnd d).take 1, List.length_take_le .., ?_⟩
  rw [List.append_assoc, ← List.drop_one, List.take_append_drop, List.append_assoc,
    List.takeWhile_append_dropWhile, List.takeWhile_append_dropWhile]

theorem length_splitOff_lt {isEnd : Char → Bool} {cs piece rest : List Char}
    (h : splitOff isEnd cs = some (piece, rest)) : rest.length < cs.length := by
  obtain ⟨ending, -, he⟩ := splitOff_append h
  have hp := List.length_pos_iff.2 (splitOff_ne_nil h)
  rw [← he]
  simp only [List.length_append]
  omega

/-- Reads the tokens that are left, where `rounds` is at least their number. -/
def tokensFrom : Nat → Cursor → List String
  | 0, _ => []
  | rounds + 1, c =>
    match c.next with
    | (some token, rest) => token :: tokensFrom rounds rest
    | (none, _) => []

/-- All tokens that are left. Each takes a character, so there are no more than characters. -/
def tokens (c : Cursor) : List String := tokensFrom c.rest.length c

end Cursor

end Headend.Config
