/-!
# Patterns

The search patterns with which a directive for the log may compare a field. Nothing is searched for
here; what matters is which texts are patterns.

A pattern is for text in UTF-8, and no tables of Unicode are at hand. So while Unicode is on, the
case of a character cannot be disregarded, and the shorthands for digits, blanks and words, the
borders of words and the properties of Unicode are not known. While Unicode is off, nothing may
match an octet that is no character by itself. A pattern may not be nested too deep either.

Facts: `check_group` (what a flag changes in a group ends with the group), `checkAll_append`
(a sequence is checked from left to right).
-/

namespace Headend

namespace LogPattern

/-- A character that stands for itself. -/
structure Literal where
  char : Char
  /-- Whether it is written as the number of an octet. -/
  isOctet : Bool := false
deriving DecidableEq

/-- The smallest pieces. -/
inductive Atom where
  | literal (l : Literal)
  /-- Any character. -/
  | dot
  /-- An end of a line or of the text. -/
  | anchor
  /-- A border of a word, or a place that is none. -/
  | border
  /-- A digit, a blank or a character of a word, or one that is not. -/
  | shorthand (negated : Bool)
  /-- A character with a property of Unicode. -/
  | property
deriving DecidableEq

/-- What stands in a class of characters. -/
inductive CharSet where
  | empty
  | atom (a : Atom)
  | range (low high : Literal)
  /-- A class of ASCII with a name. -/
  | named (negated : Bool)
  | bracketed (negated : Bool) (s : CharSet)
  | union (ss : List CharSet)
  /-- What is in both classes, in one of them only, or in the first and not in the second. -/
  | operation (a b : CharSet)

/-- The flags that are turned on and off. -/
structure FlagChange where
  on : List Char := []
  off : List Char := []
deriving DecidableEq

/-- What a change makes of a flag, if it names it. -/
def FlagChange.state (f : FlagChange) (flag : Char) : Option Bool :=
  if f.on.contains flag then some true
  else if f.off.contains flag then some false
  else none

end LogPattern

open LogPattern

/-- A pattern. -/
inductive LogPattern where
  | empty
  | flags (f : FlagChange)
  | atom (a : Atom)
  | set (s : CharSet)
  | repetition (p : LogPattern)
  | group (f : FlagChange) (p : LogPattern)
  | alternation (ps : List LogPattern)
  | concatenation (ps : List LogPattern)

namespace LogPattern

/-! ### Depth -/

mutual

/-- How deep a class is nested. -/
def CharSet.depth : CharSet → Nat
  | .empty | .atom _ | .range .. | .named _ => 0
  | .bracketed _ s => s.depth + 1
  | .union ss => CharSet.depths ss + 1
  | .operation a b => max a.depth b.depth + 1

/-- The depth of the deepest of several classes. -/
def CharSet.depths : List CharSet → Nat
  | [] => 0
  | s :: r => max s.depth (CharSet.depths r)

end

mutual

/-- How deep a pattern is nested. -/
def depth : LogPattern → Nat
  | .empty | .flags _ | .atom _ => 0
  | .set s => s.depth
  | .repetition p | .group _ p => depth p + 1
  | .alternation ps | .concatenation ps => depths ps + 1

/-- The depth of the deepest of several patterns. -/
def depths : List LogPattern → Nat
  | [] => 0
  | p :: r => max (depth p) (depths r)

end

/-- How deep a pattern may be nested. -/
def deepest : Nat := 250

/-! ### What is known -/

/-- The flags that decide what a piece may be. -/
structure Mode where
  ignoreCase : Bool := false
  unicode : Bool := true
deriving DecidableEq

namespace Mode

/-- The mode after a change of flags. -/
def change (m : Mode) (f : FlagChange) : Mode :=
  { ignoreCase := (f.state 'i').getD m.ignoreCase, unicode := (f.state 'u').getD m.unicode }

/-- Whether a piece may stand in a pattern. -/
def allows (m : Mode) : Atom → Bool
  | .literal l => if m.unicode then !m.ignoreCase else !(l.isOctet && 0x7f < l.char.toNat)
  | .dot => m.unicode
  | .anchor => true
  | .border => !m.unicode
  | .shorthand negated => !m.unicode && !negated
  | .property => false

/-- Whether a character may stand in a class. -/
def allowsMember (m : Mode) (l : Literal) : Bool :=
  if m.unicode then !m.ignoreCase else l.char.toNat ≤ 0x7f

mutual

/-- Whether all that stands in a class may stand there. The complement of a class has octets that
are no characters. -/
def allowsSet (m : Mode) : CharSet → Bool
  | .empty => true
  | .atom (.literal l) => m.allowsMember l
  | .atom a => m.allows a
  | .range low high => m.allowsMember low && m.allowsMember high
  | .named negated => if m.unicode then !m.ignoreCase else !negated
  | .bracketed negated s => (m.unicode || !negated) && allowsSet m s
  | .union ss => allowsSets m ss
  | .operation a b => allowsSet m a && allowsSet m b

/-- Whether all of several classes may stand in a class. -/
def allowsSets (m : Mode) : List CharSet → Bool
  | [] => true
  | s :: r => allowsSet m s && allowsSets m r

end

end Mode

mutual

/-- The mode after a pattern, if all its pieces may stand where they do. -/
def check : LogPattern → Mode → Option Mode
  | .empty, m => some m
  | .flags f, m => some (m.change f)
  | .atom a, m => if m.allows a then some m else none
  | .set s, m => if m.allowsSet s then some m else none
  | .repetition p, m => check p m
  | .group f p, m => (check p (m.change f)).map fun _ => m
  | .alternation ps, m | .concatenation ps, m => checkAll ps m

/-- The mode after several patterns, one after the other. -/
def checkAll : List LogPattern → Mode → Option Mode
  | [], m => some m
  | p :: r, m => (check p m).bind (checkAll r)

end

/-- Whether a pattern can be used. -/
def isUsable (p : LogPattern) : Bool := p.depth ≤ deepest && (p.check {}).isSome

theorem check_group {f : FlagChange} {p : LogPattern} {m m' : Mode}
    (h : (group f p).check m = some m') : m' = m := by
  rw [check, Option.map_eq_some_iff] at h
  obtain ⟨_, _, h⟩ := h
  exact h.symm

theorem checkAll_append (ps qs : List LogPattern) (m : Mode) :
    checkAll (ps ++ qs) m = (checkAll ps m).bind (checkAll qs) := by
  induction ps generalizing m with
  | nil => rfl
  | cons p r ih =>
    rw [List.cons_append, checkAll, checkAll]
    cases check p m with
    | none => rfl
    | some m => exact ih m

end LogPattern

end Headend
