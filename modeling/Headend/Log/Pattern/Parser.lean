import Headend.Log.Pattern
import Headend.Number.Decimal
import Headend.Text.Alphanumeric
import Headend.Text.Blank

/-!
# The text of a pattern

How a pattern is read. Named properties, counted repetitions and numbers in braces need a closing
brace, which ends the field of a directive, so an opening brace outside of a class is always an
error. With a flag for it, blanks are passed over, and so is the rest of a line after a number sign.

Each step of a reader takes a character, so the length of a text bounds the steps; in a class an
opening bracket takes two steps.

Facts: `skipBlanks_cons` (what is no blank is kept), `ofChars?_nil` (the empty text is a pattern).
-/

namespace Headend

namespace LogPattern

/-! ### Blanks -/

/-- What is left after blanks and comments. A comment that has begun ends with its line. -/
def skipBlanks : (comment : Bool) → List Char → List Char
  | _, [] => []
  | true, c :: r => skipBlanks (c != '\n') r
  | false, c :: r =>
    if Text.isBlank c then skipBlanks false r
    else if c = '#' then skipBlanks true r
    else c :: r

/-- What is left after blanks and comments, if they are passed over. -/
def space (skips : Bool) (cs : List Char) : List Char := if skips then skipBlanks false cs else cs

/-- The character by which a hyphen before it is judged: the first past blanks, one number sign and
blanks again. If there is none, it is the very first. -/
def peek? (skips : Bool) (cs : List Char) : Option Char :=
  if skips then
    let r := cs.dropWhile Text.isBlank
    let r := if r.head? = some '#' then r.tail.dropWhile Text.isBlank else r
    r.head?.or cs.head?
  else cs.head?

/-! ### Characters that are written as an escape -/

/-- The characters that are written as an escape with a letter. -/
def controls : List (Char × Char) :=
  [('a', '\x07'), ('f', '\x0c'), ('t', '\t'), ('n', '\n'), ('r', '\r'), ('v', '\x0b')]

/-- The pieces that are written as an escape with a letter or an angle bracket. -/
def escapes : List (Char × Atom) :=
  [('d', .shorthand false), ('s', .shorthand false), ('w', .shorthand false),
   ('D', .shorthand true), ('S', .shorthand true), ('W', .shorthand true),
   ('A', .anchor), ('z', .anchor),
   ('b', .border), ('B', .border), ('<', .border), ('>', .border)]

/-- How many digits follow a letter for a character given by its number. -/
def digitCounts : List (Char × Nat) := [('x', 2), ('u', 4), ('U', 8)]

/-- The value of a hexadecimal digit. -/
def hexDigit? (c : Char) : Option Nat :=
  if c.isDigit then some (Number.digitValue c)
  else if 'a' ≤ c.toLower ∧ c.toLower ≤ 'f' then some (c.toLower.toNat - 'a'.toNat + 10)
  else none

/-- Reads a number of digits after a value that they continue. -/
def hexDigits? (skips : Bool) : (missing value : Nat) → List Char → Option (Nat × List Char)
  | 0, value, cs => some (value, cs)
  | _ + 1, _, [] => none
  | missing + 1, value, c :: r => do
    hexDigits? skips missing (value * 16 + (← hexDigit? c)) (space skips r)

/-- A property with the name of one character. -/
def property? (skips : Bool) (cs : List Char) : Option (Atom × List Char) :=
  match space skips cs with
  | [] => none
  | c :: r => if c = '\x7b' ∨ c = '\\' then none else some (.property, space skips r)

/-- The piece after a backslash. -/
def escape? (skips : Bool) : List Char → Option (Atom × List Char)
  | [] => none
  | c :: r =>
    match digitCounts.lookup c, controls.lookup c, escapes.lookup c with
    | some n, _, _ => do
      let (value, r) ← hexDigits? skips n 0 (space skips r)
      if value.isValidChar then some (.literal ⟨Char.ofNat value, c == 'x'⟩, r) else none
    | none, some d, _ => some (.literal { char := d }, r)
    | none, none, some a => some (a, r)
    | none, none, none =>
      if c = 'p' ∨ c = 'P' then property? skips r
      else if c.toNat < 0x80 && !c.isAlphanum then some (.literal { char := c }, r)
      else none

/-! ### Classes -/

/-- The names of the classes of ASCII. -/
def setNames : List String :=
  ["alnum", "alpha", "ascii", "blank", "cntrl", "digit", "graph", "lower", "print", "punct",
   "space", "upper", "word", "xdigit"]

/-- A class of ASCII after its opening bracket: whether it is negated, and the rest. -/
def named? : List Char → Option (Bool × List Char)
  | ':' :: r =>
    let negated := r.head? == some '^'
    let r := if negated then r.tail else r
    match r.dropWhile (· != ':') with
    | ':' :: ']' :: rest =>
      if setNames.contains (String.ofList (r.takeWhile (· != ':'))) then some (negated, rest)
      else none
    | _ => none
  | _ => none

/-- The piece at the front of what stands in a class. -/
def member? (skips : Bool) : List Char → Option (Atom × List Char)
  | [] => none
  | '\\' :: r => escape? skips r
  | c :: r => some (.literal { char := c }, r)

/-- A piece that stands in a class by itself. -/
def single? : Atom → Option CharSet
  | .dot | .anchor | .border => none
  | a => some (.atom a)

/-- A piece or a range. A hyphen before a closing bracket or before another hyphen makes none. -/
def range? (skips : Bool) (cs : List Char) : Option (CharSet × List Char) := do
  let (low, r) ← member? skips cs
  match space skips r with
  | [] => none
  | '-' :: r =>
    if peek? skips r = some ']' ∨ peek? skips r = some '-' then return (← single? low, '-' :: r)
    match low, ← member? skips (space skips r) with
    | .literal low, (.literal high, r) =>
      if low.char ≤ high.char then return (.range low high, r) else none
    | _, _ => none
  | r => return (← single? low, r)

/-- A class of what has been read, the last first. -/
def joined : List CharSet → CharSet
  | [] => .empty
  | [s] => s
  | ss => .union ss.reverse

/-- What has been read of a class, with the operand before it. -/
def operand (left : Option CharSet) (items : List CharSet) : CharSet :=
  match left with
  | none => joined items
  | some left => .operation left (joined items)

/-- The signs that stand twice for an operation. -/
def isOperator (c : Char) : Bool := c == '&' || c == '-' || c == '~'

mutual

/-- A class after its opening bracket. -/
def bracketed? (skips : Bool) : (fuel : Nat) → List Char → Option (CharSet × List Char)
  | 0, _ => none
  | fuel + 1, cs =>
    let r := space skips cs
    let negated := r.head? == some '^'
    (members? skips fuel true none [] (if negated then r.tail else r)).map fun (s, r) =>
      (.bracketed negated s, r)

/-- What stands in a class, with its closing bracket. At the start hyphens are literal, and so is a
bracket that nothing stands before. -/
def members? (skips : Bool) :
    (fuel : Nat) → (start : Bool) → (left : Option CharSet) → (items : List CharSet) →
      List Char → Option (CharSet × List Char)
  | 0, _, _, _, _ => none
  | fuel + 1, start, left, items, cs =>
    match space skips cs with
    | [] => none
    | c :: r =>
      let literal : CharSet := .atom (.literal { char := c })
      if start && c == '-' then members? skips fuel true left (literal :: items) r
      else if start && c == ']' && items.isEmpty then members? skips fuel false left [literal] r
      else if c == ']' then some (operand left items, r)
      else if isOperator c && r.head? == some c then
        members? skips fuel false (some (operand left items)) [] r.tail
      else if c == '[' then
        match named? r with
        | some (negated, r) => members? skips fuel false left (.named negated :: items) r
        | none =>
          match bracketed? skips fuel r with
          | some (s, r) => members? skips fuel false left (s :: items) r
          | none => none
      else
        match range? skips (c :: r) with
        | some (s, r) => members? skips fuel false left (s :: items) r
        | none => none

end

/-! ### Groups -/

/-- What an opening parenthesis begins: a change of flags by itself, or a group. -/
inductive Opening where
  | flags (f : FlagChange)
  | group (f : FlagChange) (name : Option (List Char))

/-- The flags that can be turned on and off. -/
def isFlag (c : Char) : Bool := ['i', 'm', 's', 'U', 'u', 'R', 'x'].contains c

/-- A change of flags. Each stands once, and one at least after a hyphen. -/
def flagChange? (cs : List Char) : Option FlagChange :=
  let on := cs.takeWhile (· != '-')
  let off := (cs.dropWhile (· != '-')).tail
  if (on ++ off).all isFlag && decide (on ++ off).Nodup && cs.getLast? != some '-' then
    some { on, off }
  else none

/-- Whether a group can have a name. -/
def isGroupName : List Char → Bool
  | [] => false
  | c :: r =>
    (c == '_' || Text.isLetter c) &&
      r.all fun c => ['_', '.', '[', ']'].contains c || Text.isAlphanumeric c

/-- The name of a group up to its closing bracket. -/
def groupName? (cs : List Char) : Option (Opening × List Char) :=
  let name := cs.takeWhile (· != '>')
  match cs.dropWhile (· != '>') with
  | [] => none
  | _ :: r => if isGroupName name then some (.group {} (some name), r) else none

/-- Whether flags go on. -/
def inFlags (c : Char) : Bool := c != ':' && c != ')'

/-- Flags up to the sign that ends them. By themselves they change something. -/
def flags? (cs : List Char) : Option (Opening × List Char) := do
  let f ← flagChange? (cs.takeWhile inFlags)
  match cs.dropWhile inFlags with
  | [] => none
  | ':' :: r => return (.group f none, r)
  | _ :: r => if f = {} then none else return (.flags f, r)

/-- What follows an opening parenthesis. -/
def opening? (skips : Bool) (cs : List Char) : Option (Opening × List Char) :=
  match space skips cs with
  | '?' :: 'P' :: '<' :: r => groupName? r
  | '?' :: '<' :: r => groupName? r
  | '?' :: r => flags? r
  | r => some (.group {} none, r)

/-! ### Patterns -/

/-- A sequence of what has been read, the last first. -/
def sequence : List LogPattern → LogPattern
  | [] => .empty
  | [p] => p
  | ps => .concatenation ps.reverse

/-- The branches that have been read, the last first, and the items of one more. -/
def branched (branches items : List LogPattern) : LogPattern :=
  if branches.isEmpty then sequence items else .alternation (sequence items :: branches).reverse

/-- The pieces of one character that are no literal. -/
def signs : List (Char × Atom) := [('.', .dot), ('^', .anchor), ('$', .anchor)]

/-- A pattern that has been read up to its end or up to a parenthesis, with all names of groups. -/
structure Parsed where
  pattern : LogPattern
  names : List (List Char)
  rest : List Char

/-- Reads a pattern, of which some branches and some items of one more have been read. -/
def parse? : (fuel : Nat) → (skips : Bool) → (names : List (List Char)) →
    (branches items : List LogPattern) → List Char → Option Parsed
  | 0, _, _, _, _, _ => none
  | fuel + 1, skips, names, branches, items, cs =>
    match space skips cs with
    | [] => some ⟨branched branches items, names, []⟩
    | ')' :: r => some ⟨branched branches items, names, ')' :: r⟩
    | '|' :: r => parse? fuel skips names (sequence items :: branches) [] r
    | '(' :: r =>
      match opening? skips r with
      | none => none
      | some (.flags f, r) =>
        parse? fuel ((f.state 'x').getD skips) names branches (.flags f :: items) r
      | some (.group f name, r) =>
        if name.toList.any names.contains then none
        else
          match parse? fuel ((f.state 'x').getD skips) (name.toList ++ names) [] [] r with
          | some ⟨p, names, _ :: r⟩ => parse? fuel skips names branches (.group f p :: items) r
          | _ => none
    | '[' :: r =>
      match bracketed? skips (2 * r.length + 2) r with
      | some (s, r) => parse? fuel skips names branches (.set s :: items) r
      | none => none
    | c :: r =>
      if ['*', '+', '?'].contains c then
        match items with
        | [] | .flags _ :: _ => none
        | p :: items =>
          parse? fuel skips names branches (.repetition p :: items)
            (if r.head? = some '?' then r.tail else r)
      else if c = '\x7b' then none
      else if c = '\\' then
        match escape? skips r with
        | some (a, r) => parse? fuel skips names branches (.atom a :: items) r
        | none => none
      else
        let a := (signs.lookup c).getD (.literal { char := c })
        parse? fuel skips names branches (.atom a :: items) r

/-- The pattern of a text. -/
def ofChars? (cs : List Char) : Option LogPattern :=
  match parse? (cs.length + 1) false [] [] [] cs with
  | some ⟨p, _, []⟩ => some p
  | _ => none

/-- Whether a text is a pattern that can be used. -/
def isPattern (cs : List Char) : Bool := (ofChars? cs).any isUsable

/-- Whether a field can be compared with a text: it is a number or a pattern. -/
def isValue (s : String) : Bool := (Number.float? s).isSome || isPattern s.toList

/-! ### First facts -/

theorem skipBlanks_cons {c : Char} (hb : Text.isBlank c = false) (hc : c ≠ '#') (r : List Char) :
    skipBlanks false (c :: r) = c :: r := by
  rw [skipBlanks, hb, if_neg Bool.false_ne_true, if_neg hc]

theorem ofChars?_nil : ofChars? [] = some .empty := rfl

end LogPattern

end Headend
