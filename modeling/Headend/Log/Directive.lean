import Headend.Config.Value
import Headend.Log
import Headend.Log.Pattern.Parser
import Headend.Text.Blank
import Headend.Text.Utf8

/-!
# Directives for the log

The environment may say what the log keeps: directives with commas between them. A directive is a
level, or the start of the names of areas, then in brackets a span of work with a field in braces,
then an equals sign and a level; each part may be missing, and without a level everything is kept.
No record here belongs to a span, and a field with a value is one of a span, so such directives keep
nothing.

For each area the most special directive counts. If none speaks of an area, nothing of it is kept;
without any directive, errors are.

Facts: `filters_empty` (an empty text keeps errors), `filterOf_singleton` (one directive alone),
`not_concerns_of_span` (a directive for a span speaks of no area).
-/

namespace Headend

/-- A field that a directive asks for, perhaps with a value. -/
structure LogField where
  name : String
  value : Option String := none
deriving DecidableEq

/-- What a part of the environment's text asks for. -/
structure LogDirective where
  /-- How the names of the areas start. -/
  target : Option String := none
  span : Option String := none
  field : Option LogField := none
  filter : LogFilter
deriving DecidableEq

namespace LogDirective

/-- Why a text sets no filters. -/
inductive Fault where
  /-- A part of it is no directive. -/
  | malformed
  /-- A part was cut inside a character. -/
  | split
deriving DecidableEq

/-! ### Reading -/

/-- The filter of a level's name in any case of the letters, or of its number. -/
def level? (text : String) : Option LogFilter :=
  match Number.word? text with
  | some n => LogFilter.all[n.toNat]?
  | none => LogFilter.all.find? fun f => f.name == Config.lowerCase text

/-- Whether a directive without a bracket in front may start with a character. -/
def isStart (c : Char) : Bool :=
  c == '-' || c == ':' || c == '_' || Text.isAlphanumeric c

/-- A part of a directive. Its places are found in the text without the blanks around it and then
counted from the front of the text with them, so blanks in front shift all parts. -/
def part (raw : List Char) (start stop : Nat) : Except Fault String :=
  match Text.cut? raw start stop with
  | some cs => .ok (String.ofList cs)
  | none => .error .split

/-- The level from a place on. -/
def levelFrom (raw : List Char) (start : Nat) : Except Fault LogFilter := do
  let text ← part raw start (Text.size raw)
  if text = "" then return .upTo .trace
  match level? text with
  | some filter => return filter
  | none => throw .malformed

/-- The level at the end of a directive, which may be missing. -/
def ending (raw : List Char) (place : Nat) : List Char → Except Fault LogFilter
  | [] => .ok (.upTo .trace)
  | '=' :: _ => levelFrom raw (place + 1)
  | _ => .error .malformed

/-- A field: a name, and a value after an equals sign. -/
def readField (text : String) : Except Fault LogField :=
  let name := String.ofList (text.toList.takeWhile (· != '='))
  match text.toList.dropWhile (· != '=') with
  | [] => if name = "" then .error .malformed else .ok { name }
  | _ :: r =>
    let value := String.ofList (r.takeWhile (· != '='))
    if LogPattern.isValue value then .ok { name, value := some value } else .error .malformed

/-- Whether the name of a span goes on. -/
def inSpan (c : Char) : Bool := c != ']' && c != '\x7b'

/-- Whether a field goes on. -/
def inField (c : Char) : Bool := c != '\x7d'

/-- What stands in brackets, from a place on, and what follows it. -/
def ofBracket (raw : List Char) (target : Option String) (place : Nat) (cs : List Char) :
    Except Fault LogDirective := do
  let stop := place + Text.size (cs.takeWhile inSpan)
  match cs.dropWhile inSpan with
  | [] => throw .malformed
  | ']' :: r =>
    let span ← part raw place stop
    return { target, span := some span, filter := ← ending raw (stop + 1) r }
  | _ :: r =>
    let span ← part raw place stop
    let last := stop + 1 + Text.size (r.takeWhile inField)
    if r.dropWhile inField = [] then throw .malformed
    let field ← readField (← part raw (stop + 1) last)
    match (r.dropWhile inField).tail with
    | ']' :: r =>
      return { target, span := if span = "" then none else some span, field := some field,
               filter := ← ending raw (last + 2) r }
    | _ => throw .malformed

/-- Whether a target goes on. -/
def inTarget (c : Char) : Bool := c != '=' && c != '['

/-- The directive of a text that is a level or a target alone. -/
def ofWord (text : String) : LogDirective :=
  match level? text with
  | some filter => { filter }
  | none => { target := some text, filter := .upTo .trace }

/-- The directive of a text between commas. -/
def ofText (raw : List Char) : Except Fault LogDirective :=
  match Text.trim raw with
  | [] => .error .malformed
  | '[' :: r => ofBracket raw none 1 r
  | c :: r =>
    let cs := c :: r
    let place := Text.size (cs.takeWhile inTarget)
    if isStart c then
      match cs.dropWhile inTarget with
      | [] => .ok (ofWord (String.ofList raw))
      | '=' :: _ => do
        return { target := ← part raw 0 place, filter := ← levelFrom raw (place + 1) }
      | _ :: r => do ofBracket raw (← part raw 0 place) (place + 1) r
    else .error .malformed

/-! ### Choosing -/

/-- The names of the fields that every record has. -/
def recordFields : List String :=
  ["message", "log.target", "log.module_path", "log.file", "log.line"]

/-- Whether a directive speaks of records by its field. -/
def hasField (d : LogDirective) : Bool :=
  match d.field with
  | none => true
  | some f => f.value.isNone && recordFields.contains f.name

/-- Whether a directive speaks of the records of an area. -/
def concerns (d : LogDirective) (a : Area) : Bool :=
  d.span.isNone && d.hasField && (d.target.getD "").toList.isPrefixOf a.name.toList

/-- The octets of the target, and none for a missing one. -/
def targetSize (d : LogDirective) : Nat := Text.size (d.target.getD "").toList

/-- The name of the field, empty for a missing one. -/
def fieldName (d : LogDirective) : String := (d.field.map (·.name)).getD ""

/-- Whether a directive gives way to a later one: to a longer target, and with the same target to a
field that is not before its own in the alphabet. -/
def yields (a b : LogDirective) : Bool :=
  a.targetSize < b.targetSize || (a.targetSize == b.targetSize && a.fieldName ≤ b.fieldName)

/-- Of two directives for an area, the more special one. -/
def stronger (a b : LogDirective) : LogDirective := if a.yields b then b else a

/-- The filter that directives come down to in an area. -/
def filterOf (ds : List LogDirective) (a : Area) : LogFilter :=
  if ds = [] then .upTo .error
  else
    match ds.filter (·.concerns a) with
    | [] => .off
    | d :: rest => (rest.foldl stronger d).filter

/-- The filters that a text sets. -/
def filters (text : String) : Except Fault (Area → LogFilter) :=
  (((text.toList.splitOn ',').filter (· ≠ [])).mapM ofText).map filterOf

theorem filters_empty : filters "" = .ok fun _ => .upTo .error := rfl

theorem filterOf_singleton (d : LogDirective) (a : Area) :
    filterOf [d] a = if d.concerns a then d.filter else .off := by
  cases h : d.concerns a <;> simp [filterOf, h]

theorem not_concerns_of_span {d : LogDirective} {s : String} (h : d.span = some s) (a : Area) :
    d.concerns a = false := by
  simp [concerns, h]

end LogDirective

end Headend
