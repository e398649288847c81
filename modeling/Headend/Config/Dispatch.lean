import Headend.Config.Section

/-!
# Dispatch of a line

A line is skipped if it is blank, a comment, or a keyword without `=` other than `new_channel`. Any
other line goes to the sections of the chain in turn, up to the first that does not pass it on. Each
section works on the draft and the line as the one before it left them, and what it leaves stays,
whether it handles the line or fails.
-/

namespace Headend.Config

/-- What became of a line. -/
inductive LineOutcome where
  /-- Blank, a comment, or no directive. -/
  | skipped
  /-- A section took it. -/
  | handled (by_ : Section)
  /-- No section of the chain owns the keyword. -/
  | unknown
deriving DecidableEq

/-- What a line did: its outcome or why it failed, the draft it leaves, and the records. -/
structure Dispatched where
  outcome : Except ConfigError LineOutcome
  draft : Draft
  records : List Record

/-- Asks the sections of a chain in turn, up to the first that does not pass. -/
def ask : List Section → Recognizer LineOutcome
  | [] => return .unknown
  | s :: rest => do
    match ← s.recognize with
    | .handled => return .handled s
    | .notMine => ask rest

/-- The line without the ends of line at its end. -/
def stripEnds (cs : List Char) : List Char :=
  (cs.reverse.dropWhile fun c => c == '\r' || c == '\n').reverse

/-- The keyword of a line that is a directive, and what is left of the line after it. -/
def directiveLine? (line : List Char) : Option (String × Cursor) :=
  if line.head? = some '#' then none
  else
    match (Cursor.mk line).next with
    | (some keyword, rest) =>
      if keyword.toList.head? = some '#' then none
      else if !line.contains '=' && keyword != newChannel then none
      else some (keyword, rest)
    | (none, _) => none

/-- The warning about a keyword that nobody owns. A line that is a single octet but for blanks is
passed over in silence. -/
def unknownRecords (line : List Char) (keyword : String) : List Record :=
  if 1 < Text.size (Text.trim line) then
    [.warn s!"Config issue : unknow symbol : {keyword}"]
  else []

/-- Carries out a line on a draft. -/
def dispatch (chain : List Section) (draft : Draft) (raw : String) : Dispatched :=
  let line := stripEnds raw.toList
  match directiveLine? line with
  | none => ⟨.ok .skipped, draft, []⟩
  | some (keyword, rest) =>
    match (ask chain).run keyword { draft, left := rest } with
    | .ok .unknown ctx => ⟨.ok .unknown, ctx.draft, ctx.records ++ unknownRecords line keyword⟩
    | .ok outcome ctx => ⟨.ok outcome, ctx.draft, ctx.records⟩
    | .error e ctx => ⟨.error e, ctx.draft, ctx.records⟩

end Headend.Config
