import Headend.Config.Parameters
import Headend.Config.Token
import Headend.Number.Decimal

/-!
# Reading values

A value of a directive is read from the tokens after its keyword. Reading may fail, and then the
tokens taken so far stay taken.
-/

namespace Headend.Config

open Headend.Number (Binary64)

/-- Where a value is read: the keyword it belongs to and the channel that is open. -/
structure Site where
  keyword : String
  channel : Nat

/-- Reads a value from a line at a site. -/
abbrev Reader := ReaderT Site (EStateM ConfigError Cursor)

namespace Reader

/-- Runs a reader at a site on what is left of a line. -/
def run (r : Reader α) (site : Site) (c : Cursor) : EStateM.Result ConfigError Cursor α :=
  r site c

/-- Takes the next token, if there is one. -/
def next : Reader (Option String) := fun _ c => let (t, rest) := c.next; .ok t rest

/-- The value is not there. -/
def missing : Reader α := fun site c => .error (.missingValue site.keyword) c

/-- The value that was taken cannot be understood. -/
def bad (value : String) : Reader α := fun site c => .error (.badValue site.keyword value) c

/-- What was understood of a value, or an error about it. -/
def orBad (raw : String) : Option α → Reader α
  | some v => pure v
  | none => bad raw

/-- The next token. -/
def word : Reader String := do
  match ← next with
  | some t => return t
  | none => missing

/-- The value up to the next `=`, with the blanks in it. -/
def whole : Reader String := fun site c =>
  match c.wholeValue with
  | (some t, rest) => .ok t rest
  | (none, rest) => .error (.missingValue site.keyword) rest

/-- The next token as an integer. -/
def int : Reader Int := return Number.leadingInteger (← word)

/-- An integer as a natural number below a bound. -/
def below (bound : Nat) (n : Int) : Option Nat :=
  if 0 ≤ n ∧ n < bound then some n.toNat else none

/-- The next token as a number of 32 bits. -/
def uint : Reader UInt32 := do
  let raw ← word
  orBad raw ((below UInt32.size (Number.leadingInteger raw)).map UInt32.ofNat)

/-- A token as a number of 16 bits. -/
def uint16? (raw : String) : Option UInt16 :=
  (below UInt16.size (Number.leadingInteger raw)).map UInt16.ofNat

/-- The next token as a number of 16 bits. -/
def uint16 : Reader UInt16 := do
  let raw ← word
  orBad raw (uint16? raw)

/-- The next token as a number of 8 bits up to a limit. -/
def uint8 (limit : Nat) : Reader UInt8 := do
  let raw ← word
  orBad raw ((below (limit + 1) (Number.leadingInteger raw)).map UInt8.ofNat)

/-- The next token as a switch: zero is off. -/
def flag : Reader Bool := return (← int) != 0

/-- The next token as a switch that the configuration may leave open. -/
def tristate : Reader Tristate := return .ofFlag (← int)

/-- The next token as a number with a fraction. -/
def float : Reader Binary64 := return Number.leadingFloat (← word)

/-- The next token as the name of a value. -/
def named (ofName? : String → Option α) : Reader α := do
  let raw ← word
  orBad raw (ofName? raw)

/-- Works a value over the next tokens, of which there are at most `rounds`. -/
def foldRounds (f : α → String → Reader α) : Nat → α → Reader α
  | 0, a => pure a
  | rounds + 1, a => do
    match ← next with
    | none => return a
    | some raw => foldRounds f rounds (← f a raw)

/-- Works a value over the tokens that are left, one by one; a failure leaves those after it. -/
def fold (f : α → String → Reader α) (a : α) : Reader α :=
  fun site c => foldRounds f c.rest.length a site c

/-! ### Runs of readers -/

@[simp] theorem run_pure (v : α) (site : Site) (c : Cursor) :
    (pure v : Reader α).run site c = .ok v c := rfl

@[simp] theorem run_read (site : Site) (c : Cursor) :
    (read : Reader Site).run site c = .ok site c := rfl

theorem run_bind (r : Reader α) (f : α → Reader β) (site : Site) (c : Cursor) :
    (r >>= f).run site c =
      match r.run site c with
      | .ok v left => (f v).run site left
      | .error e left => .error e left := by
  change EStateM.bind (r.run site) (fun v => (f v).run site) c = _
  unfold EStateM.bind
  cases r.run site c <;> rfl

end Reader

end Headend.Config
