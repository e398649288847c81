import Headend.CommandLine.Options
import Headend.Number.Decimal

/-!
# Reading the command line

Arguments are read from left to right, and the first error ends the reading. An option that takes
its value from the next argument stays open until another option starts or the arguments end; only
then is its value looked at.
-/

namespace Headend.CommandLine

open Headend.Config
open Headend.Number (Binary64 float? integer? largest least)

/-- Why the command line does not lead to a run. -/
inductive Refusal where
  /-- The description of the options was asked for. -/
  | displayHelp
  /-- The version was asked for. -/
  | displayVersion
  /-- An argument is no option. -/
  | unknownArgument
  /-- A value is missing, or is empty where it may not be. -/
  | invalidValue
  /-- A value cannot be understood. -/
  | valueValidation
  /-- An option stands twice. -/
  | argumentConflict
  /-- An option that takes no value has one. -/
  | tooManyValues
deriving DecidableEq

/-- Whether a refusal is an answer rather than an error. -/
def Refusal.isAnswer : Refusal → Bool
  | displayHelp | displayVersion => true
  | _ => false

/-- The state between two arguments. -/
structure Reading where
  options : Options := {}
  /-- The option whose value is still to be looked at, with its value if it has come. -/
  opened : Option (Setting × Option String) := none
  /-- Only arguments that are no options may follow. -/
  ended : Bool := false

/-! ### Values -/

/-- A number of 32 bits, written with an optional sign. -/
def wordValue (raw : String) : Except Refusal UInt32 :=
  match integer? raw with
  | some n =>
    if 0 ≤ n ∧ n < UInt32.size then .ok (UInt32.ofNat n.toNat) else .error .valueValidation
  | none => .error .valueValidation

/-- An integer of 64 bits, written with an optional sign. -/
def integerValue (raw : String) : Except Refusal Int :=
  match integer? raw with
  | some n => if least ≤ n ∧ n ≤ largest then .ok n else .error .valueValidation
  | none => .error .valueValidation

/-- A path, which may not be empty. -/
def pathValue (raw : String) : Except Refusal String :=
  if raw = "" then .error .invalidValue else .ok raw

/-- A value that is chosen by a name. -/
def namedValue (found : Option α) : Except Refusal α :=
  match found with
  | some v => .ok v
  | none => .error .valueValidation

/-- Gives an option its first value; a second one is a conflict, whatever it is. -/
def once (given : Option α) (value : Except Refusal α) : Except Refusal (Option α) :=
  match given with
  | some _ => .error .argumentConflict
  | none => value.map some

/-- The options with a value for one of them. -/
def assign (o : Options) (s : Setting) (raw : String) : Except Refusal Options :=
  match s with
  | .config => return { o with config := ← once o.config (pathValue raw) }
  | .card => return { o with card := ← once o.card (wordValue raw) }
  | .tuner => return { o with tuner := ← once o.tuner (wordValue raw) }
  | .serverId => return { o with serverId := ← once o.serverId (integerValue raw) }
  | .freq => return { o with freq := ← once o.freq (namedValue (float? raw)) }
  | .pol => return { o with pol := ← once o.pol (namedValue (Polarization.ofName? raw)) }
  | .srate => return { o with srate := ← once o.srate (wordValue raw) }
  | .deliverySystem =>
    return { o with
      deliverySystem := ← once o.deliverySystem (namedValue (DeliverySystem.ofName? raw)) }
  | .recording => return { o with recording := ← once o.recording (pathValue raw) }
  | .tuningTimeout => return { o with tuningTimeout := ← once o.tuningTimeout (wordValue raw) }
  | .runDir => return { o with givenRunDir := ← once o.givenRunDir (pathValue raw) }

/-- Switches a flag on, which must be off. -/
def raise (given : Bool) : Except Refusal Bool :=
  if given then .error .argumentConflict else .ok true

/-- The options with a flag on. -/
def setFlag (o : Options) (f : Flag) : Except Refusal Options :=
  match f with
  | .listCards => return { o with listCards := ← raise o.listCards }
  | .daemon => return { o with daemon := ← raise o.daemon }
  | .exitAfterTune => return { o with exitAfterTune := ← raise o.exitAfterTune }
  | .showSignal => return { o with showSignal := ← raise o.showSignal }

/-- The highest count of repetitions. -/
def maxCount : Nat := 255

/-- The options with one more repetition. -/
def count (o : Options) : Counter → Options
  | .verbose => { o with verbose := min maxCount (o.verbose + 1) }
  | .quiet => { o with quiet := min maxCount (o.quiet + 1) }

/-! ### Arguments -/

/-- Looks at the value of the option that is open. -/
def Reading.close (r : Reading) : Except Refusal Reading :=
  match r.opened with
  | none => .ok r
  | some (_, none) => .error .invalidValue
  | some (s, some raw) => return { r with options := ← assign r.options s raw, opened := none }

/-- An option without a value. -/
def Reading.switch (r : Reading) (s : Switch) : Except Refusal Reading := do
  let r ← r.close
  match s with
  | .help => throw .displayHelp
  | .version => throw .displayVersion
  | .flag f => return { r with options := ← setFlag r.options f }
  | .counter c => return { r with options := count r.options c }
  | .setting s => return { r with opened := some (s, none) }

/-- An option with its value attached. -/
def Reading.attach (r : Reading) (s : Setting) (raw : String) : Except Refusal Reading := do
  let r ← r.close
  return { r with options := ← assign r.options s raw }

/-- The part before the first `=`, and the part after it if there is one. -/
def splitEquals (cs : List Char) : String × Option String :=
  (String.ofList (cs.takeWhile (· != '=')),
    match cs.dropWhile (· != '=') with
    | [] => none
    | _ :: value => some (String.ofList value))

/-- An argument that starts with two dashes. -/
def Reading.long (r : Reading) (cs : List Char) : Except Refusal Reading :=
  let (name, value) := splitEquals cs
  match Switch.ofLong? name, value with
  | none, _ => .error .unknownArgument
  | some (.setting s), some raw => r.attach s raw
  | some s, none => r.switch s
  | some _, some _ => .error .tooManyValues

/-- A value that stands directly after a letter, with or without `=`. -/
def attachedValue : List Char → String
  | '=' :: value => String.ofList value
  | value => String.ofList value

/-- The letters of an argument that starts with one dash. The last letter may take the rest of the
argument as its value. -/
def Reading.letters (r : Reading) : List Char → Except Refusal Reading
  | [] => .ok r
  | c :: rest =>
    match Switch.ofLetter? c with
    | none => .error .unknownArgument
    | some (.setting s) =>
      if rest.isEmpty then r.switch (.setting s) else r.attach s (attachedValue rest)
    | some s => do
      let r ← r.switch s
      r.letters rest

/-- An argument that is no option: the value of the option that is open, if it has none yet. -/
def Reading.plain (r : Reading) (arg : String) : Except Refusal Reading :=
  match r.opened with
  | some (s, none) =>
    if r.ended then .error .unknownArgument else .ok { r with opened := some (s, some arg) }
  | _ => .error .unknownArgument

/-- Reads one argument. -/
def Reading.step (r : Reading) (arg : String) : Except Refusal Reading :=
  if r.ended then r.plain arg
  else
    match arg.toList with
    | ['-', '-'] => .ok { r with ended := true }
    | '-' :: '-' :: cs => r.long cs
    | ['-'] => r.plain arg
    | '-' :: cs => r.letters cs
    | _ => r.plain arg

/-- The options that arguments ask for. -/
def parse (args : List String) : Except Refusal Options := do
  let r ← args.foldlM Reading.step {}
  return (← r.close).options

end Headend.CommandLine
