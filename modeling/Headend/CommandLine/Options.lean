import Headend.Config.Parameters
import Headend.Log

/-!
# Options of the command line

The options, their spellings, and what they say about the parameters.

Facts: `longNames_nodup` and `letters_nodup` (a spelling names one option).
-/

namespace Headend.CommandLine

open Headend.Config
open Headend.Number (Binary64)

/-- What was asked for on the command line. -/
structure Options where
  /-- The configuration file; without it only the command line is used. -/
  config : Option String := none
  /-- List the front-ends and end. -/
  listCards : Bool := false
  card : Option UInt32 := none
  tuner : Option UInt32 := none
  serverId : Option Int := none
  freq : Option Binary64 := none
  pol : Option Polarization := none
  srate : Option UInt32 := none
  deliverySystem : Option DeliverySystem := none
  /-- A recorded stream that takes the place of a device. -/
  recording : Option String := none
  tuningTimeout : Option UInt32 := none
  /-- Run in the background and write the process id to a file. -/
  daemon : Bool := false
  /-- The directory of the channel lists, if one was given. -/
  givenRunDir : Option String := none
  /-- End when the front-end is tuned. -/
  exitAfterTune : Bool := false
  /-- Report the front-end's status every second. -/
  showSignal : Bool := false
  /-- How often more output was asked for. -/
  verbose : Nat := 0
  /-- How often less output was asked for. -/
  quiet : Nat := 0
deriving DecidableEq

namespace Options

/-- The directory of the channel lists. -/
def runDir (o : Options) : String := o.givenRunDir.getD "/var/run/dvbzap"

/-- The balance of requests for more and for less output. Each side counts up to 127. -/
def verbosity (o : Options) : Int := (min o.verbose 127 : Nat) - (min o.quiet 127 : Nat)

/-- The filter of the log that the balance stands for. -/
def logFilter (o : Options) : LogFilter := .ofVerbosity o.verbosity

/-- The tuning parameters with those that the command line gives. -/
def overrideTuning (o : Options) (t : Tuning) : Tuning :=
  { t with
    card := o.card.or t.card
    tuner := o.tuner.getD t.tuner
    freq := o.freq.getD t.freq
    pol := o.pol.or t.pol
    srate := o.srate.getD t.srate
    deliverySystem := o.deliverySystem.or t.deliverySystem
    readFilePath := o.recording.or t.readFilePath
    tuningTimeout := o.tuningTimeout.getD t.tuningTimeout }

/-- A store in which what the command line gives stands above the configuration. -/
def override (o : Options) (s : Store) : Store :=
  { s with
    tuning := o.overrideTuning s.tuning
    options.serverId := o.serverId.getD s.options.serverId }

end Options

/-! ### Spellings -/

/-- An option that is asked for once, without a value. -/
inductive Flag where
  | listCards | daemon | exitAfterTune | showSignal
deriving DecidableEq

/-- An option whose repetitions are counted. -/
inductive Counter where
  | verbose | quiet
deriving DecidableEq

/-- An option that takes a value. -/
inductive Setting where
  | config | card | tuner | serverId | freq | pol | srate | deliverySystem | recording
  | tuningTimeout | runDir
deriving DecidableEq

/-- What a spelling stands for. -/
inductive Switch where
  | help
  | version
  | flag (f : Flag)
  | counter (c : Counter)
  | setting (s : Setting)
deriving DecidableEq

namespace Switch

/-- The long names, as they stand after two dashes. -/
def longNames : List (String × Switch) :=
  [("help", help), ("version", version), ("config", setting .config),
   ("list-cards", flag .listCards), ("card", setting .card), ("tuner", setting .tuner),
   ("server-id", setting .serverId), ("freq", setting .freq), ("pol", setting .pol),
   ("srate", setting .srate), ("delivery-system", setting .deliverySystem),
   ("read-file", setting .recording), ("tuning-timeout", setting .tuningTimeout),
   ("daemon", flag .daemon), ("run-dir", setting .runDir),
   ("exit-after-tune", flag .exitAfterTune), ("show-signal", flag .showSignal),
   ("verbose", counter .verbose), ("quiet", counter .quiet)]

/-- The letters, as they stand after one dash. -/
def letters : List (Char × Switch) :=
  [('h', help), ('V', version), ('c', setting .config), ('l', flag .listCards),
   ('a', setting .card), ('n', setting .tuner), ('f', setting .freq), ('p', setting .pol),
   ('s', setting .srate), ('d', flag .daemon), ('x', flag .exitAfterTune),
   ('v', counter .verbose), ('q', counter .quiet)]

/-- The option of a long name. -/
def ofLong? (name : String) : Option Switch := longNames.lookup name

/-- The option of a letter. -/
def ofLetter? (letter : Char) : Option Switch := letters.lookup letter

theorem longNames_nodup : (longNames.map (·.1)).Nodup := by decide +kernel

theorem letters_nodup : (letters.map (·.1)).Nodup := by decide

end Switch

end Headend.CommandLine
