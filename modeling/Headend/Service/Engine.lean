import Headend.Service.ChannelLists
import Headend.Service.Shutdown
import Headend.Tuner.Frontend

/-!
# The engine

Once the source delivers, the engine has it until the end of the process. The engine here keeps the
source as it is, and answers the signals of the user: it reports the status or the channels, writes
the lists again, and opens the log file again.

Facts: `hold_exit` (with an exit after tuning nothing is held).
-/

namespace Headend.Service

open Headend.Config
open Headend.Host
open Headend.Tuner (Source)

/-- What the engine gets. -/
structure Handoff where
  /-- The resolved parameters with the frozen table of channels. -/
  store : Store
  source : Source
  paths : ListPaths
  /-- Whether the lists may be written again. -/
  canRefresh : Bool
deriving DecidableEq

/-- Why an engine could not do its work. -/
inductive EngineError where
  /-- A thread could not be started. -/
  | cannotStart (name : String) (failure : Failure)
deriving DecidableEq

namespace EngineError

/-- The text of an error. -/
def message : EngineError → String
  | cannotStart name failure => s!"Cannot start the {name} thread: {failure.message}"

/-- The exit code of every error. -/
def exitCode (_ : EngineError) : ExitCode := .generic

end EngineError

/-- An engine works until the end and tells which of its workers still run. -/
structure Engine where
  run : Handoff → Run (Except EngineError (List Worker))

/-! ### Reports -/

/-- Reports the status of a source. -/
def reportStatus (s : Source) : Run Unit := do
  match ← s.readStatus with
  | .ok status => Run.log .engine (.info s!"{s.describe}: {status.text}")
  | .error e => Run.log .engine (.warn s!"{s.describe}: cannot read status: {e.message}")

/-- A number with blanks before it, at least three characters wide. -/
def threeWide (n : Nat) : String :=
  let digits := toString n
  String.ofList (List.replicate (3 - digits.length) ' ') ++ digits

/-- The text of a list of PIDs. -/
def pidsText (pids : List UInt16) : String :=
  "[" ++ ", ".intercalate (pids.map fun pid => toString pid.toNat) ++ "]"

/-- The record of a channel. -/
def channelRecord (i : Nat) (c : Channel) : Record :=
  .info <| "Channel " ++ threeWide i ++ " \"" ++ c.name ++ "\" " ++ c.readiness.name ++ " pids " ++
    pidsText c.pids

/-- The records of the table of channels. -/
def channelRecords (t : ChannelTable) : List Record :=
  .info s!"{t.published.getD t.length} channel(s), {t.streamed.length} streamed" ::
    t.entries.zipIdx.map fun (c, i) => channelRecord i c

/-! ### Signals of the user -/

/-- Answers a signal of the user. -/
def answer (h : Handoff) (n : Int) : Run Unit := do
  if n = Signal.user1 then reportStatus h.source
  else if n = Signal.user2 then
    Run.logAll .engine (channelRecords h.store.channels)
    if h.canRefresh then let _ ← createLists h.paths h.store
  else if n = Signal.hangup then
    Run.log .engine (.info "SIGHUP received, reopening the log file")
    if let .error e := ← Run.reopenLog then
      Run.log .engine (.warn s!"Cannot reopen log file: {e.message}")

/-- How long to wait between two looks at the signals, in milliseconds. -/
def pollInterval : Nat := 100

/-- Answers signals until a cause of the end is set, looking at most as many times as there are
`rounds`. -/
def poll (h : Handoff) : (rounds : Nat) → Run Unit
  | 0 => pure ()
  | rounds + 1 => do
    if ← Run.isInterrupted then return
    if let some n := ← Run.takeSignal then answer h n
    Run.sleep pollInterval
    poll h rounds

/-! ### Holding -/

/-- The worker that reports the status every second. Its reports are its own: they change nothing
that the process depends on. -/
def reporter (endsAt : Nat) : Worker := { name := some "signal-power", endsAt }

/-- Starts the workers that were asked for. -/
def startWorkers (showSignal : Bool) : Run (Except EngineError (List Worker)) := do
  if !showSignal then return .ok []
  match ← Run.look (·.threadEnd) with
  | some endsAt => return .ok [reporter endsAt]
  | none => return .error (.cannotStart "signal-power" .exhausted)

/-- Keeps the source until a cause of the end is set. After the agenda of sleeps there is one more,
which brings the end, so the rounds are enough. -/
def hold (exitAfterTune showSignal : Bool) (h : Handoff) :
    Run (Except EngineError (List Worker)) := do
  if exitAfterTune then
    Run.log .engine (.info "Tuned, exiting as requested")
    return .ok []
  match ← startWorkers showSignal with
  | .error e => return .error e
  | .ok workers =>
    Run.log .engine (.info s!"Holding {h.source.describe}")
    if !h.canRefresh then Run.log .engine (.info "Channel lists will not be refreshed")
    poll h ((← Run.agendaLength) + 2)
    return .ok workers

/-- The engine that keeps the source. -/
def Engine.holding (exitAfterTune showSignal : Bool) : Engine where
  run := hold exitAfterTune showSignal

theorem hold_exit (showSignal : Bool) (h : Handoff) :
    hold true showSignal h =
      (do Run.log .engine (.info "Tuned, exiting as requested"); return .ok []) := rfl

end Headend.Service
