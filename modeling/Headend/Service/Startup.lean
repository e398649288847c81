import Headend.Service.Configuration
import Headend.Service.Engine
import Headend.Tuner.Acquisition

/-!
# The life of the process

The stages from the command line to the exit status: the parameters, the log file, the source, the
generated files, the engine, and the end. A stage that fails ends the process with its error, and a
signal that asks for the end makes the stages that are left be passed over. In either case what was
acquired is given back.

Facts: `prepare_of_load_error` (without parameters nothing is acquired).
-/

namespace Headend.Service

open Headend.Config
open Headend.Host
open Headend.Tuner (Frontend Source TuneError)

/-- Why a stage failed. -/
inductive StageError where
  | configuration (e : ConfigError)
  | tuning (e : TuneError)
  | engine (e : EngineError)
  /-- A mandatory file could not be created. -/
  | cannotCreate (path : String) (failure : Failure)
deriving DecidableEq

namespace StageError

/-- The text of an error. -/
def message : StageError → String
  | configuration e => e.message
  | tuning e => e.message
  | engine e => e.message
  | cannotCreate path failure => s!"Cannot create {path}: {failure.message}"

/-- The exit code of an error. -/
def exitCode : StageError → ExitCode
  | configuration e => e.exitCode
  | tuning e => e.exitCode
  | engine e => e.exitCode
  | cannotCreate .. => .createFile

end StageError

/-- What the stages before the engine led to: an error, or what the engine gets, or nothing if the
end was asked for; and what has to be given back. -/
structure Prepared where
  result : Except StageError (Option Handoff)
  holdings : Holdings

/-- The version of the program. -/
def version : String := "0.1.0"

/-- The record between the configuration and the start. -/
def startRecord : Record :=
  .info s!"========== End of configuration, dvbzap version {version} is starting =========="

/-- Whether the end was asked for, so that nothing more is acquired. -/
def stopRequested : Run Bool := do
  let stop ← Run.isInterrupted
  if stop then Run.log .startup (.info "Stop requested, skipping the remaining startup steps")
  return stop

/-! ### The stages -/

/-- Sends the log to the file of the configuration. -/
def openLog (s : Store) : Run Unit := do
  if let some path := s.logging.file then
    if let .error e := ← Run.attachLog path then
      Run.log .startup (.warn s!"Cannot open log file {path}: {e.message}")

/-- Creates the lists and puts together what the engine gets. -/
def offerLists (o : CommandLine.Options) (s : Store) (source : Source) (h : Holdings) :
    Run Prepared := do
  let paths := ListPaths.make o.runDir (s.tuning.card.getD 0) s.tuning.tuner s.cam.support
  let lists ← createLists paths s
  Run.reach .listsAttempted
  if !lists.canRefresh then
    Run.log .startup (.warn "Channel lists are not writable, they will not be refreshed")
  return ⟨.ok (some { store := s, source, paths, canRefresh := lists.canRefresh }),
    h.keepFiles lists.created⟩

/-- Writes the file with the process id, if the process runs in the background. -/
def equip (o : CommandLine.Options) (s : Store) (source : Source) (h : Holdings) :
    Run Prepared := do
  if o.daemon then
    let path := s.options.pidFile
    match ← writePidFile path with
    | .error e => return ⟨.error (.cannotCreate path e), h⟩
    | .ok () => offerLists o s source (h.keepPidFile path)
  else offerLists o s source h

/-- Keeps the source, and goes on unless the end was asked for. -/
def keep (o : CommandLine.Options) (s : Store) (source : Source) : Run Prepared := do
  Run.reach .deviceKept
  let h := Holdings.keepSource {} source
  if ← stopRequested then return ⟨.ok none, h⟩
  equip o s source h

/-- Without a source the process fails, unless tuning only stopped because the end was asked for. -/
def giveUpTuning (e : TuneError) : Run Prepared := do
  if e = .interrupted then
    if ← Run.isInterrupted then
      Run.log .startup (.info "Stop requested while tuning, skipping the remaining startup steps")
      return ⟨.ok none, {}⟩
  return ⟨.error (.tuning e), {}⟩

/-- The stages after the parameters are known. -/
def prepareWith (o : CommandLine.Options) (f : Frontend) (s : Store) : Run Prepared := do
  Run.reach .resolved
  openLog s
  Run.log .startup startRecord
  if ← stopRequested then return ⟨.ok none, {}⟩
  match (← Tuner.acquire f s.tuning).result with
  | .error e => giveUpTuning e
  | .ok source => keep o s source

/-- The stages before the engine. -/
def prepare (o : CommandLine.Options) (f : Frontend) : Run Prepared := do
  match ← load o with
  | .error e => return ⟨.error (.configuration e), {}⟩
  | .ok s => prepareWith o f s

/-! ### The engine and the end -/

/-- Runs the engine with what it gets, and keeps the workers that still run. -/
def runEngine (e : Engine) (handoff : Handoff) (h : Holdings) :
    Run (Except StageError Unit × Holdings) := do
  Run.reach .engineStarted
  match ← e.run handoff with
  | .error err => return (.error (.engine err), h)
  | .ok workers => return (.ok (), h.keepWorkers workers)

/-- The stages from the engine on, up to the exit status. -/
def conclude (e : Engine) (p : Prepared) : Run Int := do
  let (result, h) ←
    match p.result with
    | .error err => pure (.error err, p.holdings)
    | .ok none => pure (.ok (), p.holdings)
    | .ok (some handoff) => runEngine e handoff p.holdings
  if let .error err := result then
    Run.log .startup (.error err.message)
    Run.interrupt err.exitCode
  return (← close h).1

/-- The whole life of the process, up to the exit status. -/
def start (o : CommandLine.Options) (f : Frontend) (e : Engine) : Run Int := do
  conclude e (← prepare o f)

theorem prepare_of_load_error {o : CommandLine.Options} {w w' : World} {e : ConfigError}
    (h : load o w = .ok (.error e) w') (f : Frontend) :
    prepare o f w = .ok ⟨.error (.configuration e), {}⟩ w' := by
  simp only [prepare, bind, EStateM.bind, h]
  rfl

end Headend.Service
