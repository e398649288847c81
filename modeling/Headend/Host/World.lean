import Headend.Host.Device
import Headend.Host.LogSink
import Headend.Log
import Headend.Signal.State

/-!
# The world of a run

A run changes the files, the devices, the signal state and the log, and others change them
meanwhile. What others do is given beforehand: an agenda with an entry for each time that the
process sleeps, and a schedule of what happens between any two steps. So are the steps at which the
host refuses a request. When the agenda is used up, the next long sleep brings the signal that asks
for the end, so every run ends.

What happened is kept in order as a trace.

Facts: `Run.clock_step` (a step is counted), `World.agenda_slept` (a sleep takes one entry of the
agenda).
-/

namespace Headend.Host

open Headend.Text (Octets)
open Headend.Tuner (Overflow Status)
open Headend.Signal (Disposition)

/-- Something that others do while the process runs. -/
inductive Interference where
  | signal (number : Int)
  | rename (source target : String)
  | remove (path : String)
  | removeTree (path : String)
  | makeDirectory (path : String)
  | write (path : String) (content : Octets)
  /-- Someone looks at the names in the working directory. -/
  | list

/-- A point that a run has reached. -/
inductive Milestone where
  /-- The parameters are resolved. -/
  | resolved
  /-- The log goes to a file. -/
  | logAttached (path : String)
  /-- A device or a recorded stream is open. -/
  | opened (path : String)
  /-- A device or a recorded stream is closed. -/
  | closed (path : String)
  /-- The device will be closed at the end. -/
  | deviceKept
  /-- A file of the process has been created, or emptied. -/
  | created (path : String) (id : FileId)
  /-- A file of the process holds all that it should. -/
  | completed (path : String)
  /-- The process removed a file. -/
  | removed (path : String) (id : FileId)
  /-- The process tried to remove a file and could not. -/
  | notRemoved (path : String) (failure : Failure)
  /-- The channel lists have been attempted. -/
  | listsAttempted
  /-- The engine has the device. -/
  | engineStarted
  /-- The process found a cause of the end, whether or not one was set before. -/
  | failed (code : ExitCode)
  /-- The end has begun. -/
  | closing
  /-- A thread is over, and the process has waited for it. -/
  | joined (name : Option String)
deriving DecidableEq

/-- Something that happened. -/
inductive Event where
  | log (a : Area) (r : Record)
  | alarm (seconds : UInt32)
  | tone (word : UInt32)
  | voltage (word : UInt32)
  | diseqc (command : List UInt8)
  | setFrontend (parameters : Tuner.Parameters)
  | readStatus
  | sleep (milliseconds : Nat)
  | signal (number : Int) (d : Disposition)
  | listed (names : List String)
  | reached (m : Milestone)
deriving DecidableEq

/-- What the host has against a request on a generated file: why it refuses, and how many octets of
a text it still writes. -/
structure Fault where
  failure : Failure
  taken : Nat := 0
deriving DecidableEq

/-- All that a run depends on and changes. -/
structure World where
  files : FileSystem := {}
  /-- The devices, by the files that they stand for. -/
  devices : List (FileId × Device) := []
  signals : Signal.State := {}
  sink : LogSink := {}
  /-- Which records of an area go to the log file. -/
  logFilter : Area → LogFilter := fun _ => .off
  processId : Nat := 1
  /-- The step by which a thread that is started is over, if the host can start one more. -/
  threadEnd : Option Nat := some 0
  /-- What others do during the sleeps of the process. -/
  agenda : List (List Interference) := []
  /-- What others do before each step of the process. -/
  schedule : Nat → List Interference := fun _ => []
  /-- At which steps the host refuses a request on a generated file. -/
  faults : Nat → Option Fault := fun _ => none
  /-- At which steps it refuses which requests to a device. -/
  refusals : Nat → Request → Option Failure := fun _ _ => none
  /-- The number of steps taken. -/
  clock : Nat := 0
  trace : List Event := []

namespace World

/-- Adds to what happened. -/
def emit (w : World) (e : Event) : World := { w with trace := w.trace ++ [e] }

/-- Delivers a signal. -/
def deliver (w : World) (n : Int) : World :=
  let (d, signals) := w.signals.handle n
  { w with signals }.emit (.signal n d)

/-- Something that others do happens. -/
def meddle (w : World) : Interference → World
  | .signal n => w.deliver n
  | .rename a b => { w with files := w.files.rename a b }
  | .remove path =>
    match w.files.removeFile path with
    | .ok (_, files) => { w with files }
    | .error _ => w
  | .removeTree path => { w with files := w.files.removeTree path }
  | .makeDirectory path => { w with files := w.files.makeDirectory path }
  | .write path content => { w with files := w.files.writeFile path content }
  | .list => w.emit (.listed w.files.listing)

/-- Everything on a list happens, in order. -/
def meddleAll (w : World) (is : List Interference) : World := is.foldl meddle w

/-- The world at the next step: what others do before it has happened. -/
def advance (w : World) : World :=
  { w.meddleAll (w.schedule w.clock) with clock := w.clock + 1 }

/-- The fault that the current step meets. -/
def fault (w : World) : Option Fault := w.faults w.clock

/-- Why requests to a device are refused at the current step, as far as they are. -/
def refusal (w : World) : Request → Option Failure := w.refusals w.clock

/-- A request that changes the tree. One that fails changes nothing. -/
def attempt (w : World) (request : FileSystem → Except Failure (α × FileSystem)) :
    Except Failure α × World :=
  match w.fault with
  | some fault => (.error fault.failure, w)
  | none =>
    match request w.files with
    | .ok (a, files) => (.ok a, { w with files })
    | .error e => (.error e, w)

/-- Leaves a record of an area in the trace, and in the log file if the filter keeps it. -/
def record (w : World) (a : Area) (r : Record) : World :=
  let w := w.emit (.log a r)
  if (w.logFilter a).keeps r then
    { w with files := w.sink.write w.files (Text.octets r.line) }
  else w

/-- The shortest sleep that is worth waiting for, in milliseconds. -/
def longSleep : Nat := 100

/-- The process sleeps: the next entry of the agenda happens. -/
def slept (w : World) (milliseconds : Nat) : World :=
  let w := w.emit (.sleep milliseconds)
  match w.agenda with
  | entry :: rest => { w with agenda := rest }.meddleAll entry
  | [] => if longSleep ≤ milliseconds then w.deliver Signal.terminate else w

/-- The device that a file stands for. -/
def device? (w : World) (id : FileId) : Option Device := w.devices.lookup id

/-- Replaces the device that a file stands for. -/
def setDevice (w : World) (id : FileId) (d : Device) : World :=
  { w with devices := w.devices.map fun e => if e.1 = id then (id, d) else e }

/-! ### The agenda -/

theorem agenda_meddle (w : World) (i : Interference) : (w.meddle i).agenda = w.agenda := by
  cases i with
  | remove path =>
    simp only [meddle]
    split <;> rfl
  | _ => rfl

theorem agenda_meddleAll (w : World) (is : List Interference) :
    (w.meddleAll is).agenda = w.agenda := by
  unfold meddleAll
  induction is generalizing w with
  | nil => rfl
  | cons i rest ih => rw [List.foldl_cons, ih, agenda_meddle]

theorem agenda_slept (w : World) (n : Nat) : (w.slept n).agenda = w.agenda.tail := by
  unfold slept
  dsimp only
  split <;> rename_i h
  · rw [agenda_meddleAll]
    have : w.agenda = _ := h
    rw [this, List.tail_cons]
  · have : w.agenda = [] := h
    split <;> exact this.trans (by rw [this, List.tail_nil])

end World

/-- A part of a run. It ends with a value, or with an arithmetic result that does not fit. -/
abbrev Run := EStateM Overflow World

namespace Run

/-- One step: what others do before it has happened. -/
def step (f : World → α × World) : Run α := fun w =>
  let (a, w) := f w.advance
  .ok a w

/-- A step that only changes the world. -/
def change (f : World → World) : Run Unit := step fun w => ((), f w)

/-- A step that only looks at the world. -/
def look (f : World → α) : Run α := step fun w => (f w, w)

/-- The value of an arithmetic result, if it fits. -/
def arithmetic : Except Overflow α → Run α
  | .ok a => pure a
  | .error o => throw o

/-- Leaves a record of an area in the log. -/
def log (a : Area) (r : Record) : Run Unit := change (·.record a r)

/-- Leaves records of an area in the log, one after the other. -/
def logAll (a : Area) : List Record → Run Unit
  | [] => pure ()
  | r :: rest => do log a r; logAll a rest

/-- Says that a point of the run is reached. -/
def reach (m : Milestone) : Run Unit := change (·.emit (.reached m))

/-- Sleeps. -/
def sleep (milliseconds : Nat) : Run Unit := change (·.slept milliseconds)

/-- Lets steps pass in which only others act. -/
def idle : (steps : Nat) → Run Unit
  | 0 => pure ()
  | steps + 1 => do look fun _ => (); idle steps

/-- Waits for a moment, which is counted in steps. -/
def waitFor (moment : Nat) : Run Unit := fun w => idle (moment - w.clock) w

/-- How many entries the agenda still has. -/
def agendaLength : Run Nat := fun w => .ok w.agenda.length w

/-! ### Signals -/

/-- Whether a cause of the end is set. -/
def isInterrupted : Run Bool := look (·.signals.isInterrupted)

/-- The cause of the end, if one is set. -/
def interrupted : Run (Option Signal.Cause) := look (·.signals.interrupted)

/-- Makes a failure the cause of the end, unless one is set. -/
def interrupt (code : ExitCode) : Run Unit := change fun w =>
  { w with signals := (w.signals.interrupt (.error code)).2 }.emit (.reached (.failed code))

/-- Says whether the card is tuned. -/
def setTuned (tuned : Bool) : Run Unit :=
  change fun w => { w with signals := w.signals.setTuned tuned }

/-- Sets the alarm, in place of one that is set. -/
def arm (seconds : UInt32) : Run Unit := change (·.emit (.alarm seconds))

/-- Takes the advisory signal that is kept. -/
def takeSignal : Run (Option Int) := step fun w =>
  let (n, signals) := w.signals.take
  (n, { w with signals })

/-! ### Files -/

/-- Creates a file, or empties the one that is there. -/
def createFile (path : String) : Run (Except Failure FileId) := step fun w =>
  match w.attempt (·.openForWriting path true) with
  | (.ok id, w) => (.ok id, w.emit (.reached (.created path id)))
  | (.error e, w) => (.error e, w)

/-- Writes text to a file that is open. A fault may come after a part of it. -/
def writeText (id : FileId) (text : String) : Run (Except Failure Unit) := step fun w =>
  match w.fault with
  | some fault =>
    (.error fault.failure,
      { w with files := w.files.append id ((Text.octets text).take fault.taken) })
  | none => (.ok (), { w with files := w.files.append id (Text.octets text) })

/-- Tries to remove a file. -/
def removeFile (path : String) : Run (Except Failure Unit) := step fun w =>
  match w.attempt (·.removeFile path) with
  | (.ok id, w) => (.ok (), w.emit (.reached (.removed path id)))
  | (.error e, w) => (.error e, w.emit (.reached (.notRemoved path e)))

/-- Opens a file or directory for reading. -/
def openForReading (path : String) : Run (Except Failure Node) := look (·.files.find path)

/-- Reads what has been opened. A directory cannot be read. -/
def readNode : Node → Run (Except Failure Octets)
  | .directory => look fun _ => .error .isDirectory
  | .file id => look fun w => .ok (w.files.contentOf id)

/-- Sends the log to a file. -/
def attachLog (path : String) : Run (Except Failure Unit) := step fun w =>
  let done := w.sink.attach w.files path
  let w := { w with sink := done.sink, files := done.files }
  match done.result with
  | .ok () => (.ok (), w.emit (.reached (.logAttached path)))
  | .error e => (.error e, w)

/-- Opens the log file again. -/
def reopenLog : Run (Except Failure Unit) := step fun w =>
  let done := w.sink.reopen w.files
  (done.result, { w with sink := done.sink, files := done.files })

/-! ### Laws -/

theorem clock_step (f : World → α × World) (hf : ∀ w, (f w).2.clock = w.clock) (w : World) :
    ∃ a w', step f w = .ok a w' ∧ w'.clock = w.clock + 1 :=
  ⟨_, _, rfl, by rw [hf]; rfl⟩

end Run

end Headend.Host
