import Headend.Host.World
import Headend.Tuner.Source

/-!
# Shutdown

What a run has acquired is kept in one place, and closing it is the one way in which it is given
back: workers are waited for, the source is closed, and the generated files are removed in the order
in which they came, the file with the process id last. The exit status follows from the cause of the
end as it is after all that.

Facts: `close_of_closed` (closing again does nothing and tells the same status).
-/

namespace Headend.Service

open Headend.Host
open Headend.Signal (Cause)
open Headend.Tuner (Source)

/-- A thread that works beside the process until the end. -/
structure Worker where
  name : Option String := none
  /-- The step by which the thread is over. -/
  endsAt : Nat := 0
  /-- Whether the thread breaks down in the end. -/
  breaksDown : Bool := false
deriving DecidableEq

/-- What a run has acquired. -/
structure Holdings where
  source : Option Source := none
  files : List String := []
  pidFile : Option String := none
  workers : List Worker := []
  /-- The exit status, once everything has been given back. -/
  status : Option Int := none
deriving DecidableEq

namespace Holdings

/-- Whether everything has been given back. -/
def isClosed (h : Holdings) : Bool := h.status.isSome

/-- Keeps a source until the end. -/
def keepSource (h : Holdings) (s : Source) : Holdings := { h with source := some s }

/-- Keeps files until the end. -/
def keepFiles (h : Holdings) (paths : List String) : Holdings :=
  { h with files := h.files ++ paths }

/-- Keeps the file with the process id until the end. -/
def keepPidFile (h : Holdings) (path : String) : Holdings := { h with pidFile := some path }

/-- Keeps workers until the end. -/
def keepWorkers (h : Holdings) (ws : List Worker) : Holdings :=
  { h with workers := h.workers ++ ws }

/-- The files to remove, in order. -/
def removals (h : Holdings) : List String := h.files ++ h.pidFile.toList

end Holdings

/-- The warning about a worker that broke down. -/
def Worker.breakdown (worker : Worker) : Record :=
  let name := worker.name.getD "unnamed"
  .warn s!"Thread {name} panicked"

/-- Waits until a worker is over, and says if it broke down. -/
def joinWorker (worker : Worker) : Run Unit := do
  Run.waitFor worker.endsAt
  Run.reach (.joined worker.name)
  if worker.breaksDown then Run.log .shutdown worker.breakdown

/-- Waits for workers, one after the other. -/
def joinWorkers : List Worker → Run Unit
  | [] => pure ()
  | worker :: rest => do joinWorker worker; joinWorkers rest

/-- Removes a generated file. One that is gone already is no failure; any other failure is a cause
of the end. -/
def removeGenerated (path : String) : Run Unit := do
  match ← Run.removeFile path with
  | .ok () | .error .missing => return
  | .error e =>
    Run.log .shutdown (.error s!"{path}: {e.message}")
    Run.interrupt .removeFile

/-- Removes generated files, one after the other. -/
def removeAll : List String → Run Unit
  | [] => pure ()
  | path :: rest => do removeGenerated path; removeAll rest

/-- The exit status for a cause of the end. -/
def exitStatus (cause : Option Cause) : Int := (cause.map Cause.exitStatus).getD 0

/-- The last record of the process. -/
def farewell : Option Cause → Record
  | some (.signal n) => .info s!"Caught signal {n} - closing cleanly."
  | some (.error code) => .info s!"Closing cleanly. Error {code.number}"
  | none => .info "Closing cleanly."

/-- Gives back everything, and tells the exit status. -/
def close (h : Holdings) : Run (Int × Holdings) := do
  match h.status with
  | some status => return (status, h)
  | none =>
    Run.reach .closing
    joinWorkers h.workers
    if let some s := h.source then Run.reach (.closed s.path)
    removeAll h.removals
    let cause ← Run.interrupted
    Run.log .shutdown (farewell cause)
    return (exitStatus cause, { status := some (exitStatus cause) })

theorem close_of_closed {h : Holdings} {status : Int} (hs : h.status = some status) (w : World) :
    close h w = .ok (status, h) w := by
  simp only [close, hs]
  rfl

end Headend.Service
