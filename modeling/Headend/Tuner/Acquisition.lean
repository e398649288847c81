import Headend.Tuner.Frontend

/-!
# Acquiring a source

The steps from the tuning parameters to a source that delivers: open, arm the alarm, tune. With a
recording there is nothing to tune. Nothing is tried twice. A failure becomes the cause of the end,
and no device stays open.

Facts: `acquire_recording` (a recording needs neither front-end nor alarm).
-/

namespace Headend.Tuner

open Headend.Config (Tuning)
open Headend.Host

/-- How the steps ended. -/
inductive Progress where
  /-- The source delivers. -/
  | tuned
  /-- A step failed, or the end was asked for. -/
  | failed
deriving DecidableEq

/-- What the steps led to. -/
structure Acquired where
  progress : Progress
  result : Except TuneError Source

/-- The card is tuned to a source. -/
def succeed (s : Source) : Run Acquired := do
  Run.setTuned true
  return ⟨.tuned, .ok s⟩

/-- A step failed, which ends the process. -/
def giveUp (e : TuneError) : Run Acquired := do
  Run.log .acquisition (.error e.message)
  Run.interrupt e.exitCode
  return ⟨.failed, .error e⟩

/-- Opens a recording in the place of a front-end. -/
def acquireRecording (path : String) : Run Acquired := do
  match ← Run.openForReading path with
  | .error e => giveUp (.cannotOpen path e)
  | .ok _ =>
    Run.reach (.opened path)
    Run.log .acquisition (.info s!"Reading from {path} instead of a front-end, no tuning")
    succeed (.recording path)

/-- Tunes a device that is open, with the alarm armed if the time is limited. -/
def acquireDevice (f : Frontend) (t : Tuning) (d : OpenDevice) : Run Acquired := do
  if t.tuningTimeout > 0 then Run.arm t.tuningTimeout
  match ← f.tune d t with
  | .error e =>
    Run.reach (.closed d.path)
    giveUp e
  | .ok () =>
    Run.log .acquisition (.info s!"Card {d.describe} tuned")
    succeed (.device d)

/-- Opens and tunes the source that the parameters name. A front-end is closed again if the end was
asked for meanwhile. -/
def acquire (f : Frontend) (t : Tuning) : Run Acquired := do
  match t.readFilePath with
  | some path => acquireRecording path
  | none =>
    match ← f.openDevice t.cardDevPath t.tuner with
    | .error e => giveUp e
    | .ok d =>
      Run.reach (.opened d.path)
      if ← Run.isInterrupted then
        Run.log .acquisition (.info s!"Stop requested, closing {d.describe} before tuning")
        Run.reach (.closed d.path)
        return ⟨.failed, .error .interrupted⟩
      acquireDevice f t d

theorem acquire_recording (f : Frontend) {t : Tuning} {path : String}
    (h : t.readFilePath = some path) : acquire f t = acquireRecording path := by
  simp only [acquire, h]

end Headend.Tuner
