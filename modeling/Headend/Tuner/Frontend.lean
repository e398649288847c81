import Headend.Host.World
import Headend.Tuner.Source

/-!
# Front-ends

Opening a front-end, programming it and waiting until it is locked to the signal. Each request to
the device is a step of its own, and the first one that the device refuses ends the tuning.

Facts: `identify_ok` (an open device has told its name), `needsConverter_eq` (when a converter is
set up), `tune_of_parameters_error` (parameters that cannot be programmed reach no device).
-/

namespace Headend.Tuner

open Headend.Config (Tuning Polarization)
open Headend.Host

/-- The path of a front-end below the directory of its adapter. -/
def frontendPath (directory : String) (tuner : UInt32) : String :=
  joinPath directory s!"frontend{tuner.toNat}"

/-! ### Opening -/

/-- The file of a device. The host has no word of its own for a path that cannot be one, and a
directory cannot be opened for writing. -/
def deviceFile (fs : FileSystem) (path : String) : Except Failure FileId :=
  match fs.find path with
  | .ok (.file id) => .ok id
  | .ok .directory => .error .isDirectory
  | .error .endInPath => .error .invalid
  | .error e => .error e

/-- Opens a path as a device and asks what it is. -/
def identify (w : World) (path : String) : Except Failure OpenDevice := do
  let file ← deviceFile w.files path
  match w.device? file with
  | none => throw .noDevice
  | some d =>
    let (name, type) ← d.identity
    return { path, name, type, file }

/-- Opens a front-end of an adapter. -/
def openDevice (directory : String) (tuner : UInt32) : Run (Except TuneError OpenDevice) := do
  let path := frontendPath directory tuner
  match ← Run.look fun w => identify w path with
  | .error e => return .error (.cannotOpen path e)
  | .ok d =>
    Run.log .frontend (.info s!"Front-end {path} is a {Kind.typeName d.type} card: {d.name}")
    return .ok d

/-! ### Requests -/

/-- Sends a request to a device, which may refuse it. -/
def request (d : OpenDevice) (r : Request) (e : Event) : Run (Except Failure Unit) :=
  Run.step fun w =>
    (match w.device? d.file with
     | some device => device.answer w.refusal r
     | none => .error .noDevice,
     w.emit e)

/-- Reads the status of a device. A signal may arrive meanwhile. -/
def readStatus (d : OpenDevice) : Run (Except Failure Status) := Run.step fun w =>
  let w := w.emit .readStatus
  match w.device? d.file with
  | none => (.error .noDevice, w)
  | some device =>
    let (status, after) := device.nextStatus w.refusal
    let w := w.setDevice d.file after
    (status, match device.nextSignal with
      | some n => w.deliver n
      | none => w)

/-- The status of a source. A recording needs no front-end and is always locked. -/
def Source.readStatus : Source → Run (Except Failure Status)
  | device d => Tuner.readStatus d
  | recording _ => pure (.ok .locked)

/-- Goes on unless a request was refused. -/
def whenGranted (answer : Except Failure Unit) (next : Run (Except TuneError Unit)) :
    Run (Except TuneError Unit) :=
  match answer with
  | .ok () => next
  | .error e => pure (.error (.device e))

/-! ### Tuning -/

/-- How long a converter and a switch take to settle, in milliseconds. -/
def settlingTime : Nat := 15

/-- How long to wait between two looks at the status, in milliseconds. -/
def lockInterval : Nat := 100

/-- Turns the tone for the band on or off. -/
def setBandTone (d : OpenDevice) (t : Tuning) : Run (Except Failure Unit) :=
  let word := toneWord (band t = .high)
  request d .tone (.tone word)

/-- Turns the satellite switch to a position. -/
def turnSwitch (d : OpenDevice) (t : Tuning) (pol : Polarization) : Run (Except Failure Unit) :=
  let command := switchCommand t.satNumber pol.isHighVoltage (band t = .high)
  request d .diseqc (.diseqc command)

/-- Sets up the converter of a satellite dish: tone off, supply, switch, tone of the band. -/
def setUpConverter (d : OpenDevice) (t : Tuning) : Run (Except TuneError Unit) :=
  match t.pol with
  | none => pure (.error .noPolarization)
  | some pol => do
    whenGranted (← request d .tone (.tone (toneWord false))) do
    whenGranted (← request d .voltage (.voltage (voltage t pol).word)) do
    Run.sleep settlingTime
    if t.satNumber > 0 then
      whenGranted (← turnSwitch d t pol) do
      Run.sleep settlingTime
      whenGranted (← setBandTone d t) (pure (.ok ()))
    else
      whenGranted (← setBandTone d t) (pure (.ok ()))

/-- Whether the converter of a satellite dish is set up: for a delivery system that needs it, and
without one for a device of the type for satellites. -/
def needsConverter (t : Tuning) (type : UInt32) : Bool :=
  match t.deliverySystem with
  | some s => s.isSatellite
  | none => type == satelliteType

/-- Looks at the status until the device is locked or a cause of the end is set, at most as many
times as there are `rounds`. -/
def awaitLock (d : OpenDevice) : (rounds : Nat) → Run (Except TuneError Unit)
  | 0 => pure (.error .interrupted)
  | rounds + 1 => do
    if ← Run.isInterrupted then return .error .interrupted
    match ← readStatus d with
    | .error e => return .error (.device e)
    | .ok status =>
      if status.hasLock then
        Run.log .frontend (.info s!"Front-end locked: {status.text}")
        return .ok ()
      Run.sleep lockInterval
      awaitLock d rounds

/-- Programs a device and waits for its lock. After the agenda of sleeps there is one more, which
brings the end, so the rounds are enough. -/
def program (d : OpenDevice) (p : Parameters) : Run (Except TuneError Unit) := do
  whenGranted (← request d .setFrontend (.setFrontend p)) do
  awaitLock d ((← Run.agendaLength) + 2)

/-- Tunes a device. -/
def tune (d : OpenDevice) (t : Tuning) : Run (Except TuneError Unit) := do
  match ← Run.arithmetic (parameters t d.type) with
  | .error e => return .error e
  | .ok p =>
    if needsConverter t d.type then
      match ← setUpConverter d t with
      | .error e => return .error e
      | .ok () => program d p
    else program d p

/-! ### Any front-end -/

/-- How front-ends are opened and tuned. -/
structure Frontend where
  openDevice : (directory : String) → (tuner : UInt32) → Run (Except TuneError OpenDevice)
  tune : OpenDevice → Tuning → Run (Except TuneError Unit)

/-- The front-ends of the host. -/
def Frontend.hardware : Frontend where
  openDevice := Tuner.openDevice
  tune := Tuner.tune

/-! ### First facts -/

theorem identify_ok {w : World} {path : String} {d : OpenDevice} (h : identify w path = .ok d) :
    ∃ device field, w.device? d.file = some device ∧ device.name = some field ∧
      d.name = Device.readName field ∧ d.type = device.type ∧ d.path = path := by
  unfold identify at h
  match hf : deviceFile w.files path with
  | .error e => rw [hf] at h; cases h
  | .ok file =>
    rw [hf] at h
    simp only [bind, Except.bind] at h
    split at h
    · cases h
    · rename_i device hd
      match hn : device.name with
      | none => simp only [Device.identity, hn] at h; cases h
      | some field =>
        simp only [Device.identity, hn] at h
        cases h
        exact ⟨device, field, hd, hn, rfl, rfl, rfl⟩

/-- A converter is set up exactly where the parameters are those for satellites. -/
theorem needsConverter_eq (t : Tuning) (type : UInt32) :
    needsConverter t type = (drivenAs t type == some .satellite) := by
  unfold needsConverter drivenAs
  cases t.deliverySystem with
  | some s => cases s <;> rfl
  | none => exact (Kind.ofType?_eq_satellite type).symm

theorem tune_of_parameters_error {d : OpenDevice} {t : Tuning} {e : TuneError}
    (h : parameters t d.type = .ok (.error e)) (w : World) :
    tune d t w = .ok (.error e) w := by
  simp only [tune, h, Run.arithmetic]
  rfl

end Headend.Tuner
