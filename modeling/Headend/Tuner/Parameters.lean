import Headend.Config.Parameters
import Headend.Number.Integer

/-!
# Parameters of a front-end

What the front-end is programmed with, computed from the tuning parameters: a frequency and seven
words, which mean something else for each kind of front-end. The arithmetic is that of words; a
result that does not fit ends the process.

Facts: `band_eq_high_iff` (when the high band is used).
-/

namespace Headend.Tuner

open Headend.Config
open Headend.Number (Binary64 largest least)

/-- An arithmetic result that its word cannot hold. -/
inductive Overflow where
  | multiplication
  | subtraction
deriving DecidableEq

/-- The text of an overflow. -/
def Overflow.message : Overflow → String
  | multiplication => "attempt to multiply with overflow"
  | subtraction => "attempt to subtract with overflow"

/-- Why a front-end could not be tuned. -/
inductive TuneError where
  /-- The device or the recorded stream could not be opened. -/
  | cannotOpen (path : String) (failure : Host.Failure)
  /-- The device refused a request. -/
  | device (failure : Host.Failure)
  /-- There is no front-end of such a type. -/
  | unsupported (type : UInt32)
  /-- The frequency to program is zero. -/
  | noFrequency
  /-- A satellite needs a polarization. -/
  | noPolarization
  /-- The process is to end. -/
  | interrupted
deriving DecidableEq

namespace TuneError

/-- The text of an error. -/
def message : TuneError → String
  | cannotOpen path failure => s!"Cannot open {path}: {failure.message}"
  | device failure => s!"Front-end I/O error: {failure.message}"
  | unsupported type => s!"Bad tuning parameters: unsupported front-end type {type.toNat}"
  | noFrequency => "Bad tuning parameters: no frequency given"
  | noPolarization => "Bad tuning parameters: no polarization given"
  | interrupted => "Interrupted before the front-end was tuned"

/-- The exit code of every error. -/
def exitCode (_ : TuneError) : ExitCode := .tuning

end TuneError

/-! ### Kinds of front-ends -/

/-- The type number that devices for satellites report. -/
def satelliteType : UInt32 := 0

/-- The kinds of front-ends, by the signals that they take. -/
inductive Kind where
  | satellite | cable | terrestrial | atsc
deriving DecidableEq

namespace Kind

/-- The kind of a type number that a device reports. -/
def ofType? (type : UInt32) : Option Kind :=
  match type.toNat with
  | 0 => some satellite
  | 1 => some cable
  | 2 => some terrestrial
  | 3 => some atsc
  | _ => none

/-- The name of a kind. -/
def name : Kind → String
  | satellite => "DVB-S"
  | cable => "DVB-C"
  | terrestrial => "DVB-T"
  | atsc => "ATSC"

/-- The kind that a delivery system needs. -/
def ofSystem : DeliverySystem → Kind
  | .dvbS | .dvbS2 => satellite
  | .dvbC => cable
  | .dvbT | .dvbT2 | .isdbT => terrestrial
  | .atsc => atsc

/-- The name of a type number. -/
def typeName (type : UInt32) : String :=
  match ofType? type with
  | some k => k.name
  | none => "unknown"

theorem ofType?_eq_satellite (type : UInt32) :
    (ofType? type == some satellite) = (type == satelliteType) := by
  have hzero : type = satelliteType ↔ type.toNat = 0 := UInt32.toNat_inj.symm
  rw [Bool.eq_iff_iff, beq_iff_eq, beq_iff_eq, hzero]
  unfold ofType?
  split <;> simp_all

end Kind

/-- The kind that a front-end is driven as: the one of the delivery system if one was asked for,
else its own. -/
def drivenAs (t : Tuning) (type : UInt32) : Option Kind :=
  match t.deliverySystem with
  | some s => some (.ofSystem s)
  | none => Kind.ofType? type

/-! ### Frequencies -/

/-- The bands of a universal converter. -/
inductive Band where
  | low | high
deriving DecidableEq

/-- The band of a frequency. Only a universal converter has a high one. -/
def band (t : Tuning) : Band :=
  match t.lnb.kind with
  | .universal => if t.freq.atLeast t.lnb.slof.toNat then .high else .low
  | .standard => .low

/-- The frequency of the oscillator in use, in MHz. -/
def oscillator (t : Tuning) : UInt32 :=
  match t.lnb.kind, band t with
  | .universal, .high => t.lnb.lofHigh
  | .universal, .low => t.lnb.lofLow
  | .standard, _ => t.lnb.lofStandard

/-- A result within 64 bits with sign, or the overflow. -/
def fitsInt64 (n : Int) (o : Overflow) : Except Overflow Int :=
  if least ≤ n ∧ n ≤ largest then .ok n else .error o

/-- The frequency in kHz, rounded; one beyond 64 bits is the nearest that fits. -/
def kilohertz (freq : Binary64) : Int :=
  (freq.scale 1000).toInteger least largest

/-- A frequency as the word that it is programmed with; one beyond 32 bits is the greatest word. -/
def frequencyWord (n : Nat) : UInt32 := UInt32.ofNat (min n (UInt32.size - 1))

/-- What arrives from the converter: the distance between frequency and oscillator, in kHz. -/
def intermediate (t : Tuning) : Except Overflow UInt32 := do
  let difference ← fitsInt64 (kilohertz t.freq - (oscillator t).toNat * 1000) .subtraction
  return frequencyWord difference.natAbs

/-- The frequency in Hz, rounded and bounded by 32 bits. -/
def hertz (freq : Binary64) : UInt32 :=
  UInt32.ofNat ((freq.scale 1000000).toInteger 0 (UInt32.size - 1 : Nat)).toNat

/-- The symbol rate per second. -/
def symbolRate (t : Tuning) : Except Overflow UInt32 :=
  let n := t.srate.toNat * 1000
  if n < UInt32.size then .ok (UInt32.ofNat n) else .error .multiplication

/-! ### Words -/

/-- The word that leaves the inversion to the device. -/
def inversionAuto : UInt32 := 2

/-- The word that leaves the error correction to the device. -/
def fecAuto : UInt32 := 9

/-- The word that leaves the modulation to the device. -/
def qamAuto : UInt32 := 6

/-- The word for the modulation of terrestrial broadcasts after the American standard. -/
def vsb8 : UInt32 := 7

/-- The words that leave transmission mode, guard interval and hierarchy to the device. -/
def terrestrialAuto : List UInt32 := [2, 4, 4]

/-- The word of a bandwidth. -/
def bandwidthWord (mhz : UInt32) : UInt32 :=
  match mhz.toNat with
  | 8 => 0
  | 7 => 1
  | 6 => 2
  | _ => 3

/-- The modulations that have a word of their own. -/
def modulations : List (String × UInt32) :=
  [("QPSK", 0), ("QAM16", 1), ("QAM_16", 1), ("QAM32", 2), ("QAM_32", 2), ("QAM64", 3),
   ("QAM_64", 3), ("QAM128", 4), ("QAM_128", 4), ("QAM256", 5), ("QAM_256", 5)]

/-- The word of a modulation. -/
def modulationWord (modulation : Option String) : UInt32 :=
  match modulation with
  | some m => (modulations.lookup (upperCase m)).getD qamAuto
  | none => qamAuto

/-- Whether a name contains the letters of the cable modulations. -/
def namesQam (cs : List Char) : Bool :=
  match cs with
  | [] => false
  | c :: r => ['Q', 'A', 'M'].isPrefixOf (c :: r) || namesQam r

/-- The word of a modulation after the American standard. -/
def atscWord (modulation : Option String) : UInt32 :=
  match modulation with
  | some m => if namesQam (upperCase m).toList then modulationWord modulation else vsb8
  | none => vsb8

/-- What a front-end is programmed with. -/
structure Parameters where
  frequency : UInt32
  inversion : UInt32 := inversionAuto
  words : List UInt32
deriving DecidableEq

/-- Seven words, of which the first are given. -/
def sevenWords (first : List UInt32) : List UInt32 := first ++ List.replicate (7 - first.length) 0

/-- The parameters for a kind of front-end. -/
def parametersFor (t : Tuning) : Kind → Except Overflow Parameters
  | .satellite => do
    return { frequency := ← intermediate t, words := sevenWords [← symbolRate t, fecAuto] }
  | .cable => do
    let rate ← symbolRate t
    return {
      frequency := hertz t.freq
      words := sevenWords [rate, fecAuto, modulationWord t.modulation] }
  | .terrestrial =>
    .ok {
      frequency := hertz t.freq
      words := [bandwidthWord t.bandwidth, fecAuto, fecAuto, qamAuto] ++ terrestrialAuto }
  | .atsc => .ok { frequency := hertz t.freq, words := sevenWords [atscWord t.modulation] }

/-- The parameters for a front-end of a type. A frequency of zero is none. -/
def parameters (t : Tuning) (type : UInt32) : Except Overflow (Except TuneError Parameters) :=
  match drivenAs t type with
  | none => .ok (.error (.unsupported type))
  | some kind => do
    let p ← parametersFor t kind
    return if p.frequency = 0 then .error .noFrequency else .ok p

theorem band_eq_high_iff (t : Tuning) :
    band t = .high ↔ t.lnb.kind = .universal ∧ t.freq.atLeast t.lnb.slof.toNat = true := by
  unfold band
  cases t.lnb.kind <;> simp

/-! ### Setting up the converter -/

/-- The supply of a converter. -/
inductive Voltage where
  | v13 | v18 | off
deriving DecidableEq

/-- The word of a supply. -/
def Voltage.word : Voltage → UInt32
  | v13 => 0
  | v18 => 1
  | off => 2

/-- The word of a tone that is on or off. -/
def toneWord (on : Bool) : UInt32 := if on then 0 else 1

/-- The supply that a polarization needs. -/
def voltage (t : Tuning) (pol : Polarization) : Voltage :=
  if t.lnb.voltageOff then .off else if pol.isHighVoltage then .v18 else .v13

/-- One bit of a command. -/
def bit (b : Bool) : Nat := if b then 1 else 0

/-- The command that turns the satellite switch to a position, counted from one. -/
def switchCommand (position : UInt8) (horizontal high : Bool) : List UInt8 :=
  let place := (position.toNat - 1) % 4
  [0xe0, 0x10, 0x38, UInt8.ofNat (0xf0 + place * 4 + bit horizontal * 2 + bit high)]

end Headend.Tuner
