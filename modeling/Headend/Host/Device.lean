import Headend.Tuner.Parameters
import Headend.Tuner.Status
import Headend.Text.Blank
import Headend.Text.Utf8

/-!
# Devices

A front-end device as the host presents it: its name and type, the statuses that it reports one
after the other, and the requests that it refuses. The host may refuse it further requests at any
time.

Facts: `nextStatus_flags` (the readings with a status are optional), `nextStatus_reads` (reading a
status counts one).
-/

namespace Headend.Host

open Headend.Text (Octets)
open Headend.Tuner (Status)

/-- A request that a device may refuse. -/
inductive Request where
  | tone | voltage | diseqc | setFrontend
  /-- The flags of a status. -/
  | status
  /-- The readings that go with a status. -/
  | strength | snr
deriving DecidableEq

/-- A front-end device. -/
structure Device where
  /-- The field for the name; a device without one does not tell what it is. -/
  name : Option Octets := none
  type : UInt32 := 0
  /-- The flags of the statuses in the order in which they are read; the last one repeats. A
  status may be missing. -/
  statuses : List (Option UInt32) := []
  /-- A signal that arrives while the status of a number is read, counted from zero. -/
  statusSignal : Option (Nat × Int) := none
  strength : Option UInt16 := none
  snr : Option UInt16 := none
  /-- The requests that fail. -/
  refused : List Request := []
  /-- How many statuses have been read. -/
  reads : Nat := 0
deriving DecidableEq

namespace Device

/-- The most octets of a name. -/
def maxNameSize : Nat := 127

/-- The text in the field for the name: what stands before its end, without blanks around it. -/
def readName (field : Octets) : String :=
  let octets := (field.take maxNameSize).takeWhile (· != 0)
  String.ofList (Text.trim (Text.decode octets))

/-- The name and the type that a device tells. -/
def identity (d : Device) : Except Failure (String × UInt32) :=
  match d.name with
  | some field => .ok (readName field, d.type)
  | none => .error .noDevice

/-- The flags of a device that reports nothing else: all that have a name. -/
def defaultFlags : UInt32 := 31

/-- The flags of the next status. -/
def nextFlags (d : Device) : Option UInt32 :=
  ((d.statuses[d.reads]?).or d.statuses.getLast?).getD (some defaultFlags)

/-- The signal that arrives while the next status is read. -/
def nextSignal (d : Device) : Option Int :=
  match d.statusSignal with
  | some (n, signal) => if n = d.reads then some signal else none
  | none => none

/-- The answer to a request. Some are refused for a reason that the host has, others by the
device. -/
def answer (d : Device) (refusal : Request → Option Failure) (r : Request) : Except Failure Unit :=
  match refusal r with
  | some e => .error e
  | none => if d.refused.contains r then .error .invalid else .ok ()

/-- A reading that goes with a status. It is left out if it is refused. -/
def reading (d : Device) (refusal : Request → Option Failure) (r : Request)
    (value : Option UInt16) : Option UInt16 :=
  match d.answer refusal r with
  | .ok () => value
  | .error _ => none

/-- The next status, and the device after it. -/
def nextStatus (d : Device) (refusal : Request → Option Failure) :
    Except Failure Status × Device :=
  (match d.answer refusal .status, d.nextFlags with
   | .ok (), some flags =>
     .ok {
       flags
       strength := d.reading refusal .strength d.strength
       snr := d.reading refusal .snr d.snr }
   | .ok (), none => .error .inputOutput
   | .error e, _ => .error e,
   { d with reads := d.reads + 1 })

/-- Whether there is a status and what flags it has is no matter of the readings with it. -/
theorem nextStatus_flags (d : Device) {refusal refusal' : Request → Option Failure}
    (h : refusal .status = refusal' .status) :
    (d.nextStatus refusal).1.map Status.flags = (d.nextStatus refusal').1.map Status.flags := by
  unfold nextStatus
  dsimp only
  rw [show d.answer refusal .status = d.answer refusal' .status by rw [answer, answer, h]]
  cases d.answer refusal' .status <;> cases d.nextFlags <;> rfl

theorem nextStatus_reads (d : Device) (refusal : Request → Option Failure) :
    (d.nextStatus refusal).2.reads = d.reads + 1 :=
  rfl

end Device

end Headend.Host
