import Headend.Number.Integer

/-!
# Status of a front-end

A status is a word of flags, with readings of strength and quality that a device may not have.

Facts: `hasLock_iff` (the lock is the fifth flag).
-/

namespace Headend.Tuner

/-- A reading of a front-end's status. -/
structure Status where
  flags : UInt32
  strength : Option UInt16 := none
  snr : Option UInt16 := none
deriving DecidableEq

namespace Status

/-- The flags that have a name, from the lowest bit on. -/
def flagNames : List String := ["SIGNAL", "CARRIER", "VITERBI", "SYNC", "LOCK"]

/-- Whether a flag is set. -/
def hasFlag (s : Status) (bit : Nat) : Bool := s.flags.toNat.testBit bit

/-- Whether the front-end is locked to its signal. -/
def hasLock (s : Status) : Bool := s.hasFlag 4

/-- The status of a stream that needs no front-end: every named flag is set. -/
def locked : Status := { flags := 31 }

/-- The names of the flags that are set. -/
def setNames (s : Status) : List String :=
  (flagNames.zipIdx.filter fun f => s.hasFlag f.2).map (·.1)

/-- A reading after its name, if there is one. -/
def reading (name : String) : Option UInt16 → String
  | some v => s!", {name} {v.toNat}"
  | none => ""

/-- The text of a status. -/
def text (s : Status) : String :=
  (if s.setNames = [] then "no signal" else " | ".intercalate s.setNames) ++
    reading "strength" s.strength ++ reading "snr" s.snr

theorem hasLock_iff (s : Status) : s.hasLock = true ↔ s.flags.toNat / 16 % 2 = 1 := by
  simp [hasLock, hasFlag, Nat.testBit_eq_decide_div_mod_eq]

end Status

end Headend.Tuner
