import Headend.Signal.State

/-!
# Signals of the process

The process handles eight signals. One that its parent made it ignore stays ignored. An alarm that
finds the card not tuned ends the process at once with a line on the error output. Any other signal
is left to the host, which lets the process go on or ends it; but the two of a memory fault are
looked at once each, and one that comes without a fault is passed over.

Facts: `raise_of_ignored` (a handled signal that is ignored changes nothing),
`registers_raise_of_not_handled` (a signal that is not handled never reaches the registers).
-/

namespace Headend.Signal

/-- The signals that the process handles. -/
def handled : List Int := [alarm, user1, user2, hangup, brokenPipe, 2, terminate, 3]

/-- The number of the signal that nobody can ignore. -/
def kill : Int := 9

/-- The signals of a memory fault. -/
def faults : List Int := [7, 11]

/-- The signals by which the host ends no process: about children, urgent data and the window, and
those that only stop a process or let it go on. -/
def harmless : List Int := [17, 18, 19, 20, 21, 22, 23, 28]

/-- Whether a number is that of a signal. The host keeps two for itself. -/
def isSignal (n : Int) : Bool := 1 ≤ n && n ≤ 64 && n != 32 && n != 33

/-- The line that an alarm leaves when it ends the process. -/
def timeoutLine : String := "dvbzap: Card not tuned after timeout - exiting\n"

/-- A process that signals can reach. -/
structure Supervised where
  registers : State := {}
  /-- The signals that it ignores. -/
  ignored : List Int := []
  /-- The signals of a memory fault that are still looked at. -/
  watched : List Int := faults
deriving DecidableEq

namespace Supervised

/-- Whether the host ends the process by a signal that it does not handle. -/
def isFatal (p : Supervised) (n : Int) : Bool :=
  isSignal n && !harmless.contains n && (n == kill || !p.ignored.contains n)

/-- Whether a signal is looked at and passed over. -/
def watches (p : Supervised) (n : Int) : Bool := p.watched.contains n && !p.ignored.contains n

end Supervised

/-- What raising a signal did. -/
inductive Raised where
  /-- The process goes on. -/
  | goesOn (p : Supervised)
  /-- The process ended with a status and a line on the error output. -/
  | ended (status : Int) (line : String)
  /-- The host ended the process. -/
  | killed
deriving DecidableEq

namespace Supervised

/-- Raises a signal that the process does not handle. -/
def leave (p : Supervised) (n : Int) : Raised :=
  if p.watches n then .goesOn { p with watched := p.watched.erase n }
  else if p.isFatal n then .killed
  else .goesOn p

/-- Raises a signal. -/
def raise (p : Supervised) (n : Int) : Raised :=
  if !handled.contains n then p.leave n
  else if p.ignored.contains n then .goesOn p
  else
    match p.registers.handle n with
    | (.tuningTimeout, _) => .ended ExitCode.tuning.number timeoutLine
    | (_, registers) => .goesOn { p with registers }

theorem raise_of_ignored {p : Supervised} {n : Int} (hh : handled.contains n = true)
    (hi : p.ignored.contains n = true) : p.raise n = .goesOn p := by
  rw [raise, hh, hi]
  rfl

theorem registers_raise_of_not_handled {p q : Supervised} {n : Int}
    (hn : handled.contains n = false) (h : p.raise n = .goesOn q) :
    q.registers = p.registers := by
  rw [raise, hn] at h
  simp only [Bool.not_false, if_true, leave] at h
  split at h
  · cases h; rfl
  · split at h
    · cases h
    · cases h; rfl

end Supervised

end Headend.Signal
