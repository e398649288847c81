import Headend.Signal.Cause

/-!
# The signal state

Three registers that signals and the process share: the cause of the end, which is set once; the
last advisory signal, which is taken once; and whether the card is tuned.

Facts: `interrupt_of_ne_zero` (a cause that is set stays), `take_take` (a signal is taken once),
`tuned_handle` and `cause_handle_of_ne_zero` (what a signal cannot change).
-/

namespace Headend.Signal

/-- The number of the signal that hangs up. -/
def hangup : Int := 1

/-- The number of the first signal for the user. -/
def user1 : Int := 10

/-- The number of the second signal for the user. -/
def user2 : Int := 12

/-- The number of the signal for a broken pipe. -/
def brokenPipe : Int := 13

/-- The number of the signal of the alarm. -/
def alarm : Int := 14

/-- The number of the signal that asks for the end. -/
def terminate : Int := 15

/-- What became of a signal. -/
inductive Disposition where
  /-- The card was not tuned in time. -/
  | tuningTimeout
  /-- There is nothing to do. -/
  | ignored
  /-- The signal is kept for the engine. -/
  | advisory
  /-- The signal is a cause of the end. -/
  | interrupt
deriving DecidableEq

/-- The registers. Zero stands for no cause and for no signal. -/
structure State where
  cause : Int := 0
  received : Int := 0
  tuned : Bool := false
deriving DecidableEq

namespace State

/-- Whether a cause is set. -/
def isInterrupted (s : State) : Bool := s.cause != 0

/-- The cause that is set. -/
def interrupted (s : State) : Option Cause := Cause.decode s.cause

/-- Sets the cause unless one is set, and tells whether it did. -/
def interrupt (s : State) (c : Cause) : Bool × State :=
  if s.cause = 0 then (true, { s with cause := c.encode }) else (false, s)

/-- Keeps an advisory signal in the place of the one before. -/
def record (s : State) (n : Int) : State := { s with received := n }

/-- Takes the advisory signal that is kept. -/
def take (s : State) : Option Int × State :=
  (if s.received = 0 then none else some s.received, { s with received := 0 })

/-- Says whether the card is tuned. -/
def setTuned (s : State) (tuned : Bool) : State := { s with tuned }

/-- The registers as they were at first. -/
def reset (_ : State) : State := {}

/-- Whether a signal is kept for the engine. -/
def isAdvisory (n : Int) : Bool := n == user1 || n == user2 || n == hangup

/-- What a signal does to the registers, and what becomes of it. -/
def handle (s : State) (n : Int) : Disposition × State :=
  if n = alarm then (if s.isInterrupted || s.tuned then .ignored else .tuningTimeout, s)
  else if isAdvisory n then (.advisory, s.record n)
  else if n = brokenPipe then (.ignored, s)
  else (.interrupt, (s.interrupt (.signal n)).2)

/-! ### The registers keep what they should -/

theorem interrupt_of_ne_zero {s : State} (h : s.cause ≠ 0) (c : Cause) :
    s.interrupt c = (false, s) := by
  simp [interrupt, h]

theorem take_take (s : State) : s.take.2.take.1 = none := by
  simp [take]

theorem handle_alarm_snd (s : State) : (s.handle alarm).2 = s := by
  simp [handle]

@[simp] theorem tuned_interrupt (s : State) (c : Cause) : (s.interrupt c).2.tuned = s.tuned := by
  unfold interrupt
  split <;> rfl

@[simp] theorem received_interrupt (s : State) (c : Cause) :
    (s.interrupt c).2.received = s.received := by
  unfold interrupt
  split <;> rfl

@[simp] theorem tuned_handle (s : State) (n : Int) : (s.handle n).2.tuned = s.tuned := by
  unfold handle
  split
  · rfl
  · split
    · rfl
    · split
      · rfl
      · exact tuned_interrupt s _

theorem cause_handle_of_ne_zero {s : State} (h : s.cause ≠ 0) (n : Int) :
    (s.handle n).2.cause = s.cause := by
  unfold handle
  split
  · rfl
  · split
    · rfl
    · split
      · rfl
      · rw [interrupt_of_ne_zero h]

end State

end Headend.Signal
