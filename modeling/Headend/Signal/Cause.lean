import Headend.ExitCode

/-!
# Causes of the end

Why the process ends is kept in one word: zero while there is no cause, the number of a signal, or
the number of an exit code in the bits above the lowest eight.

Facts: `decode_encode_error` (an error is read back from its word), `decode_eq_none_iff` (only zero
is no cause).
-/

namespace Headend.Signal

/-- Why the process ends. -/
inductive Cause where
  /-- A signal asked for it. -/
  | signal (number : Int)
  /-- Something failed. -/
  | error (code : ExitCode)
deriving DecidableEq

namespace Cause

/-- The word of a cause. -/
def encode : Cause → Int
  | signal n => n
  | error code => code.number * 256

/-- The cause of a word. A word whose lowest eight bits are clear is an error, and one without a
code of its own is a generic error. -/
def decode (word : Int) : Option Cause :=
  if word = 0 then none
  else if word % 256 = 0 then some (error ((ExitCode.ofNumber? (word / 256)).getD .generic))
  else some (signal word)

/-- The status that the process ends with. A signal is no failure. -/
def exitStatus : Cause → Int
  | signal _ => 0
  | error code => code.number

theorem decode_encode_error (code : ExitCode) : decode (error code).encode = some (error code) := by
  cases code <;> decide

theorem decode_eq_none_iff (word : Int) : decode word = none ↔ word = 0 := by
  unfold decode
  split
  · simp [*]
  · split <;> simp [*]

end Cause

end Headend.Signal
