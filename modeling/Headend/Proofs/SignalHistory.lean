import Headend.Signal.State
import Mathlib.Data.List.DropRight
import Mathlib.Data.List.Induction

/-!
# The signal state and its history

Each of the three registers has a policy of its own: of the causes the first counts, of the advisory
signals the last one, until it is taken, and of the words about the card the last one. So the state
can be told from the operations since the last reset, and here it is: the registers mirror the
history (`Mirrors`), each operation keeps it so, and with it any sequence of operations.

Facts: `cause_concat`, `pending_concat` and `tuned_concat` (the history, operation by operation),
`mirrors_apply` (one operation), `mirrors_after` (any number of them), `after_eq_history` (what can
be observed).
-/

namespace Headend.Signal

/-! ### Numbers and causes -/

/-- Whether a number can be that of a signal. -/
def IsNumber (n : Int) : Prop := 1 ≤ n ∧ n ≤ 64

instance (n : Int) : Decidable (IsNumber n) := inferInstanceAs (Decidable (_ ∧ _))

/-- The numbers of the signals that are kept for the engine. -/
def advisories : List Int := [user1, user2, hangup]

/-- Whether a signal is a cause of the end. -/
def IsTerminating (n : Int) : Prop := n ∉ advisories ∧ n ≠ alarm ∧ n ≠ brokenPipe

instance (n : Int) : Decidable (IsTerminating n) := inferInstanceAs (Decidable (_ ∧ _))

/-- A cause that the process can have. -/
def Cause.IsProper : Cause → Prop
  | signal n => IsNumber n
  | error _ => True

instance : DecidablePred Cause.IsProper
  | .signal n => inferInstanceAs (Decidable (IsNumber n))
  | .error _ => isTrue trivial

theorem Cause.decode_encode {c : Cause} (hc : c.IsProper) : decode c.encode = some c := by
  cases c with
  | signal n =>
    obtain ⟨hleast, hmost⟩ : 1 ≤ n ∧ n ≤ 64 := hc
    have hzero : n ≠ 0 := by omega
    have hlow : n % 256 ≠ 0 := by omega
    rw [decode, encode, if_neg hzero, if_neg hlow]
  | error code => exact decode_encode_error code

theorem Cause.encode_ne_zero {c : Cause} (hc : c.IsProper) : c.encode ≠ 0 := by
  intro h
  have hdecode := decode_encode hc
  rw [h] at hdecode
  cases hdecode

/-! ### Operations and their history -/

/-- An operation on the signal state. -/
inductive Operation where
  | handle (number : Int)
  | interrupt (c : Cause)
  | record (number : Int)
  | take
  | setTuned (tuned : Bool)
  | reset
deriving DecidableEq

namespace Operation

/-- The state after an operation. -/
def apply : Operation → State → State
  | handle n, s => (s.handle n).2
  | interrupt c, s => (s.interrupt c).2
  | record n, s => s.record n
  | take, s => s.take.2
  | setTuned tuned, s => s.setTuned tuned
  | reset, s => s.reset

/-- Whether an operation is about signals and causes that there are. -/
def IsProper : Operation → Prop
  | handle n | record n => IsNumber n
  | interrupt c => c.IsProper
  | take | setTuned _ | reset => True

instance : DecidablePred IsProper
  | handle n | record n => inferInstanceAs (Decidable (IsNumber n))
  | interrupt c => inferInstanceAs (Decidable c.IsProper)
  | take | setTuned _ | reset => isTrue trivial

/-- The cause of the end that an operation gives. -/
def cause? : Operation → Option Cause
  | handle n => if IsTerminating n then some (.signal n) else none
  | interrupt c => some c
  | _ => none

/-- The advisory signal that an operation brings. -/
def advisory? : Operation → Option Int
  | handle n => if n ∈ advisories then some n else none
  | record n => some n
  | _ => none

/-- What an operation says about the card. -/
def tuned? : Operation → Option Bool
  | setTuned tuned => some tuned
  | _ => none

end Operation

/-- The state after operations on a new one. -/
def after (ops : List Operation) : State := ops.foldl (fun s op => op.apply s) {}

namespace History

/-- The operations since the last reset. -/
def sinceReset (ops : List Operation) : List Operation := ops.rtakeWhile (· != .reset)

/-- The first cause of the end. -/
def cause (ops : List Operation) : Option Cause := (sinceReset ops).findSome? Operation.cause?

/-- The last advisory signal since one was taken. -/
def pending (ops : List Operation) : Option Int :=
  (((sinceReset ops).rtakeWhile (· != .take)).filterMap Operation.advisory?).getLast?

/-- The last word about the card, which is not tuned at first. -/
def tuned (ops : List Operation) : Bool :=
  (((sinceReset ops).filterMap Operation.tuned?).getLast?).getD false

variable (ops : List Operation) (op : Operation)

theorem sinceReset_concat :
    sinceReset (ops ++ [op]) = if op = .reset then [] else sinceReset ops ++ [op] := by
  rw [sinceReset, List.rtakeWhile_concat]
  by_cases h : op = .reset <;> simp [h, sinceReset]

theorem cause_concat :
    cause (ops ++ [op]) = if op = .reset then none else (cause ops).or op.cause? := by
  unfold cause
  rw [sinceReset_concat]
  split
  · rfl
  · rw [List.findSome?_append, List.findSome?_singleton]

theorem pending_concat :
    pending (ops ++ [op]) =
      if op = .reset ∨ op = .take then none else op.advisory?.or (pending ops) := by
  unfold pending
  rw [sinceReset_concat]
  by_cases hr : op = .reset
  · rw [if_pos hr, if_pos (.inl hr)]
    rfl
  · rw [if_neg hr, List.rtakeWhile_concat]
    by_cases ht : op = .take
    · simp [ht]
    · have hboth : ¬(op = .reset ∨ op = .take) := by simp [hr, ht]
      rw [if_neg hboth, if_pos (by simpa using ht), List.filterMap_append, List.getLast?_append]
      cases h : op.advisory? <;> simp [h]

theorem tuned_concat :
    tuned (ops ++ [op]) = if op = .reset then false else op.tuned?.getD (tuned ops) := by
  unfold tuned
  rw [sinceReset_concat]
  split
  · rfl
  · rw [List.filterMap_append, List.getLast?_append]
    cases h : op.tuned? <;> simp [h]

end History

/-! ### What a signal does -/

namespace State

theorem handle_of_advisory (s : State) {n : Int} (h : n ∈ advisories) :
    s.handle n = (.advisory, s.record n) := by
  simp only [advisories, List.mem_cons, List.not_mem_nil, or_false] at h
  rcases h with rfl | rfl | rfl <;> rfl

theorem handle_of_terminating (s : State) {n : Int} (h : IsTerminating n) :
    s.handle n = (.interrupt, (s.interrupt (.signal n)).2) := by
  obtain ⟨hadvisory, halarm, hpipe⟩ := h
  have hkept : ¬isAdvisory n = true := by
    simpa [isAdvisory, advisories, or_assoc] using hadvisory
  rw [handle, if_neg halarm, if_neg hkept, if_neg hpipe]

end State

theorem advisory_or_terminating (n : Int) :
    n ∈ advisories ∨ IsTerminating n ∨ n = alarm ∨ n = brokenPipe := by
  unfold IsTerminating
  tauto

/-! ### The registers mirror the history -/

/-- Whether a word stands for a cause, or for none. -/
def StandsForCause (word : Int) : Option Cause → Prop
  | none => word = 0
  | some c => word = c.encode ∧ c.IsProper

/-- Whether a word stands for an advisory signal, or for none. -/
def StandsForSignal (word : Int) : Option Int → Prop
  | none => word = 0
  | some n => word = n ∧ IsNumber n

/-- The registers hold what the history tells. -/
structure Mirrors (s : State) (ops : List Operation) : Prop where
  cause : StandsForCause s.cause (History.cause ops)
  received : StandsForSignal s.received (History.pending ops)
  tuned : s.tuned = History.tuned ops

theorem StandsForCause.eq_zero_iff {word : Int} {c : Option Cause} (h : StandsForCause word c) :
    word = 0 ↔ c = none := by
  cases c with
  | none => exact iff_of_true h rfl
  | some c =>
    obtain ⟨rfl, hc⟩ := h
    exact iff_of_false (Cause.encode_ne_zero hc) (by simp)

theorem StandsForCause.decode {word : Int} {c : Option Cause} (h : StandsForCause word c) :
    Cause.decode word = c := by
  cases c with
  | none => rw [show word = 0 from h]; rfl
  | some c =>
    obtain ⟨rfl, hc⟩ := h
    exact Cause.decode_encode hc

/-- A cause counts if it is the first one. -/
theorem StandsForCause.interrupt {s : State} {first : Option Cause}
    (h : StandsForCause s.cause first) {c : Cause} (hc : c.IsProper) :
    StandsForCause (s.interrupt c).2.cause (first.or (some c)) := by
  rw [State.interrupt]
  cases first with
  | none =>
    have hzero : s.cause = 0 := h
    rw [if_pos hzero]
    exact ⟨rfl, hc⟩
  | some c' =>
    have hset : s.cause ≠ 0 := fun hz => by simpa using h.eq_zero_iff.1 hz
    rw [if_neg hset]
    exact h

namespace Mirrors

variable {s : State} {ops : List Operation} (h : Mirrors s ops)
include h

theorem take_fst : s.take.1 = History.pending ops := by
  have hreceived := h.received
  rw [State.take]
  cases hp : History.pending ops with
  | none =>
    rw [hp] at hreceived
    exact if_pos hreceived
  | some n =>
    rw [hp] at hreceived
    obtain ⟨hn, hleast, -⟩ := hreceived
    rw [hn]
    exact if_neg (by omega)

/-- The registers after an operation, if the parts of the history that it brings are accounted
for. -/
theorem concat {s' : State} {op : Operation} (hop : op ≠ .reset ∧ op ≠ .take)
    (hcause : StandsForCause s'.cause ((History.cause ops).or op.cause?))
    (hreceived : StandsForSignal s'.received (op.advisory?.or (History.pending ops)))
    (htuned : s'.tuned = op.tuned?.getD s.tuned) : Mirrors s' (ops ++ [op]) := by
  refine ⟨?_, ?_, ?_⟩
  · rw [History.cause_concat, if_neg hop.1]
    exact hcause
  · rw [History.pending_concat, if_neg (not_or.2 hop)]
    exact hreceived
  · rw [History.tuned_concat, if_neg hop.1, ← h.tuned]
    exact htuned

theorem handle {n : Int} (hn : IsNumber n) : Mirrors (s.handle n).2 (ops ++ [.handle n]) := by
  have hop : Operation.handle n ≠ .reset ∧ Operation.handle n ≠ .take := by simp
  rcases advisory_or_terminating n with hadvisory | hterminating | hignored
  · have hcause : ¬IsTerminating n := fun ht => ht.1 hadvisory
    rw [s.handle_of_advisory hadvisory]
    refine h.concat hop ?_ ?_ rfl
    · rw [Operation.cause?, if_neg hcause, Option.or_none]
      exact h.cause
    · rw [Operation.advisory?, if_pos hadvisory]
      exact ⟨rfl, hn⟩
  · rw [s.handle_of_terminating hterminating]
    refine h.concat hop ?_ ?_ (State.tuned_interrupt s _)
    · rw [Operation.cause?, if_pos hterminating]
      exact h.cause.interrupt (c := .signal n) hn
    · rw [Operation.advisory?, if_neg hterminating.1, State.received_interrupt]
      exact h.received
  · have hsame : (s.handle n).2 = s := by rcases hignored with rfl | rfl <;> rfl
    have hcause : (Operation.handle n).cause? = none := by rcases hignored with rfl | rfl <;> rfl
    have hadvisory : (Operation.handle n).advisory? = none := by
      rcases hignored with rfl | rfl <;> rfl
    rw [hsame]
    refine h.concat hop ?_ ?_ rfl
    · rw [hcause, Option.or_none]
      exact h.cause
    · rw [hadvisory]
      exact h.received

/-- One operation, of whatever kind, keeps the registers true to the history. -/
theorem apply {op : Operation} (hop : op.IsProper) : Mirrors (op.apply s) (ops ++ [op]) := by
  have hkept : StandsForCause s.cause ((History.cause ops).or none) := by
    rw [Option.or_none]
    exact h.cause
  cases op with
  | handle n => exact h.handle hop
  | interrupt c =>
    refine h.concat (by simp) (h.cause.interrupt hop) ?_ (State.tuned_interrupt s c)
    rw [Operation.apply, State.received_interrupt]
    exact h.received
  | record n => exact h.concat (by simp) hkept ⟨rfl, hop⟩ rfl
  | take =>
    refine ⟨?_, ?_, ?_⟩
    · rw [History.cause_concat, if_neg (by simp)]
      exact hkept
    · rw [History.pending_concat, if_pos (.inr rfl)]
      rfl
    · rw [History.tuned_concat, if_neg (by simp)]
      exact h.tuned
  | setTuned tuned => exact h.concat (by simp) hkept h.received rfl
  | reset =>
    refine ⟨?_, ?_, ?_⟩
    · rw [History.cause_concat, if_pos rfl]
      rfl
    · rw [History.pending_concat, if_pos (.inl rfl)]
      rfl
    · rw [History.tuned_concat, if_pos rfl]
      rfl

end Mirrors

/-- After any number of operations the registers are true to the history. -/
theorem mirrors_after {ops : List Operation} (h : ∀ op ∈ ops, op.IsProper) :
    Mirrors (after ops) ops := by
  induction ops using List.reverseRecOn with
  | nil => exact ⟨rfl, rfl, rfl⟩
  | append_singleton ops op ih =>
    rw [List.forall_mem_append] at h
    have hstep : after (ops ++ [op]) = op.apply (after ops) := by
      rw [after, List.foldl_append]
      rfl
    rw [hstep]
    exact (ih h.1).apply (h.2 op List.mem_cons_self)

/-! ### What can be observed -/

/-- What the signal state shows after a history of operations. -/
structure Shows (s : State) (ops : List Operation) : Prop where
  interrupted : s.interrupted = History.cause ops
  isInterrupted : s.isInterrupted = true ↔ ∃ c, History.cause ops = some c
  /-- A further cause is taken exactly if it would be the first one. -/
  interrupt : ∀ c, (s.interrupt c).1 = true ↔ History.cause ops = none
  take : s.take.1 = History.pending ops
  takeAgain : s.take.2.take.1 = none
  tuned : s.tuned = History.tuned ops
  brokenPipe : s.handle brokenPipe = (.ignored, s)
  alarm : s.handle alarm =
    (if History.cause ops = none ∧ History.tuned ops = false then .tuningTimeout else .ignored, s)

/-- After any operations on a new state, all that can be observed is what the history since the last
reset says. -/
theorem after_eq_history {ops : List Operation} (h : ∀ op ∈ ops, op.IsProper) :
    Shows (after ops) ops := by
  have hm := mirrors_after h
  have hinterrupted : (after ops).isInterrupted = (History.cause ops).isSome := by
    rw [Bool.eq_iff_iff, State.isInterrupted, bne_iff_ne, ne_eq, hm.cause.eq_zero_iff,
      Option.isSome_iff_ne_none]
  refine ⟨hm.cause.decode, ?_, fun c => ?_, hm.take_fst, State.take_take _, hm.tuned, rfl, ?_⟩
  · rw [hinterrupted, Option.isSome_iff_exists]
  · rw [← hm.cause.eq_zero_iff, State.interrupt]
    split <;> simp [*]
  · rw [State.handle, if_pos rfl, hinterrupted, hm.tuned]
    cases History.cause ops <;> cases History.tuned ops <;> rfl

/-- A history with a reset. After it a signal is kept in the place of another, the alarm comes too
early, and a failure before the request for the end. -/
def busyHistory : List Operation :=
  [.interrupt (.signal 2), .setTuned true, .reset, .handle hangup, .record user1, .handle alarm,
    .interrupt (.error .tuning), .handle terminate]

theorem after_eq_history_busy :
    (∀ op ∈ busyHistory, op.IsProper) ∧ Shows (after busyHistory) busyHistory ∧
      History.cause busyHistory = some (.error .tuning) ∧
      History.pending busyHistory = some user1 ∧ History.tuned busyHistory = false := by
  have h : ∀ op ∈ busyHistory, op.IsProper := by decide
  exact ⟨h, after_eq_history h, by decide, by decide, by decide⟩

end Headend.Signal
