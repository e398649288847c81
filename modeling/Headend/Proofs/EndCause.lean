import Headend.Proofs.Watchdog

/-!
# The cause of the end

The first cause of the end is set at once and stays, whatever others come later. So what a part of a
run finds out about the signal state still holds when the part is over, as far as a cause is set.
If no source is acquired, one is: a failure is made a cause, and the steps to a source are only
stopped if there is one.

Facts: `Course.cause_of_cons` and `Course.cause_of_signal` (the first cause), `Run.brings_bind` and
`Run.brings_of_gives` (how programs are put together), `Run.OverBy.causeSet` (a signal is over by a
moment), `Tuner.brings_acquire` (acquiring a source).
-/

namespace Headend.Host

open Headend.Signal (Cause)

/-! ### The first cause -/

section

variable {w w' : World} {s t : List Event}

/-- A cause that is set stays. -/
theorem Move.cause_of_ne_zero (h : Move w t w') (hs : w.signals.cause ≠ 0) :
    w'.signals.cause = w.signals.cause := by
  cases h with
  | still _ signals => rw [signals]
  | event | take | tuned => rfl
  | signal n => exact Signal.State.cause_handle_of_ne_zero hs n
  | failure code => exact congrArg (·.2.cause) (Signal.State.interrupt_of_ne_zero hs (.error code))

theorem Course.cause_of_ne_zero (h : Course w t w') (hs : w.signals.cause ≠ 0) :
    w'.signals.cause = w.signals.cause := by
  induction h with
  | nil => rfl
  | cons hm _ ih =>
    have hsame := hm.cause_of_ne_zero hs
    rw [ih (hsame ▸ hs), hsame]

theorem Course.cause_of_nil (h : Course w t w') (hs : w.signals.cause = 0) (ht : causes t = []) :
    w'.signals.cause = 0 := by
  have hnone : Signal.StandsForCause w.signals.cause none := hs
  have hstill := h.cause hnone (by simp [ht])
  rwa [ht] at hstill

theorem Move.causes_length (h : Move w t w') : (causes t).length ≤ 1 := by
  have hlength : t.length ≤ 1 := by cases h <;> simp
  exact (List.length_filterMap_le _ _).trans hlength

/-- After a course that begins without a cause of the end, the first that it gives is set, whatever
others come later. -/
theorem Course.cause_of_cons (h : Course w t w') (hs : w.signals.cause = 0) {c : Cause}
    {cs : List Cause} (ht : causes t = c :: cs) (hc : c.IsProper) :
    w'.signals.cause = c.encode := by
  -- As long as the moves give no cause none is set, and after the one that does it stays.
  induction h with
  | nil => cases ht
  | @cons w mid w' s t hm h' ih =>
    have hnone : Signal.StandsForCause w.signals.cause none := hs
    have hlength := hm.causes_length
    rw [causes_append] at ht
    cases hcauses : causes s with
    | nil =>
      rw [hcauses, List.nil_append] at ht
      exact ih (hm.course.cause_of_nil hs hcauses) ht
    | cons c' rest =>
      rw [hcauses, List.cons_append] at ht
      rw [hcauses, List.length_cons] at hlength
      obtain rfl : c' = c := (List.cons.inj ht).1
      obtain rfl : rest = [] := List.length_eq_zero_iff.1 (by omega)
      have hset := hm.cause hnone (by simpa [hcauses] using hc)
      rw [hcauses] at hset
      obtain ⟨hcause, -⟩ := hset
      rw [h'.cause_of_ne_zero (hcause ▸ Cause.encode_ne_zero hc), hcause]

/-- If a signal is the first cause of a whole course, it is set as soon as any cause is. -/
theorem Course.cause_of_signal {n : Int} {cs : List Cause} (h : Course w s w')
    (hs : w.signals.cause = 0) (hcauses : causes (s ++ t) = .signal n :: cs)
    (hn : Signal.IsNumber n) (hset : causes s ≠ []) : w'.signals.cause = n := by
  obtain ⟨c, rest, hc⟩ := List.exists_cons_of_ne_nil hset
  rw [causes_append, hc, List.cons_append] at hcauses
  obtain rfl : c = .signal n := (List.cons.inj hcauses).1
  exact h.cause_of_cons hs hc hn

end

namespace Run

/-! ### What the signal state is brought to -/

/-- Whenever a part of a run starts with a signal state that has a property and ends with a value,
the signal state fits the value at its end. -/
def Brings (m : Run α) (P : Signal.State → Prop) (R : α → Signal.State → Prop) : Prop :=
  ∀ w a w', m w = .ok a w' → P w.signals → R a w'.signals

/-- No condition on a signal state. -/
def AnyState (_ : Signal.State) : Prop := True

/-- Whether a cause of the end is set. -/
def CauseSet (s : Signal.State) : Prop := s.cause ≠ 0

section

variable {m : Run α} {f : α → Run β} {P : Signal.State → Prop} {S : α → Signal.State → Prop}
  {R : β → Signal.State → Prop}

theorem brings_mono {P' : Signal.State → Prop} (hm : m.Brings P S) (h : ∀ s, P' s → P s) :
    m.Brings P' S :=
  fun w a w' ha hs => hm w a w' ha (h w.signals hs)

theorem brings_pure {a : α} (h : ∀ s, P s → S a s) : (pure a : Run α).Brings P S := by
  rintro w _ _ ⟨⟩ hs
  exact h w.signals hs

theorem brings_bind (hm : m.Brings P S) (hf : ∀ a, (f a).Brings (S a) R) :
    (m >>= f).Brings P R := by
  intro w b w' h hs
  obtain ⟨a, mid, ha, hb⟩ := bind_ok h
  exact hf a mid b w' hb (hm w a mid ha hs)

/-- What comes last may bring the signal state to it from any other. -/
theorem brings_after (hf : ∀ a, (f a).Brings AnyState R) : (m >>= f).Brings P R := by
  intro w b w' h _
  obtain ⟨a, mid, -, hb⟩ := bind_ok h
  exact hf a mid b w' hb trivial

theorem brings_ite {p : Prop} [Decidable p] {m' : Run α} (h : m.Brings P S)
    (h' : m'.Brings P S) : (if p then m else m').Brings P S := by
  split
  · exact h
  · exact h'

/-- A cause stays set whatever a part of a run does. -/
theorem brings_of_gives (hm : m.Gives AnyEvents) : m.Brings CauseSet fun _ => CauseSet := by
  intro w a w' h hs
  obtain ⟨t, ht, -⟩ := hm.ok h
  rwa [CauseSet, ht.cause_of_ne_zero hs]

theorem brings_isInterrupted : isInterrupted.Brings P fun stop s => stop = s.isInterrupted := by
  rintro w _ _ ⟨⟩ -
  rfl

theorem causeSet_of_isInterrupted {s : Signal.State} (h : true = s.isInterrupted) : CauseSet s :=
  bne_iff_ne.1 h.symm

theorem brings_report (a : Area) (r : Record) (code : ExitCode) :
    (report a r code).Brings P fun _ => CauseSet := by
  refine brings_after fun _ => ?_
  rintro w _ _ ⟨⟩ -
  exact w.advance.signals.cause_interrupt_error code

end

/-! ### Moments of a run -/

/-- Whether events are over when a part of a run ends with a value that has a property, if it
does. -/
def OverBy (m : Run α) (Q : α → Prop) (w : World) (u : List Event) : Prop :=
  ∀ a w', m w = .ok a w' → Q a → w.trace ++ u <+: w'.trace

theorem overBy_of_endsIn {m : Run α} {Q : α → Prop} {w : World} {u : List Event}
    (h : m.endsIn w (fun _ w' => decide (w.trace ++ u <+: w'.trace)) = true) :
    m.OverBy Q w u := by
  intro a w' ha _
  obtain ⟨a', w'', ha', hprefix⟩ := exists_of_endsIn h
  rw [ha] at ha'
  cases ha'
  exact of_decide_eq_true hprefix

/-- If a signal that asks for the end is over by a moment, a cause is set in it. -/
theorem OverBy.causeSet {m : Run α} {Q : α → Prop} {w w' : World} {u c : List Event} {a : α}
    {n : Int} {cs : List Cause} (h : m.OverBy Q w u) (hm : m w = .ok a w') (ha : Q a)
    (hc : Course w c w') (hs : w.signals.cause = 0) (hu : causes u = .signal n :: cs)
    (hn : Signal.IsNumber n) : CauseSet w'.signals := by
  have hprefix := h a w' hm ha
  rw [hc.trace, List.prefix_append_right_inj] at hprefix
  obtain ⟨rest, rfl⟩ := hprefix
  have hall : causes (u ++ rest) = .signal n :: (cs ++ causes rest) := by
    rw [causes_append, hu, List.cons_append]
  rw [CauseSet, hc.cause_of_cons hs hall hn]
  exact Cause.encode_ne_zero hn

end Run

end Headend.Host

namespace Headend.Tuner

open Headend.Config (Tuning)
open Headend.Host
open Headend.Host.Run

/-! ### Acquiring a source -/

/-- If acquiring a source led to none, a cause of the end is set. -/
def Acquired.Accounts (a : Acquired) (s : Signal.State) : Prop :=
  match a.result with
  | .ok _ => True
  | .error _ => CauseSet s

theorem brings_giveUp (e : TuneError) : (giveUp e).Brings AnyState Acquired.Accounts := by
  rw [giveUp_eq]
  exact brings_bind (brings_report _ _ _) fun _ => brings_pure fun _ h => h

theorem brings_succeed (source : Source) : (succeed source).Brings AnyState Acquired.Accounts :=
  brings_after fun _ => brings_pure fun _ _ => trivial

theorem brings_acquireRecording (path : String) :
    (acquireRecording path).Brings AnyState Acquired.Accounts := by
  refine brings_after fun r => ?_
  cases r with
  | error e => exact brings_giveUp _
  | ok _ => exact brings_after fun _ => brings_after fun _ => brings_succeed _

variable (f : Frontend) (t : Tuning)

theorem brings_acquireDevice (d : OpenDevice) :
    (acquireDevice f t d).Brings AnyState Acquired.Accounts := by
  refine brings_ite (brings_after fun _ => ?_) ?_
  all_goals
    refine brings_after fun r => ?_
    cases r with
    | error e => exact brings_after fun _ => brings_giveUp e
    | ok _ => exact brings_after fun _ => brings_succeed _

/-- If no source is acquired, there is a cause of the end, whether it failed or was stopped. -/
theorem brings_acquire : (acquire f t).Brings AnyState Acquired.Accounts := by
  unfold acquire
  split
  · exact brings_acquireRecording _
  · refine brings_after fun r => ?_
    cases r with
    | error e => exact brings_giveUp e
    | ok d =>
      refine brings_after fun _ => brings_bind brings_isInterrupted fun stop => ?_
      cases stop with
      | true =>
        refine brings_mono (P := CauseSet) ?_ fun _ => causeSet_of_isInterrupted
        refine brings_bind (brings_of_gives (gives_log trivial)) fun _ => ?_
        refine brings_bind (brings_of_gives (gives_reach trivial trivial)) fun _ => ?_
        exact brings_pure fun _ h => h
      | false => exact brings_mono (brings_acquireDevice f t d) fun _ _ => trivial

end Headend.Tuner
