import Headend.Proofs.EndCause
import Headend.Proofs.FirstCause

/-!
# Calm parts of a run

Most parts of a run leave the failures and the word about the card to others: they make nothing a
cause of the end, and do not say that the card is tuned (`Run.IsCalm`). So do the front-ends of the
host, which do not set the alarm either. What causes of the end there are then come from signals.

Facts: `causes_of_unfailing` (where no failure is made a cause, the causes are the requests for the
end), `Run.isCalm_bind` and `Run.keepsUntuned_step` (how programs are put together),
`Tuner.isCalm_hardware` (the front-ends of the host).
-/

namespace Headend.Host

open Headend.Signal (Cause)

/-! ### Alarms, failures and requests for the end -/

/-- The time that the alarm is set to by an event, in seconds. -/
def Event.alarm? : Event → Option UInt32
  | alarm seconds => some seconds
  | _ => none

/-- The times that the alarm is set to by events. -/
def alarms (t : List Event) : List UInt32 := t.filterMap Event.alarm?

/-- The signal that asks for the end with an event. -/
def Event.request? : Event → Option Int
  | signal n _ => if Signal.IsTerminating n then some n else none
  | _ => none

/-- The signals among events that ask for the end. -/
def requests (t : List Event) : List Int := t.filterMap Event.request?

/-- Whether events set no alarm. -/
def Unarmed (t : List Event) : Prop := alarms t = []

/-- Whether events make no failure a cause of the end. -/
def Unfailing (t : List Event) : Prop := failures t = []

theorem alarms_append (s t : List Event) : alarms (s ++ t) = alarms s ++ alarms t :=
  List.filterMap_append

theorem alarms_of_foreign {t : List Event} (h : ∀ x ∈ t, x.IsForeign) : alarms t = [] := by
  refine List.filterMap_eq_nil_iff.2 fun x hx => ?_
  unfold Event.alarm?
  split
  · exact (h _ hx).elim
  · rfl

theorem failures_of_foreign {t : List Event} (h : ∀ x ∈ t, x.IsForeign) : failures t = [] :=
  failures_of_steady (Additive.foreign t h)

instance : Additive Unarmed where
  foreign _ h := alarms_of_foreign h
  append s t hs ht := by rw [Unarmed, alarms_append, hs, ht, List.append_nil]

instance : Additive Unfailing where
  foreign _ h := failures_of_foreign h
  append s t hs ht := by rw [Unfailing, failures_append, hs, ht, List.append_nil]

theorem unarmed_of_routine {t : List Event} (h : Routine t) : Unarmed t := by
  refine List.filterMap_eq_nil_iff.2 fun x hx => ?_
  unfold Event.alarm?
  split
  · rcases h _ hx with hforeign | hroutine
    · exact hforeign.elim
    · exact hroutine.elim
  · rfl

theorem unfailing_of_routine {t : List Event} (h : Routine t) : Unfailing t :=
  failures_of_steady (steady_of_plain (plain_of_routine h))

theorem Event.cause?_of_failure? {x : Event} (h : x.failure? = none) :
    x.cause? = x.request?.map .signal := by
  cases x with
  | signal n d =>
    rw [cause?, request?]
    split <;> rfl
  | reached m =>
    cases m with
    | failed code => cases h
    | _ => rfl
  | _ => rfl

/-- Where no failure is made a cause of the end, the causes are the requests for it. -/
theorem causes_of_unfailing {t : List Event} (h : Unfailing t) :
    causes t = (requests t).map .signal := by
  have hnone := List.filterMap_eq_nil_iff.1 h
  calc causes t
      = t.filterMap fun x => x.request?.map .signal :=
        List.filterMap_congr fun x hx => Event.cause?_of_failure? (hnone x hx)
    _ = (requests t).map .signal := List.map_filterMap.symm

/-! ### The word about the card -/

/-- Whether the card is not said to be tuned. -/
def Untuned (s : Signal.State) : Prop := s.tuned = false

theorem tuned_meddle (w : World) (i : Interference) :
    (w.meddle i).signals.tuned = w.signals.tuned := by
  cases i with
  | signal n => exact Signal.State.tuned_handle w.signals n
  | remove path =>
    unfold World.meddle
    dsimp only
    split <;> rfl
  | _ => rfl

theorem tuned_meddleAll (is : List Interference) (w : World) :
    (w.meddleAll is).signals.tuned = w.signals.tuned := by
  induction is generalizing w with
  | nil => rfl
  | cons i rest ih => exact (ih (w.meddle i)).trans (tuned_meddle w i)

theorem tuned_advance (w : World) : w.advance.signals.tuned = w.signals.tuned :=
  tuned_meddleAll _ w

theorem tuned_slept (w : World) (n : Nat) : (w.slept n).signals.tuned = w.signals.tuned := by
  unfold World.slept
  dsimp only
  split
  · exact tuned_meddleAll _ _
  · split
    · exact Signal.State.tuned_handle w.signals Signal.terminate
    · rfl

theorem signals_record (w : World) (a : Area) (r : Record) :
    (w.record a r).signals = w.signals := by
  unfold World.record
  dsimp only
  split <;> rfl

namespace Run

/-- Whether a part of a run leaves a card untuned that was not said to be tuned before. -/
def KeepsUntuned (m : Run α) : Prop := m.Brings Untuned fun _ => Untuned

theorem keepsUntuned_pure (a : α) : (pure a : Run α).KeepsUntuned := brings_pure fun _ h => h

theorem keepsUntuned_step {f : World → α × World}
    (h : ∀ w, (f w).2.signals.tuned = w.signals.tuned) : (step f).KeepsUntuned := by
  rintro w _ _ ⟨⟩ hs
  exact (h w.advance).trans ((tuned_advance w).trans hs)

theorem keepsUntuned_change {f : World → World}
    (h : ∀ w, (f w).signals.tuned = w.signals.tuned) : (change f).KeepsUntuned :=
  keepsUntuned_step h

theorem keepsUntuned_look (f : World → α) : (look f).KeepsUntuned := keepsUntuned_step fun _ => rfl

theorem keepsUntuned_emit (x : Event) : (change (·.emit x)).KeepsUntuned :=
  keepsUntuned_change fun _ => rfl

theorem keepsUntuned_log (a : Area) (r : Record) : (log a r).KeepsUntuned :=
  keepsUntuned_change fun w => congrArg Signal.State.tuned (signals_record w a r)

theorem keepsUntuned_sleep (n : Nat) : (sleep n).KeepsUntuned :=
  keepsUntuned_change fun w => tuned_slept w n

theorem keepsUntuned_report (a : Area) (r : Record) (code : ExitCode) :
    (report a r code).KeepsUntuned :=
  brings_bind (keepsUntuned_log a r) fun _ =>
    keepsUntuned_change fun w => Signal.State.tuned_interrupt w.signals _

/-! ### Calm parts of a run -/

/-- A part of a run that makes no failure a cause of the end, and does not say that the card is
tuned. -/
structure IsCalm (m : Run α) : Prop where
  gives : m.Gives Unfailing
  untuned : m.KeepsUntuned

section

variable {m : Run α}

theorem isCalm_bind {f : α → Run β} (hm : m.IsCalm) (hf : ∀ a, (f a).IsCalm) :
    (m >>= f).IsCalm :=
  ⟨gives_bind hm.gives fun a => (hf a).gives, brings_bind hm.untuned fun a => (hf a).untuned⟩

theorem isCalm_look (f : World → α) : (look f).IsCalm := ⟨gives_look f, keepsUntuned_look f⟩

theorem isCalm_log (a : Area) (r : Record) : (log a r).IsCalm :=
  ⟨gives_log rfl, keepsUntuned_log a r⟩

theorem isCalm_opened (path : String) : (reach (.opened path)).IsCalm :=
  ⟨gives_reach trivial rfl, keepsUntuned_emit _⟩

theorem isCalm_closed (path : String) : (reach (.closed path)).IsCalm :=
  ⟨gives_reach trivial rfl, keepsUntuned_emit _⟩

/-- What there is when a calm part of a run ends with a value. -/
theorem IsCalm.ok (hm : m.IsCalm) {w w' : World} {a : α} (h : m w = .ok a w')
    (hw : Untuned w.signals) : ∃ t, Course w t w' ∧ Unfailing t ∧ Untuned w'.signals := by
  obtain ⟨t, ht, hunfailing⟩ := hm.gives.ok h
  exact ⟨t, ht, hunfailing, hm.untuned w a w' h hw⟩

end

end Run

end Headend.Host

namespace Headend.Tuner

open Headend.Config (Tuning)
open Headend.Host
open Headend.Host.Run

/-- A front-end may take what time it needs and answer what it likes. The alarm, the failures and
the word about the card are not its own. -/
structure Frontend.IsCalm (f : Frontend) : Prop where
  unarmed : f.Gives Unarmed
  openDevice : ∀ directory tuner, (f.openDevice directory tuner).IsCalm
  tune : ∀ d t, (f.tune d t).IsCalm

/-! ### The front-ends of the host -/

theorem keepsUntuned_request (d : OpenDevice) (r : Request) (e : Event) :
    (request d r e).KeepsUntuned :=
  keepsUntuned_step fun _ => rfl

theorem keepsUntuned_readStatus (d : OpenDevice) : (readStatus d).KeepsUntuned := by
  refine keepsUntuned_step fun w => ?_
  dsimp only
  split
  · rfl
  · split
    · exact Signal.State.tuned_handle w.signals _
    · rfl

theorem keepsUntuned_granted {d : OpenDevice} {r : Request} {e : Event}
    {next : Run (Except TuneError Unit)} (h : next.KeepsUntuned) :
    (request d r e >>= fun answer => whenGranted answer next).KeepsUntuned := by
  refine brings_bind (keepsUntuned_request d r e) fun answer => ?_
  cases answer with
  | ok _ => exact h
  | error e => exact keepsUntuned_pure _

theorem keepsUntuned_setUpConverter (d : OpenDevice) (t : Tuning) :
    (setUpConverter d t).KeepsUntuned := by
  have hsleep := keepsUntuned_sleep settlingTime
  have hlast : ∀ {d r e}, (request d r e >>= fun answer =>
      whenGranted answer (pure (.ok ()))).KeepsUntuned :=
    keepsUntuned_granted (keepsUntuned_pure _)
  unfold setUpConverter
  split
  · exact keepsUntuned_pure _
  · refine keepsUntuned_granted (keepsUntuned_granted (brings_bind hsleep fun _ => ?_))
    refine brings_ite (keepsUntuned_granted (brings_bind hsleep fun _ => ?_)) ?_
    · exact hlast
    · exact hlast

theorem keepsUntuned_awaitLock (d : OpenDevice) (rounds : Nat) :
    (awaitLock d rounds).KeepsUntuned := by
  induction rounds with
  | zero => exact keepsUntuned_pure _
  | succ rounds ih =>
    refine brings_bind (keepsUntuned_look _) fun stop => brings_ite (keepsUntuned_pure _) ?_
    refine brings_bind (keepsUntuned_readStatus d) fun status => ?_
    cases status with
    | error e => exact keepsUntuned_pure _
    | ok status =>
      refine brings_ite (brings_bind (keepsUntuned_log _ _) fun _ => keepsUntuned_pure _) ?_
      exact brings_bind (keepsUntuned_sleep _) fun _ => ih

theorem keepsUntuned_program (d : OpenDevice) (p : Parameters) : (program d p).KeepsUntuned := by
  have hlength : agendaLength.KeepsUntuned := by
    rintro w _ _ ⟨⟩ hs
    exact hs
  exact keepsUntuned_granted (brings_bind hlength fun n => keepsUntuned_awaitLock d (n + 2))

theorem keepsUntuned_tune (d : OpenDevice) (t : Tuning) : (tune d t).KeepsUntuned := by
  have harithmetic : (arithmetic (parameters t d.type)).KeepsUntuned := by
    intro w r w' h hs
    cases hp : parameters t d.type with
    | ok p =>
      rw [hp] at h
      cases h
      exact hs
    | error o =>
      rw [hp] at h
      cases h
  refine brings_bind harithmetic fun p => ?_
  cases p with
  | error e => exact keepsUntuned_pure _
  | ok p =>
    refine brings_ite (brings_bind (keepsUntuned_setUpConverter d t) fun r => ?_)
      (keepsUntuned_program d p)
    cases r with
    | error e => exact keepsUntuned_pure _
    | ok _ => exact keepsUntuned_program d p

theorem keepsUntuned_openDevice (directory : String) (tuner : UInt32) :
    (openDevice directory tuner).KeepsUntuned := by
  refine brings_bind (keepsUntuned_look _) fun r => ?_
  cases r with
  | error e => exact keepsUntuned_pure _
  | ok d => exact brings_bind (keepsUntuned_log _ _) fun _ => keepsUntuned_pure _

theorem isCalm_hardware : Frontend.hardware.IsCalm where
  unarmed := routine_hardware.mono fun _ => unarmed_of_routine
  openDevice directory tuner :=
    ⟨gives_mono (routine_openDevice directory tuner) fun _ => unfailing_of_routine,
      keepsUntuned_openDevice directory tuner⟩
  tune d t := ⟨gives_mono (routine_tune d t) fun _ => unfailing_of_routine, keepsUntuned_tune d t⟩

end Headend.Tuner
