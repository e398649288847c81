import Headend.Proofs.Calm
import Headend.Proofs.OpenSources

/-!
# From the parameters to a source

The steps to a source end in one of three ways: the card is tuned, a step failed, or the end was
asked for between opening and tuning. In each of them what is told, the word about the card and the
cause of the end fit together (`Ends`), wherever signals come and whatever the front-end answers.
The front-end is asked to tune only a device that was just opened, and only if no cause of the end
was found then (`Asked`). The alarm is set on the way there and nowhere else.

Facts: `concludes_acquire` and `Ends.agree` (how the steps end), `acquire_of_asked` and
`acquire_congr` (when the front-end is asked), `armed_of_asked` and `unarmed_of_not_asked` (when the
alarm is set), `acquire_orderly` (all of it).
-/

namespace Headend.Tuner

open Headend.Config (Tuning)
open Headend.Host
open Headend.Host.Run

/-! ### How the steps end -/

/-- How the steps to a source end, with the events since a world. -/
inductive Ends (w : World) : Acquired → List Event → World → Prop
  | tuned {w' : World} {t : List Event} (source : Source) (course : Course w t w')
    (unfailing : Unfailing t) (flag : w'.signals.tuned = true) :
    Ends w ⟨.tuned, .ok source⟩ t w'
  /-- A failure is made a cause of the end, and nothing comes after it. -/
  | failed {w' : World} {t : List Event} (e : TuneError)
    (course : Course w (t ++ [.reached (.failed .tuning)]) w') (unfailing : Unfailing t)
    (flag : Untuned w'.signals) (cause : CauseSet w'.signals) :
    Ends w ⟨.failed, .error e⟩ (t ++ [.reached (.failed .tuning)]) w'
  /-- Others have set a cause of the end before. -/
  | stopped {w' : World} {t : List Event} (course : Course w t w') (unfailing : Unfailing t)
    (flag : Untuned w'.signals) (cause : CauseSet w'.signals) :
    Ends w ⟨.failed, .error .interrupted⟩ t w'

theorem Ends.course {w w' : World} {a : Acquired} {t : List Event} (h : Ends w a t w') :
    Course w t w' := by
  cases h <;> assumption

/-- What comes before may be anything that makes no failure a cause of the end. -/
theorem Ends.after {w mid w' : World} {a : Acquired} {s t : List Event} (h : Ends mid a t w')
    (hs : Course w s mid) (hunfailing : Unfailing s) : Ends w a (s ++ t) w' := by
  cases h with
  | tuned source course unfailing flag =>
    exact .tuned source (hs.append course) (Additive.append s t hunfailing unfailing) flag
  | @failed _ u e course unfailing flag cause =>
    have hcourse := hs.append course
    rw [← List.append_assoc] at hcourse ⊢
    exact .failed e hcourse (Additive.append s u hunfailing unfailing) flag cause
  | stopped course unfailing flag cause =>
    exact .stopped (hs.append course) (Additive.append s t hunfailing unfailing) flag cause

/-- Whenever a part of a run starts before the card is tuned and ends with a value, it ends the
steps to a source. -/
def Concludes (m : Run Acquired) : Prop :=
  ∀ w a w', m w = .ok a w' → Untuned w.signals → ∃ t, Ends w a t w'

theorem concludes_after {m : Run α} {f : α → Run Acquired} (hm : m.IsCalm)
    (hf : ∀ a, Concludes (f a)) : Concludes (m >>= f) := by
  intro w b w' h hw
  obtain ⟨a, mid, ha, hb⟩ := bind_ok h
  obtain ⟨s, hs, hunfailing, hmid⟩ := hm.ok ha hw
  obtain ⟨t, ht⟩ := hf a mid b w' hb hmid
  exact ⟨s ++ t, ht.after hs hunfailing⟩

theorem concludes_giveUp (e : TuneError) : Concludes (giveUp e) := by
  intro w a w' h hw
  obtain ⟨u, v, mid, hreport, hu, hv, hcourse⟩ :=
    course_report .acquisition (.error e.message) .tuning w
  have hlog : Unfailing [.log .acquisition (.error e.message)] := rfl
  have hunfailing : Unfailing (u ++ .log .acquisition (.error e.message) :: v) :=
    Additive.append u _ (failures_of_foreign hu)
      (Additive.append [_] v hlog (failures_of_foreign hv))
  rw [giveUp_eq, bind_of_ok hreport] at h
  cases h
  refine ⟨_, .failed e ?_ hunfailing (keepsUntuned_report _ _ _ w () _ hreport hw)
    (brings_report (P := AnyState) _ _ _ w () _ hreport trivial)⟩
  rw [List.append_assoc, List.cons_append]
  exact hcourse

theorem concludes_succeed (source : Source) : Concludes (succeed source) := by
  rintro w _ _ ⟨⟩ -
  obtain ⟨u, hu, hforeign⟩ := course_advance w
  refine ⟨u ++ [], .tuned source (hu.append (Move.course (.tuned w.advance))) ?_ rfl⟩
  rw [List.append_nil]
  exact failures_of_foreign hforeign

theorem concludes_acquireRecording (path : String) : Concludes (acquireRecording path) := by
  refine concludes_after (isCalm_look _) fun r => ?_
  cases r with
  | error e => exact concludes_giveUp _
  | ok _ =>
    refine concludes_after (isCalm_opened path) fun _ => ?_
    exact concludes_after (isCalm_log _ _) fun _ => concludes_succeed _

/-! ### The way to tuning -/

/-- A device was just opened: is a cause of the end set? -/
def inspect (d : OpenDevice) : Run Bool := do
  Run.reach (.opened d.path)
  Run.isInterrupted

/-- Closes a device again because the end was asked for. -/
def withdraw (d : OpenDevice) : Run Acquired := do
  Run.log .acquisition (.info s!"Stop requested, closing {d.describe} before tuning")
  Run.reach (.closed d.path)
  return ⟨.failed, .error .interrupted⟩

/-- Sets the alarm if the time for tuning is limited. -/
def limitTime (t : Tuning) : Run Unit := do
  if t.tuningTimeout > 0 then Run.arm t.tuningTimeout

/-- What follows from the answer of the front-end that was asked to tune a device. -/
def settleTuning (d : OpenDevice) : Except TuneError Unit → Run Acquired
  | .error e => do
    Run.reach (.closed d.path)
    giveUp e
  | .ok () => do
    Run.log .acquisition (.info s!"Card {d.describe} tuned")
    succeed (.device d)

/-- What follows from the answer of the front-end that was asked to open a device. -/
def proceed (f : Frontend) (t : Tuning) : Except TuneError OpenDevice → Run Acquired
  | .error e => giveUp e
  | .ok d => inspect d >>= fun stop =>
    if stop then withdraw d
    else limitTime t >>= fun _ => f.tune d t >>= settleTuning d

section

variable (f : Frontend) {t : Tuning}

theorem acquireDevice_eq (d : OpenDevice) :
    acquireDevice f t d = (limitTime t >>= fun _ => f.tune d t >>= settleTuning d) := by
  have hsettle : (fun r : Except TuneError Unit => match r with
      | .error e => do
        Run.reach (.closed d.path)
        giveUp e
      | .ok () => do
        Run.log .acquisition (.info s!"Card {d.describe} tuned")
        succeed (.device d)) = settleTuning d := by
    funext r
    cases r <;> rfl
  unfold acquireDevice limitTime
  rw [← hsettle]
  split <;> rfl

/-- Without a recording, the steps are to open a device and to proceed. -/
theorem acquire_eq (h : t.readFilePath = none) :
    acquire f t = f.openDevice t.cardDevPath t.tuner >>= proceed f t := by
  simp only [acquire, h]
  refine congrArg (f.openDevice _ _ >>= ·) (funext fun r => ?_)
  cases r with
  | error e => rfl
  | ok d =>
    change (Run.reach _ >>= fun _ => Run.isInterrupted >>= _) = (inspect d >>= _)
    rw [inspect, bind_assoc]
    refine congrArg (Run.reach _ >>= ·) (funext fun _ => ?_)
    refine congrArg (Run.isInterrupted >>= ·) (funext fun stop => ?_)
    cases stop with
    | true => rfl
    | false => exact acquireDevice_eq f d

end

theorem isCalm_inspect (d : OpenDevice) : (inspect d).IsCalm :=
  isCalm_bind (isCalm_opened _) fun _ => isCalm_look _

theorem isCalm_limitTime (t : Tuning) : (limitTime t).IsCalm := by
  unfold limitTime
  split
  · exact ⟨gives_arm rfl, keepsUntuned_emit _⟩
  · exact ⟨gives_pure (), brings_pure fun _ h => h⟩

/-- If the end was asked for when a device was opened, it is closed again. -/
theorem ends_withdraw {d : OpenDevice} {w w' : World} {a : Acquired}
    (h : withdraw d w = .ok a w') (hw : Untuned w.signals) (hcause : CauseSet w.signals) :
    ∃ t, Ends w a t w' := by
  have hcalm : (log .acquisition (.info s!"Stop requested, closing {d.describe} before tuning") >>=
      fun _ => reach (.closed d.path)).IsCalm :=
    isCalm_bind (isCalm_log _ _) fun _ => isCalm_closed _
  rw [withdraw, ← bind_assoc] at h
  obtain ⟨_, mid, hmid, hlast⟩ := bind_ok h
  cases hlast
  obtain ⟨t, ht, hunfailing, huntuned⟩ := hcalm.ok hmid hw
  refine ⟨t, .stopped ht hunfailing huntuned ?_⟩
  rwa [CauseSet, ht.cause_of_ne_zero hcause]

theorem concludes_settleTuning (d : OpenDevice) (r : Except TuneError Unit) :
    Concludes (settleTuning d r) := by
  cases r with
  | error e => exact concludes_after (isCalm_closed _) fun _ => concludes_giveUp e
  | ok _ => exact concludes_after (isCalm_log _ _) fun _ => concludes_succeed _

theorem concludes_proceed {f : Frontend} (hf : f.IsCalm) (t : Tuning)
    (r : Except TuneError OpenDevice) : Concludes (proceed f t r) := by
  cases r with
  | error e => exact concludes_giveUp e
  | ok d =>
    intro w a w' h hw
    obtain ⟨stop, mid, hstop, hrest⟩ := bind_ok h
    obtain ⟨s, hs, hunfailing, hmid⟩ := (isCalm_inspect d).ok hstop hw
    have hend : ∃ u, Ends mid a u w' := by
      -- Closing the device again sets no cause of its own, so what the look has found is needed.
      cases stop with
      | true =>
        have hset := brings_after (P := AnyState) (m := reach (.opened d.path))
          (fun _ => brings_isInterrupted) w true mid hstop trivial
        exact ends_withdraw hrest hmid (causeSet_of_isInterrupted hset)
      | false =>
        refine concludes_after (isCalm_limitTime t) (fun _ => ?_) mid a w' hrest hmid
        exact concludes_after (hf.tune d t) (concludes_settleTuning d)
    obtain ⟨u, hu⟩ := hend
    exact ⟨s ++ u, hu.after hs hunfailing⟩

theorem concludes_acquire {f : Frontend} (hf : f.IsCalm) (t : Tuning) :
    Concludes (acquire f t) := by
  cases h : t.readFilePath with
  | some path =>
    rw [acquire_recording f h]
    exact concludes_acquireRecording path
  | none =>
    rw [acquire_eq f h]
    exact concludes_after (hf.openDevice _ _) (concludes_proceed hf t)

/-! ### What the flags tell at the end -/

/-- The cause of the end after steps that failed: the first request for the end, or else the
failure. -/
def endCause (t : List Event) : Signal.Cause :=
  match (requests t).head? with
  | some n => .signal n
  | none => .error .tuning

/-- What is told at the end of the steps, the word about the card, the cause of the end and the
alarm agree. -/
structure Agree (a : Acquired) (t : List Event) (w' : World) : Prop where
  tuned : a.progress = .tuned ↔ ∃ source, a.result = .ok source
  failed : a.progress = .failed ↔ ∃ e, a.result = .error e
  tunedFlag : a.progress = .tuned → w'.signals.tuned = true
  untunedFlag : a.progress = .failed → w'.signals.tuned = false
  cause : a.progress = .failed → (∀ n d, .signal n d ∈ t → Signal.IsNumber n) →
    w'.signals.interrupted = some (endCause t)
  alarm : (w'.signals.handle Signal.alarm).1 = .ignored

theorem head?_causes_failed {t : List Event} (h : Unfailing t) :
    (causes (t ++ [.reached (.failed .tuning)])).head? =
      some (endCause (t ++ [.reached (.failed .tuning)])) := by
  have hsame : requests (t ++ [.reached (.failed .tuning)]) = requests t := by
    rw [requests, List.filterMap_append]
    exact List.append_nil _
  rw [causes_append, causes_of_unfailing h, endCause, hsame]
  cases requests t <;> rfl

theorem Ends.agree {w w' : World} {a : Acquired} {t : List Event} (h : Ends w a t w')
    (hw : w.signals.cause = 0) : Agree a t w' := by
  cases h with
  | tuned source course unfailing flag =>
    exact ⟨by simp, by simp, fun _ => flag, nofun, nofun,
      Signal.State.handle_alarm_eq_ignored_iff.2 (.inr flag)⟩
  | failed e course unfailing flag cause =>
    refine ⟨by simp, by simp, nofun, fun _ => flag, fun _ hnumbers => ?_,
      Signal.State.handle_alarm_eq_ignored_iff.2 (.inl cause)⟩
    rw [course.interrupted hw hnumbers, head?_causes_failed unfailing]
  | @stopped w' t course unfailing flag cause =>
    refine ⟨by simp, by simp, nofun, fun _ => flag, fun _ hnumbers => ?_,
      Signal.State.handle_alarm_eq_ignored_iff.2 (.inl cause)⟩
    rw [course.interrupted hw hnumbers, causes_of_unfailing unfailing, endCause]
    -- No failure is among the events, so the cause that was found is that of a signal.
    cases hrequests : requests t with
    | nil =>
      have hnone : causes t = [] := by rw [causes_of_unfailing unfailing, hrequests]; rfl
      exact absurd (course.cause_of_nil hw hnone) cause
    | cons n rest => rfl

/-! ### When the front-end is asked -/

/-- Whether the steps come to a world in which the front-end is asked to tune a device. -/
structure Asked (f : Frontend) (t : Tuning) (w : World) (d : OpenDevice) (w' : World) : Prop where
  noRecording : t.readFilePath = none
  /-- The device was just opened, then no cause of the end was found, and then the time is
  limited. -/
  opened : ∃ w₁ w₂, f.openDevice t.cardDevPath t.tuner w = .ok (.ok d) w₁ ∧
    inspect d w₁ = .ok false w₂ ∧ limitTime t w₂ = .ok () w'

/-- The ways that the steps can take. -/
inductive Way (f : Frontend) (t : Tuning) (w : World) : Prop
  | recording {path : String} (h : t.readFilePath = some path)
  | broken {b : Overflow} {w' : World} (h : t.readFilePath = none)
    (hopen : f.openDevice t.cardDevPath t.tuner w = .error b w')
  | unopened {e : TuneError} {w' : World} (h : t.readFilePath = none)
    (hopen : f.openDevice t.cardDevPath t.tuner w = .ok (.error e) w')
  | withdrawn {d : OpenDevice} {w' w'' : World} (h : t.readFilePath = none)
    (hopen : f.openDevice t.cardDevPath t.tuner w = .ok (.ok d) w')
    (hstop : inspect d w' = .ok true w'')
  | asked {d : OpenDevice} {w' : World} (h : Asked f t w d w')

section

variable {f : Frontend} {t : Tuning} {w w' : World} {d : OpenDevice}

theorem exists_way (f : Frontend) (t : Tuning) (w : World) : Way f t w := by
  cases h : t.readFilePath with
  | some path => exact .recording h
  | none =>
    cases hopen : f.openDevice t.cardDevPath t.tuner w with
    | error b w' => exact .broken h hopen
    | ok r w' =>
      cases r with
      | error e => exact .unopened h hopen
      | ok d =>
        obtain ⟨stop, w₁, hstop⟩ : ∃ stop w₁, inspect d w' = .ok stop w₁ :=
          returns_bind (returns_reach _) (fun _ => returns_look _) w'
        cases stop with
        | true => exact .withdrawn h hopen hstop
        | false =>
          obtain ⟨_, w₂, hlimit⟩ : (limitTime t).ReturnsFrom w₁ := by
            unfold limitTime
            split
            · exact returns_change _ w₁
            · exact returns_pure _ w₁
          exact .asked ⟨h, w', w₁, hopen, hstop, hlimit⟩

/-- Where the front-end is asked, its answer decides. -/
theorem acquire_of_asked (h : Asked f t w d w') :
    acquire f t w = (f.tune d t >>= settleTuning d) w' := by
  obtain ⟨w₁, w₂, hopen, hinspect, hlimit⟩ := h.opened
  rw [acquire_eq f h.noRecording, bind_of_ok hopen, proceed, bind_of_ok hinspect]
  exact bind_of_ok hlimit

/-- The front-end is asked at most once. -/
theorem Asked.unique {d' : OpenDevice} {w'' : World} (h : Asked f t w d w')
    (h' : Asked f t w d' w'') : d = d' ∧ w' = w'' := by
  obtain ⟨w₁, w₂, hopen, hinspect, hlimit⟩ := h.opened
  obtain ⟨w₁', w₂', hopen', hinspect', hlimit'⟩ := h'.opened
  obtain ⟨hd, rfl⟩ := EStateM.Result.ok.inj (hopen.symm.trans hopen')
  obtain rfl := Except.ok.inj hd
  obtain ⟨-, rfl⟩ := EStateM.Result.ok.inj (hinspect.symm.trans hinspect')
  exact ⟨rfl, (EStateM.Result.ok.inj (hlimit.symm.trans hlimit')).2⟩

/-- Nothing else is ever asked of the front-end than to open the card, and to tune where it is
asked. -/
theorem acquire_congr {f' : Frontend}
    (hopen : t.readFilePath = none →
      f'.openDevice t.cardDevPath t.tuner w = f.openDevice t.cardDevPath t.tuner w)
    (htune : ∀ d w', Asked f t w d w' → f'.tune d t w' = f.tune d t w') :
    acquire f' t w = acquire f t w := by
  cases exists_way f t w with
  | recording h => rw [acquire_recording f h, acquire_recording f' h]
  | broken h hbroken =>
    rw [acquire_eq f h, acquire_eq f' h, bind_of_error hbroken,
      bind_of_error ((hopen h).trans hbroken)]
  | unopened h hfailed =>
    rw [acquire_eq f h, acquire_eq f' h, bind_of_ok hfailed, bind_of_ok ((hopen h).trans hfailed)]
    rfl
  | withdrawn h hopened hstop =>
    rw [acquire_eq f h, acquire_eq f' h, bind_of_ok hopened, bind_of_ok ((hopen h).trans hopened),
      proceed, proceed, bind_of_ok hstop, bind_of_ok hstop]
    rfl
  | @asked d w' h =>
    obtain ⟨w₁, w₂, hopened, hrest⟩ := h.opened
    have h' : Asked f' t w d w' :=
      ⟨h.noRecording, w₁, w₂, (hopen h.noRecording).trans hopened, hrest⟩
    rw [acquire_of_asked h, acquire_of_asked h']
    simp only [bind, EStateM.bind, htune d w' h]

theorem returns_withdraw (d : OpenDevice) : (withdraw d).Returns :=
  returns_bind (returns_log _ _) fun _ => returns_bind (returns_reach _) fun _ => returns_pure _

theorem returns_settleTuning (d : OpenDevice) (r : Except TuneError Unit) :
    (settleTuning d r).Returns := by
  cases r with
  | error e => exact returns_bind (returns_reach _) fun _ => returns_giveUp e
  | ok _ => exact returns_bind (returns_log _ _) fun _ => returns_succeed _

/-- The steps only break down where the front-end does. -/
theorem breaks_of_acquire {b : Overflow} (h : acquire f t w = .error b w') :
    f.openDevice t.cardDevPath t.tuner w = .error b w' ∨
      ∃ d w₁, Asked f t w d w₁ ∧ f.tune d t w₁ = .error b w' := by
  have hreturns : ∀ {m : Run Acquired} {w}, m.Returns → m w ≠ .error b w' := fun hm hw => by
    obtain ⟨a, _, ha⟩ := hm _
    rw [ha] at hw
    cases hw
  cases exists_way f t w with
  | recording hpath =>
    rw [acquire_recording f hpath] at h
    exact absurd h (hreturns (returns_acquireRecording _))
  | broken hpath hbroken =>
    rw [acquire_eq f hpath, bind_of_error hbroken] at h
    cases h
    exact .inl hbroken
  | unopened hpath hfailed =>
    rw [acquire_eq f hpath, bind_of_ok hfailed] at h
    exact absurd h (hreturns (returns_giveUp _))
  | withdrawn hpath hopened hstop =>
    rw [acquire_eq f hpath, bind_of_ok hopened, proceed, bind_of_ok hstop] at h
    exact absurd h (hreturns (returns_withdraw _))
  | @asked d w₁ hasked =>
    rw [acquire_of_asked hasked] at h
    cases htune : f.tune d t w₁ with
    | ok r w₂ =>
      rw [bind_of_ok htune] at h
      exact absurd h (hreturns (returns_settleTuning d r))
    | error b' w₂ =>
      rw [bind_of_error htune] at h
      cases h
      exact .inr ⟨d, w₁, hasked, htune⟩

end

/-! ### When the alarm is set -/

theorem unarmed_giveUp (e : TuneError) : (giveUp e).Gives Unarmed := by
  refine gives_giveUp fun v hv => ?_
  have hnone : alarms (v ++ [.reached (.failed .tuning)]) = [] := by
    rw [alarms_append, alarms_of_foreign hv]
    rfl
  exact hnone

theorem unarmed_acquireRecording (path : String) : (acquireRecording path).Gives Unarmed := by
  refine gives_bind (gives_look _) fun r => ?_
  cases r with
  | error e => exact unarmed_giveUp _
  | ok _ =>
    refine gives_bind (gives_reach trivial rfl) fun _ => ?_
    exact gives_bind (gives_log rfl) fun _ => gives_succeed _

theorem unarmed_inspect (d : OpenDevice) : (inspect d).Gives Unarmed :=
  gives_bind (gives_reach trivial rfl) fun _ => gives_isInterrupted

theorem unarmed_withdraw (d : OpenDevice) : (withdraw d).Gives Unarmed :=
  gives_bind (gives_log rfl) fun _ => gives_bind (gives_reach trivial rfl) fun _ => gives_pure _

theorem unarmed_settleTuning (d : OpenDevice) (r : Except TuneError Unit) :
    (settleTuning d r).Gives Unarmed := by
  cases r with
  | error e => exact gives_bind (gives_reach trivial rfl) fun _ => unarmed_giveUp e
  | ok _ => exact gives_bind (gives_log rfl) fun _ => gives_succeed _

/-- What the alarm is to be set to before tuning. -/
def limits (t : Tuning) : List UInt32 := if t.tuningTimeout > 0 then [t.tuningTimeout] else []

theorem course_limitTime {t : Tuning} {w w' : World} (h : limitTime t w = .ok () w') :
    ∃ u, Course w u w' ∧ alarms u = limits t := by
  unfold limitTime at h
  unfold limits
  split at h
  · rename_i hlimited
    obtain ⟨u, hu, hforeign⟩ := course_advance w
    cases h
    refine ⟨_, hu.append (Move.course (.event w.advance (e := .alarm t.tuningTimeout) trivial)), ?_⟩
    rw [if_pos hlimited, alarms_append, alarms_of_foreign hforeign]
    rfl
  · rename_i hfree
    cases h
    exact ⟨[], .nil w, by rw [if_neg hfree]; rfl⟩

section

variable {f : Frontend} (hf : f.Gives Unarmed) {t : Tuning} {w : World}
include hf

/-- The alarm is set on the way to tuning, and not by what comes later. -/
theorem armed_of_asked {d : OpenDevice} {w₁ : World} (h : Asked f t w d w₁) :
    ∃ u v, Course w u w₁ ∧ Course w₁ v ((acquire f t).lastWorld w) ∧ alarms u = limits t ∧
      alarms v = [] := by
  obtain ⟨mid, mid', hopen, hinspect, hlimit⟩ := h.opened
  obtain ⟨s, hs, hopening⟩ := (hf.openDevice _ _).ok hopen
  obtain ⟨s', hs', hinspecting⟩ := (unarmed_inspect d).ok hinspect
  obtain ⟨u, hu, hlimits⟩ := course_limitTime hlimit
  obtain ⟨v, hv, hrest⟩ := gives_bind (hf.tune d t) (unarmed_settleTuning d) w₁
  have hlast : (acquire f t).lastWorld w = (f.tune d t >>= settleTuning d).lastWorld w₁ := by
    rw [lastWorld, lastWorld, acquire_of_asked h]
  refine ⟨s ++ s' ++ u, v, (hs.append hs').append hu, hlast ▸ hv, ?_, hrest⟩
  rw [alarms_append, Additive.append s s' hopening hinspecting, hlimits, List.nil_append]

/-- If the front-end is not asked to tune, the alarm is not set. -/
theorem unarmed_of_not_asked (hnot : ∀ d w₁, ¬Asked f t w d w₁) :
    ∃ u, Course w u ((acquire f t).lastWorld w) ∧ alarms u = [] := by
  cases exists_way f t w with
  | recording h =>
    rw [acquire_recording f h]
    exact unarmed_acquireRecording _ w
  | broken h hbroken =>
    rw [acquire_eq f h, lastWorld_bind_of_error hbroken]
    exact hf.openDevice _ _ w
  | @unopened e w' h hfailed =>
    rw [acquire_eq f h, lastWorld_bind_of_ok hfailed]
    obtain ⟨s, hs, hopening⟩ := (hf.openDevice _ _).ok hfailed
    obtain ⟨u, hu, hgiving⟩ := unarmed_giveUp e w'
    exact ⟨s ++ u, hs.append hu, Additive.append s u hopening hgiving⟩
  | @withdrawn d w' w'' h hopened hstop =>
    rw [acquire_eq f h, lastWorld_bind_of_ok hopened, proceed, lastWorld_bind_of_ok hstop]
    obtain ⟨s, hs, hopening⟩ := (hf.openDevice _ _).ok hopened
    obtain ⟨s', hs', hinspecting⟩ := (unarmed_inspect d).ok hstop
    obtain ⟨u, hu, hclosing⟩ := unarmed_withdraw d w''
    exact ⟨s ++ s' ++ u, (hs.append hs').append hu,
      Additive.append _ u (Additive.append s s' hopening hinspecting) hclosing⟩
  | @asked d w₁ h => exact absurd h (hnot d w₁)

end

/-! ### All of the steps -/

/-- How the steps to a source go from a world. -/
structure Orderly (f : Frontend) (t : Tuning) (w : World) : Prop where
  /-- Whenever they end, all that they tell agrees. -/
  agree : ∀ a w', acquire f t w = .ok a w' → ∃ u, w'.trace = w.trace ++ u ∧ Agree a u w'
  /-- They end unless the front-end breaks down. -/
  breaks : ∀ b w', acquire f t w = .error b w' →
    f.openDevice t.cardDevPath t.tuner w = .error b w' ∨
      ∃ d w₁, Asked f t w d w₁ ∧ f.tune d t w₁ = .error b w'
  /-- The front-end is asked to open the card, and to tune only where it is said to be asked. -/
  congr : ∀ f' : Frontend, (t.readFilePath = none →
      f'.openDevice t.cardDevPath t.tuner w = f.openDevice t.cardDevPath t.tuner w) →
    (∀ d w₁, Asked f t w d w₁ → f'.tune d t w₁ = f.tune d t w₁) → acquire f' t w = acquire f t w
  /-- It is asked to tune at most once, and then the answer decides. -/
  once : ∀ d w₁, Asked f t w d w₁ → acquire f t w = (f.tune d t >>= settleTuning d) w₁ ∧
    ∀ d' w₁', Asked f t w d' w₁' → d = d' ∧ w₁ = w₁'
  /-- The alarm is set at most once, to the time for tuning, and only on the way to tuning. -/
  armed : ∀ d w₁, Asked f t w d w₁ → ∃ u v, w₁.trace = w.trace ++ u ∧
    ((acquire f t).lastWorld w).trace = w₁.trace ++ v ∧ alarms u = limits t ∧ alarms v = []
  unarmed : (∀ d w₁, ¬Asked f t w d w₁) →
    ∃ u, ((acquire f t).lastWorld w).trace = w.trace ++ u ∧ alarms u = []
  /-- With a recording the front-end is not asked for anything. -/
  recording : ∀ path, t.readFilePath = some path →
    (∀ d w₁, ¬Asked f t w d w₁) ∧ ∀ f', acquire f' t w = acquire f t w

theorem acquire_orderly {f : Frontend} (hf : f.IsCalm) (t : Tuning) {w : World}
    (hw : w.signals = {}) : Orderly f t w where
  agree a w' h := by
    obtain ⟨u, hu⟩ := concludes_acquire hf t w a w' h (by rw [hw]; rfl)
    exact ⟨u, hu.course.trace, hu.agree (by rw [hw])⟩
  breaks _ _ := breaks_of_acquire
  congr _ := acquire_congr
  once _ _ h := ⟨acquire_of_asked h, fun _ _ => h.unique⟩
  armed d w₁ h := by
    obtain ⟨u, v, hu, hv, hbefore, hafter⟩ := armed_of_asked hf.unarmed h
    exact ⟨u, v, hu.trace, hv.trace, hbefore, hafter⟩
  unarmed hnot := by
    obtain ⟨u, hu, hnone⟩ := unarmed_of_not_asked hf.unarmed hnot
    exact ⟨u, hu.trace, hnone⟩
  recording path h := by
    have hnot : ∀ d w₁, ¬Asked f t w d w₁ := fun d w₁ hasked => by
      rw [hasked.noRecording] at h
      cases h
    refine ⟨hnot, fun f' => acquire_congr (fun hnone => ?_) fun d w₁ hasked => ?_⟩
    · rw [hnone] at h
      cases h
    · exact absurd hasked (hnot d w₁)

/-- A world with a card that finds no signal. The end is asked for when it has waited for one. -/
def lockless : World where
  files :=
    { nodes := [(["dev"], .directory), (["dev", "frontend0"], .file 0)], contents := [[]] }
  devices := [(0, { name := some (Text.octets "Card"), type := 2, statuses := [some 0] })]

/-- The parameters for that card, with a limited time. -/
def limited : Tuning where
  cardDevPath := "dev"
  tuningTimeout := 5
  freq := .ofQuotient false 586 1

theorem acquire_orderly_lockless :
    Frontend.hardware.IsCalm ∧ lockless.signals = {} ∧ Orderly .hardware limited lockless ∧
      (acquire .hardware limited).endsIn lockless (fun a w' =>
        decide (a.progress = .failed) && !w'.signals.tuned && decide (alarms w'.trace = [5]) &&
          decide (w'.signals.interrupted = some (.signal Signal.terminate))) = true :=
  ⟨isCalm_hardware, rfl, acquire_orderly isCalm_hardware limited rfl, by decide +kernel⟩

end Headend.Tuner
