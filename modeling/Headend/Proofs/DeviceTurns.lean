import Headend.Proofs.Mailbox

/-!
# What is done with a device

Tuning a device is made of turns: a request and its answer, a wait, a look for a cause of the end, a
status and what it was, a record at the end (`Turn`). Which turns come one after the other is told
from the parameters and from what comes of the turns: first those of a plan, up to the first request
that is refused (`Obeys`), and then looks and statuses until the device is locked (`Watches`). The
plan for satellites sets up the converter first, every plan ends by programming the device.

Facts: `effects_of_takes` (turns and the trace), `performs_granted` and `performs_then` (how parts
of tuning are put together), `exists_watching` (the rounds are enough), `performs_tune` (all of it).
-/

namespace Headend.Host

/-! ### Requests and waits -/

/-- Whether an event is a request to a device or a wait. -/
def Event.isEffect : Event → Bool
  | tone _ | voltage _ | diseqc _ | setFrontend _ | readStatus | sleep _ => true
  | _ => false

/-- The requests and waits among events, in order. -/
def effects (t : List Event) : List Event := t.filter Event.isEffect

theorem effects_append (s t : List Event) : effects (s ++ t) = effects s ++ effects t :=
  List.filter_append s t

theorem effects_of_foreign {t : List Event} (h : ∀ x ∈ t, x.IsForeign) : effects t = [] := by
  refine List.filter_eq_nil_iff.2 fun x hx => ?_
  have hforeign := h x hx
  cases x with
  | signal | listed => exact Bool.false_ne_true
  | _ => exact hforeign.elim

/-- The requests and waits of a step are its own. -/
theorem effects_of_step {f : World → α × World} {es : List Event}
    (h : ∀ w, ∃ t, (f w).2.trace = w.trace ++ t ∧ effects t = es) {w w' : World} {a : α}
    (hstep : Run.step f w = .ok a w') : ∃ t, w'.trace = w.trace ++ t ∧ effects t = es := by
  cases hstep
  obtain ⟨u, hu, hforeign⟩ := course_advance w
  obtain ⟨t, ht, hes⟩ := h w.advance
  refine ⟨u ++ t, ?_, ?_⟩
  · rw [ht, hu.trace, List.append_assoc]
  · rw [effects_append, effects_of_foreign hforeign, hes, List.nil_append]

end Headend.Host

namespace Headend.Tuner

open Headend.Config (Tuning Polarization)
open Headend.Host
open Headend.Host.Run

/-! ### Turns -/

/-- A request that programs a device. -/
inductive Order where
  | tone (on : Bool)
  | supply (v : Voltage)
  | switch (command : List UInt8)
  | setFrontend (p : Parameters)

/-- The kind of a request. -/
def Order.kind : Order → Request
  | tone _ => .tone
  | supply _ => .voltage
  | switch _ => .diseqc
  | setFrontend _ => .setFrontend

/-- A request as an event. -/
def Order.event : Order → Event
  | tone on => .tone (toneWord on)
  | supply v => .voltage v.word
  | switch command => .diseqc command
  | setFrontend p => .setFrontend p

/-- A thing that is done while a device is tuned, and what came of it. -/
inductive Turn where
  | ask (o : Order) (answer : Except Failure Unit)
  | wait (milliseconds : Nat)
  /-- A look for a cause of the end. -/
  | check (stop : Bool)
  | read (answer : Except Failure Status)
  | tell (text : String)

namespace Turn

/-- Whether a turn leads from a world to another. -/
def Takes (d : OpenDevice) (w : World) : Turn → World → Prop
  | ask o answer, w' => request d o.kind o.event w = .ok answer w'
  | wait n, w' => Run.sleep n w = .ok () w'
  | check stop, w' => Run.isInterrupted w = .ok stop w'
  | read answer, w' => readStatus d w = .ok answer w'
  | tell text, w' => Run.log .frontend (.info text) w = .ok () w'

/-- The request or wait of a turn. -/
def effect? : Turn → Option Event
  | ask o _ => some o.event
  | wait n => some (.sleep n)
  | read _ => some .readStatus
  | check _ | tell _ => none

/-- The failure that a turn met. -/
def failure? : Turn → Option Failure
  | ask _ (.error e) | read (.error e) => some e
  | _ => none

/-- What came of reading a status. -/
def status? : Turn → Option (Except Failure Status)
  | read answer => some answer
  | _ => none

end Turn

/-- Whether turns lead from a world to another, one after the other. -/
def Takes (d : OpenDevice) : World → List Turn → World → Prop
  | w, [], w' => w' = w
  | w, x :: rest, w' => ∃ mid, x.Takes d w mid ∧ Takes d mid rest w'

section

variable {d : OpenDevice} {w mid w' : World}

theorem takes_append {xs ys : List Turn} (hx : Takes d w xs mid) (hy : Takes d mid ys w') :
    Takes d w (xs ++ ys) w' := by
  induction xs generalizing w with
  | nil =>
    obtain rfl : mid = w := hx
    exact hy
  | cons x rest ih =>
    obtain ⟨w₁, hfirst, hrest⟩ := hx
    exact ⟨w₁, hfirst, ih hrest⟩

theorem Order.isEffect_event (o : Order) : o.event.isEffect = true := by cases o <;> rfl

theorem effects_of_readStatus {answer : Except Failure Status}
    (h : readStatus d w = .ok answer w') :
    ∃ t, w'.trace = w.trace ++ t ∧ effects t = [.readStatus] := by
  refine effects_of_step (fun w => ?_) h
  dsimp only
  split
  · exact ⟨_, rfl, rfl⟩
  · split
    · rename_i n _
      have hboth := List.append_assoc w.trace [.readStatus] [.signal n (w.signals.handle n).1]
      exact ⟨_, hboth, rfl⟩
    · exact ⟨[.readStatus], rfl, rfl⟩

theorem Turn.effects_of_takes {x : Turn} (h : x.Takes d w w') :
    ∃ t, w'.trace = w.trace ++ t ∧ effects t = x.effect?.toList := by
  cases x with
  | ask o answer =>
    refine effects_of_step (fun w => ⟨[o.event], rfl, ?_⟩) h
    exact List.filter_cons_of_pos o.isEffect_event
  | wait n =>
    refine effects_of_step (f := fun w => ((), w.slept n)) (fun w => ?_) h
    obtain ⟨t, ht, hforeign⟩ := course_slept w n
    refine ⟨_, ht.trace, ?_⟩
    exact congrArg (Event.sleep n :: ·) (effects_of_foreign hforeign)
  | check stop =>
    exact effects_of_step (f := fun w => (w.signals.isInterrupted, w))
      (fun w => ⟨[], (List.append_nil _).symm, rfl⟩) h
  | read answer => exact effects_of_readStatus h
  | tell text =>
    exact effects_of_step (f := fun w => ((), w.record .frontend (.info text)))
      (fun w => ⟨_, (course_record w _ _).trace, rfl⟩) h

/-- The requests and waits of turns come in the trace in their order, and no others do. -/
theorem effects_of_takes {xs : List Turn} (h : Takes d w xs w') :
    ∃ t, w'.trace = w.trace ++ t ∧ effects t = xs.filterMap Turn.effect? := by
  induction xs generalizing w with
  | nil =>
    obtain rfl : w' = w := h
    exact ⟨[], (List.append_nil _).symm, rfl⟩
  | cons x rest ih =>
    obtain ⟨mid, hfirst, hrest⟩ := h
    obtain ⟨s, hs, hfirst⟩ := Turn.effects_of_takes hfirst
    obtain ⟨t, ht, hrest⟩ := ih hrest
    refine ⟨s ++ t, by rw [ht, hs, List.append_assoc], ?_⟩
    rw [effects_append, hfirst, hrest, List.filterMap_cons]
    cases x.effect? <;> rfl

end

/-! ### Turns that may come -/

/-- The turns of waiting for a lock, and how they end: with a cause of the end, a status that cannot
be read, or one with a lock. -/
inductive Watches : List Turn → Except TuneError Unit → Prop
  | stopped : Watches [.check true] (.error .interrupted)
  | failed (e : Failure) : Watches [.check false, .read (.error e)] (.error (.device e))
  | locked {s : Status} (h : s.hasLock = true) :
    Watches [.check false, .read (.ok s), .tell s!"Front-end locked: {s.text}"] (.ok ())
  | again {s : Status} {xs : List Turn} {r : Except TuneError Unit} (h : s.hasLock = false)
    (rest : Watches xs r) : Watches (.check false :: .read (.ok s) :: .wait 100 :: xs) r

/-- The turns of a plan up to the first request that is refused, or all of them and those that come
then. -/
inductive Obeys (plan : List Turn) (Rest : List Turn → Except TuneError Unit → Prop) :
    List Turn → Except TuneError Unit → Prop
  | refused (pre rest : List Turn) (o : Order) (e : Failure)
    (h : plan = pre ++ .ask o (.ok ()) :: rest) :
    Obeys plan Rest (pre ++ [.ask o (.error e)]) (.error (.device e))
  | done {xs : List Turn} {r : Except TuneError Unit} (h : Rest xs r) :
    Obeys plan Rest (plan ++ xs) r

/-- Whether nothing more is done, and there was no error. -/
def Finished (xs : List Turn) (r : Except TuneError Unit) : Prop := xs = [] ∧ r = .ok ()

/-- Whether a part of a run always returns, by turns as they may come. -/
def Performs (d : OpenDevice) (m : Run (Except TuneError Unit))
    (P : List Turn → Except TuneError Unit → Prop) : Prop :=
  ∀ w, ∃ r w' xs, m w = .ok r w' ∧ Takes d w xs w' ∧ P xs r

section

variable {d : OpenDevice} {plan plan' : List Turn} {next m : Run (Except TuneError Unit)}
  {Rest : List Turn → Except TuneError Unit → Prop}

theorem Obeys.cons {xs : List Turn} {r : Except TuneError Unit} (x : Turn)
    (h : Obeys plan Rest xs r) : Obeys (x :: plan) Rest (x :: xs) r := by
  cases h with
  | refused pre rest o e h => exact .refused (x :: pre) rest o e (congrArg (x :: ·) h)
  | done h => exact .done h

theorem Obeys.prepend {xs : List Turn} {r : Except TuneError Unit} (plan : List Turn)
    (h : Obeys plan' Rest xs r) : Obeys (plan ++ plan') Rest (plan ++ xs) r := by
  induction plan with
  | nil => exact h
  | cons x rest ih => exact ih.cons x

theorem performs_pure : Performs d (pure (.ok ())) (Obeys [] Finished) :=
  fun w => ⟨.ok (), w, [], rfl, rfl, .done ⟨rfl, rfl⟩⟩

/-- A request is made, and if it is refused nothing more. -/
theorem performs_granted (o : Order) (h : Performs d next (Obeys plan Rest)) :
    Performs d (request d o.kind o.event >>= fun answer => whenGranted answer next)
      (Obeys (.ask o (.ok ()) :: plan) Rest) := by
  intro w
  obtain ⟨answer, mid, hask⟩ : (request d o.kind o.event).ReturnsFrom w := returns_step _ w
  rw [bind_of_ok hask]
  cases answer with
  | error e =>
    refine ⟨_, mid, [.ask o (.error e)], rfl, ⟨mid, hask, rfl⟩, ?_⟩
    exact .refused [] plan o e rfl
  | ok _ =>
    obtain ⟨r, w', xs, hnext, htakes, hobeys⟩ := h mid
    exact ⟨r, w', .ask o (.ok ()) :: xs, hnext, ⟨mid, hask, htakes⟩, hobeys.cons _⟩

theorem performs_wait (n : Nat) (h : Performs d next (Obeys plan Rest)) :
    Performs d (Run.sleep n >>= fun _ => next) (Obeys (.wait n :: plan) Rest) := by
  intro w
  obtain ⟨_, mid, hsleep⟩ : (Run.sleep n).ReturnsFrom w := returns_change _ w
  obtain ⟨r, w', xs, hnext, htakes, hobeys⟩ := h mid
  exact ⟨r, w', .wait n :: xs, (bind_of_ok hsleep).trans hnext, ⟨mid, hsleep, htakes⟩,
    hobeys.cons _⟩

/-- What comes after a part of a run comes only if no request was refused in it. -/
theorem performs_then (hm : Performs d m (Obeys plan Finished))
    (hnext : Performs d next (Obeys plan' Rest)) :
    Performs d (m >>= fun r => match r with
      | .error e => pure (.error e)
      | .ok () => next) (Obeys (plan ++ plan') Rest) := by
  intro w
  obtain ⟨r, mid, xs, hmw, htakes, hobeys⟩ := hm w
  rw [bind_of_ok hmw]
  cases hobeys with
  | refused pre rest o e h =>
    refine ⟨_, mid, _, rfl, htakes, .refused pre (rest ++ plan') o e ?_⟩
    rw [h, List.append_assoc, List.cons_append]
  | done h =>
    obtain ⟨rfl, rfl⟩ := h
    rw [List.append_nil] at htakes
    obtain ⟨r, w', ys, hnextw, htakes', hobeys'⟩ := hnext mid
    exact ⟨r, w', plan ++ ys, hnextw, takes_append htakes htakes', hobeys'.prepend plan⟩

end

/-! ### The parts of tuning -/

/-- The supply that a converter is given. -/
def supplyFor (t : Tuning) (pol : Polarization) : Voltage :=
  match t.lnb.voltageOff, pol with
  | true, _ => .off
  | false, .horizontal | false, .left => .v18
  | false, .vertical | false, .right => .v13

theorem voltage_eq (t : Tuning) (pol : Polarization) : voltage t pol = supplyFor t pol := by
  unfold voltage supplyFor
  cases t.lnb.voltageOff <;> cases pol <;> rfl

/-- The turns that set up a converter. -/
def converterPlan (t : Tuning) (pol : Polarization) : List Turn :=
  let high := decide (band t = .high)
  [.ask (.tone false) (.ok ()), .ask (.supply (supplyFor t pol)) (.ok ()), .wait 15] ++
    (if t.satNumber > 0 then
      [.ask (.switch (switchCommand t.satNumber pol.isHighVoltage high)) (.ok ()), .wait 15]
    else []) ++
    [.ask (.tone high) (.ok ())]

/-- The turns that program a device, before it is waited for a lock. -/
def plan (t : Tuning) (type : UInt32) (p : Parameters) : List Turn :=
  (if drivenAs t type = some .satellite then (t.pol.map (converterPlan t)).getD [] else []) ++
    [.ask (.setFrontend p) (.ok ())]

theorem performs_setUpConverter (d : OpenDevice) {t : Tuning} {pol : Polarization}
    (hpol : t.pol = some pol) :
    Performs d (setUpConverter d t) (Obeys (converterPlan t pol) Finished) := by
  have hlast : Performs d (setBandTone d t >>= fun answer => whenGranted answer (pure (.ok ())))
      (Obeys [.ask (.tone (band t = .high)) (.ok ())] Finished) :=
    performs_granted (.tone (band t = .high)) performs_pure
  unfold setUpConverter converterPlan
  rw [hpol, ← voltage_eq]
  refine performs_granted (.tone false) (performs_granted (.supply (voltage t pol)) ?_)
  refine performs_wait 15 ?_
  split
  · exact performs_granted (.switch _) (performs_wait 15 hlast)
  · exact hlast

/-- What follows from a status. -/
def heed (d : OpenDevice) (rounds : Nat) : Except Failure Status → Run (Except TuneError Unit)
  | .error e => pure (.error (.device e))
  | .ok s =>
    if s.hasLock then do
      Run.log .frontend (.info s!"Front-end locked: {s.text}")
      return .ok ()
    else do
      Run.sleep lockInterval
      awaitLock d rounds

theorem awaitLock_succ (d : OpenDevice) (rounds : Nat) :
    awaitLock d (rounds + 1) = (isInterrupted >>= fun stop =>
      if stop then pure (.error .interrupted) else readStatus d >>= heed d rounds) := by
  rw [awaitLock]
  refine congrArg (isInterrupted >>= ·) (funext fun stop => ?_)
  cases stop with
  | true => rfl
  | false =>
    refine congrArg (readStatus d >>= ·) (funext fun answer => ?_)
    cases answer <;> rfl

/-- As long as no cause of the end is set and no status has a lock there is a further round, and the
rounds are enough. -/
theorem exists_watching (d : OpenDevice) (rounds : Nat) : ∀ w : World,
    w.agenda.length + 2 ≤ rounds ∨ 1 ≤ rounds ∧ w.signals.isInterrupted = true →
      ∃ r w' xs, awaitLock d rounds w = .ok r w' ∧ Takes d w xs w' ∧ Watches xs r := by
  -- Each wait takes a part off the agenda or, when nothing is left of it, brings a cause of the
  -- end.
  induction rounds with
  | zero => intro w henough; omega
  | succ rounds ih =>
    intro w henough
    rw [awaitLock_succ]
    cases hstop : w.advance.signals.isInterrupted with
    | true =>
      have hlook : isInterrupted w = .ok true w.advance := by rw [← hstop]; rfl
      exact ⟨_, w.advance, [.check true], bind_of_ok hlook, ⟨_, hlook, rfl⟩, .stopped⟩
    | false =>
      have hlook : isInterrupted w = .ok false w.advance := by rw [← hstop]; rfl
      obtain ⟨s, hs, -⟩ := keeps_advance w
      obtain ⟨answer, t, mid, hread, ht⟩ := Service.attends_readStatus d w.advance
      rw [bind_of_ok hlook, if_neg Bool.false_ne_true, bind_of_ok hread]
      cases answer with
      | error e =>
        exact ⟨_, mid, [.check false, .read (.error e)], rfl, ⟨_, hlook, mid, hread, rfl⟩,
          .failed e⟩
      | ok status =>
        rw [heed]
        split
        · rename_i hlock
          exact ⟨_, _, [.check false, .read (.ok status), .tell _], rfl,
            ⟨_, hlook, mid, hread, _, rfl, rfl⟩, .locked hlock⟩
        · rename_i hnone
          obtain ⟨u, hu, -⟩ := keeps_advance mid
          have hfuel : w.agenda.length + 2 ≤ rounds + 1 := by
            refine henough.resolve_right fun hi => ?_
            rw [hs.interrupted hi.2] at hstop
            cases hstop
          have hless : mid.advance.agenda.length ≤ w.agenda.length :=
            (hu.agenda.trans ht.agenda).trans hs.agenda
          have hnext := agenda_or_interrupted_slept mid.advance (n := lockInterval) (by decide)
          obtain ⟨r, w', xs, hrest, htakes, hwatches⟩ :=
            ih (mid.advance.slept lockInterval)
              (hnext.imp (fun _ => by omega) fun hi => ⟨by omega, hi⟩)
          exact ⟨r, w', .check false :: .read (.ok status) :: .wait 100 :: xs, hrest,
            ⟨_, hlook, mid, hread, _, rfl, htakes⟩, .again (Bool.eq_false_iff.2 hnone) hwatches⟩

theorem performs_program (d : OpenDevice) (p : Parameters) :
    Performs d (program d p) (Obeys [.ask (.setFrontend p) (.ok ())] Watches) := by
  refine performs_granted (.setFrontend p) fun w => ?_
  obtain ⟨r, w', xs, hwatch, htakes, hwatches⟩ :=
    exists_watching d (w.agenda.length + 2) w (.inl (Nat.le_refl _))
  exact ⟨r, w', xs, hwatch, htakes, .done hwatches⟩

/-- With parameters that can be programmed, tuning goes by the plan. -/
theorem performs_tune {d : OpenDevice} {t : Tuning} {p : Parameters}
    (hp : parameters t d.type = .ok (.ok p))
    (hpol : drivenAs t d.type = some .satellite → t.pol ≠ none) :
    Performs d (tune d t) (Obeys (plan t d.type p) Watches) := by
  have htune : tune d t = if needsConverter t d.type then
      setUpConverter d t >>= fun r => match r with
        | .error e => pure (.error e)
        | .ok () => program d p
      else program d p := by
    rw [tune, hp]
    rfl
  rw [htune, needsConverter_eq, plan]
  by_cases hsatellite : drivenAs t d.type = some .satellite
  · obtain ⟨pol, hpol⟩ := Option.ne_none_iff_exists'.1 (hpol hsatellite)
    rw [if_pos (beq_iff_eq.2 hsatellite), if_pos hsatellite, hpol]
    exact performs_then (performs_setUpConverter d hpol) (performs_program d p)
  · rw [if_neg (fun h => hsatellite (beq_iff_eq.1 h)), if_neg hsatellite]
    exact performs_program d p

end Headend.Tuner
