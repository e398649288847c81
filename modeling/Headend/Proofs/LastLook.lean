import Headend.Proofs.EndCause
import Headend.Proofs.OpenSources

/-!
# The way to the last look

The stages look twice whether the end was asked for: when the parameters are known, and when a
source is kept. A run is cut there into the way to the first look, the way from it to the last one,
and what is left. On the way to the last look no engine starts and no file is due, a source that is
opened is closed again or kept, and if the way ends without a source and without an error, a cause
of the end is set.

Facts: `start_eq_depart` (the cut), `brings_approach` (what the looks tell), `leads_approach` (the
stages), `holdsOpen_approach` (the sources).
-/

namespace Headend.Service

open Headend.Config
open Headend.Host
open Headend.Host.Run
open Headend.Tuner (Frontend Source TuneError)
open Timetable

/-! ### A run cut at its looks -/

/-- Tells that the stages that are left are passed over. -/
def passOver : Run Unit :=
  log .startup (.info "Stop requested, skipping the remaining startup steps")

/-- The way to the first look for a cause of the end, with what it found, if the parameters are
known. -/
def enter (o : CommandLine.Options) : Run (Except ConfigError (Bool × Store)) := do
  match ← load o with
  | .error err => return .error err
  | .ok s =>
    reach .resolved
    openLog s
    log .startup startRecord
    return .ok (← isInterrupted, s)

/-- How the way to the last look ends. -/
inductive Approach where
  /-- The stages are over before, without a source. -/
  | ended (result : Except StageError Unit)
  /-- The first look found a cause of the end. -/
  | stopped
  /-- A source is kept, and that is what the look found. -/
  | looked (stop : Bool) (s : Store) (source : Source)

/-- The way from the first look to the last one. -/
def explore (f : Frontend) : Except ConfigError (Bool × Store) → Run Approach
  | .error err => pure (.ended (.error (.configuration err)))
  | .ok (true, _) => pure .stopped
  | .ok (false, s) => do
    match (← Tuner.acquire f s.tuning).result with
    | .error err => return .ended ((← giveUpTuning err).result.map fun _ => ())
    | .ok source =>
      reach .deviceKept
      return .looked (← isInterrupted) s source

/-- The way to the last look. -/
def approach (o : CommandLine.Options) (f : Frontend) : Run Approach := enter o >>= explore f

/-- What is left from the last look on. -/
def depart (o : CommandLine.Options) (e : Engine) : Approach → Run Int
  | .ended result => finish result {}
  | .stopped => do
    passOver
    finish (.ok ()) {}
  | .looked true _ source => do
    passOver
    finish (.ok ()) (.keepSource {} source)
  | .looked false s source => equip o s source (.keepSource {} source) >>= conclude e

theorem stopRequested_eq :
    stopRequested = isInterrupted >>= fun stop =>
      if stop then passOver >>= fun _ => pure true else pure false := by
  refine bind_congr fun stop => ?_
  cases stop <;> rfl

section

variable (o : CommandLine.Options) (f : Frontend) (e : Engine)

theorem giveUpTuning_eq (err : TuneError) :
    giveUpTuning err >>= conclude e =
      giveUpTuning err >>= fun p => finish (p.result.map fun _ => ()) {} := by
  unfold giveUpTuning
  split
  · simp only [bind_assoc]
    refine bind_congr fun stop => ?_
    cases stop with
    | true => simp only [if_true, bind_assoc, pure_bind, conclude, finish, Except.map]
    | false => rfl
  · rfl

theorem keep_eq_depart (s : Store) (source : Source) :
    keep o s source >>= conclude e = reach .deviceKept >>= fun _ =>
      isInterrupted >>= fun stop => depart o e (.looked stop s source) := by
  rw [keep_eq, proceed, stopRequested_eq]
  simp only [bind_assoc]
  refine bind_congr fun _ => bind_congr fun stop => ?_
  cases stop with
  | true =>
    simp only [if_true, bind_assoc, pure_bind]
    rfl
  | false => rfl

/-- A run is the way to its last look and what is left from there. -/
theorem start_eq_depart : start o f e = approach o f >>= depart o e := by
  unfold start prepare approach enter
  simp only [bind_assoc]
  refine bind_congr fun r => ?_
  cases r with
  | error err => rfl
  | ok s =>
    simp only [prepareWith_eq, board, stopRequested_eq, bind_assoc]
    refine bind_congr fun _ => bind_congr fun _ => bind_congr fun _ => bind_congr fun stop => ?_
    cases stop with
    | true =>
      simp only [if_true, bind_assoc, pure_bind, explore]
      rfl
    | false =>
      simp only [Bool.false_eq_true, if_false, bind_assoc, pure_bind, explore]
      refine bind_congr fun a => ?_
      unfold embark
      cases a.result with
      | error err =>
        simp only [bind_assoc, pure_bind]
        exact giveUpTuning_eq e err
      | ok source =>
        simp only [bind_assoc, pure_bind]
        exact keep_eq_depart o e s source

end

/-! ### The way to the last look -/

/-- Whether a signal state accounts for the end of the way to the last look: without a source and
without an error a cause is set, and the look told the truth. -/
def Approach.Accounts (s : Signal.State) : Approach → Prop
  | ended (.error _) => True
  | ended (.ok _) | stopped => CauseSet s
  | looked stop .. => stop = s.isInterrupted

/-- Whether the stages do not go on from the last look. -/
def Approach.Stops : Approach → Prop
  | ended _ | stopped => True
  | looked stop .. => stop = true

/-- Whether the last look has been taken. -/
def Approach.HasLooked : Approach → Prop
  | ended _ | stopped => False
  | looked .. => True

/-- What has to be given back after the last look, if the stages do not go on. -/
def Approach.holdings : Approach → Holdings
  | ended _ | stopped => {}
  | looked _ _ source => .keepSource {} source

/-- The sources that are open after the last look. -/
def Approach.held (a : Approach) : List String := (a.holdings.source.map Source.path).toList

/-- The first look tells the truth. -/
theorem brings_enter (o : CommandLine.Options) :
    (enter o).Brings AnyState fun r s =>
      ∀ stop store, r = .ok (stop, store) → stop = s.isInterrupted := by
  refine brings_after fun r => ?_
  cases r with
  | error err => exact brings_pure fun _ _ _ _ h => by cases h
  | ok s =>
    refine brings_after fun _ => brings_after fun _ => brings_after fun _ => ?_
    refine brings_bind brings_isInterrupted fun stop => brings_pure ?_
    rintro _ htruth _ _ ⟨⟩
    exact htruth

theorem brings_approach (o : CommandLine.Options) (f : Frontend) :
    (approach o f).Brings AnyState fun a s => a.Accounts s := by
  refine brings_bind (brings_enter o) fun r => ?_
  cases r with
  | error err => exact brings_pure fun _ _ => trivial
  | ok found =>
    obtain ⟨stop, s⟩ := found
    cases stop with
    | true => exact brings_pure fun _ h => causeSet_of_isInterrupted (h _ _ rfl)
    | false =>
      refine brings_mono (P := AnyState) ?_ fun _ _ => trivial
      refine brings_bind (Tuner.brings_acquire f s.tuning) fun a => ?_
      unfold Tuner.Acquired.Accounts
      cases a.result with
      | error err =>
        have hgive : (giveUpTuning err).Gives AnyEvents :=
          anyEvents_of_gives (steady_giveUpTuning err)
        refine brings_bind (brings_of_gives hgive) fun p => brings_pure fun s h => ?_
        cases p.result with
        | error _ => exact trivial
        | ok _ => exact h
      | ok source =>
        refine brings_after fun _ => brings_bind brings_isInterrupted fun stop => ?_
        exact brings_pure fun _ h => h

/-- Whether the engine has not started, and the end has not begun. -/
def Idle (q : Position) : Prop := q.ended = false ∧ q.stage ≠ .running

theorem Unkept.idle {q : Position} (h : Unkept q) : Idle q := by
  refine ⟨h.1, fun hrunning => ?_⟩
  have hsource := h.2
  rw [hrunning] at hsource
  cases hsource

section

variable {T : Timetable}

/-- The timetable of a run that creates no file before the engine starts. -/
def unequipped : Timetable := ⟨none, []⟩

/-- Before the first look there is no source. -/
theorem leads_enter (o : CommandLine.Options) :
    T.Leads ⟨.parameters, false⟩ (enter o)
      (fun r q => Unkept q ∧ q.stage.hasOpened = false ∧ ∀ x, r = .ok x → MayOpen q) Idle := by
  have hparameters : Unkept ⟨.parameters, false⟩ := ⟨rfl, rfl⟩
  refine leads_after (stays_of_routine (routine_load o)) hparameters.idle fun r => ?_
  cases r with
  | error err => exact leads_pure ⟨hparameters, rfl, fun _ h => by cases h⟩
  | ok s =>
    refine leads_reach trivial rfl (leads_bind (leads_openLog s) fun _ q hq => ?_)
    refine leads_after (stays_of_routine (routine_log (by decide) _)) hq.unkept.idle fun _ => ?_
    refine leads_after gives_isInterrupted hq.unkept.idle fun stop => ?_
    refine leads_pure ⟨hq.unkept, ?_, fun _ _ => hq⟩
    rcases hq with rfl | rfl <;> rfl

/-- Up to the last look no engine starts, and no file is due. -/
theorem leads_approach (o : CommandLine.Options) {f : Frontend} (hf : f.Gives Unstaged) :
    unequipped.Leads ⟨.parameters, false⟩ (approach o f) (fun _ => Idle) Idle := by
  refine leads_bind (leads_enter o) ?_
  rintro r q ⟨hq, -, hmay⟩
  cases r with
  | error err => exact leads_pure hq.idle
  | ok found =>
    obtain ⟨stop, s⟩ := found
    cases stop with
    | true => exact leads_pure hq.idle
    | false =>
      have hacquire := leads_mono (leads_acquire (T := unequipped) hf s.tuning (hmay _ rfl))
        (fun _ _ h => h) fun _ => Unkept.idle
      refine leads_bind hacquire ?_
      rintro a q' (⟨⟨source, hsource⟩, rfl⟩ | ⟨⟨err, herr⟩, hunkept⟩)
      · rw [hsource]
        have hidle : Idle ⟨.lists, false⟩ := ⟨rfl, by decide⟩
        refine leads_reach trivial rfl (leads_after gives_isInterrupted hidle fun stop => ?_)
        exact leads_pure hidle
      · rw [herr]
        have hgive := leads_mono (leads_giveUpTuning (T := unequipped) hunkept err)
          (fun _ _ h => h) fun _ => Unkept.idle
        refine leads_bind hgive ?_
        rintro p _ ⟨rfl, -⟩
        exact leads_pure hunkept.idle

/-- What opens nothing leaves nothing open. -/
theorem holdsOpen_of_leads {m : Run α} {p : Position} {Q : α → Position → Prop}
    {B : Position → Prop} (hm : T.Leads p m Q B) (hQ : ∀ a q, Q a q → q.stage.hasOpened = false) :
    m.HoldsOpen [] fun _ => [] := by
  intro w a w' h
  obtain ⟨t, q, ht, hwalk, hq⟩ := hm.ok h
  exact ⟨t, ht, openAfter_of_unopened (not_opened_of_walk hwalk (hQ a q hq)).1⟩

end

/-- At the last look the source that is kept is open, and no other. -/
theorem holdsOpen_approach (o : CommandLine.Options) {f : Frontend} (hf : f.Gives Unstaged) :
    (approach o f).HoldsOpen [] Approach.held := by
  refine holdsOpen_bind (holdsOpen_of_leads (leads_enter (T := unequipped) o) fun _ _ h => h.2.1) ?_
  intro r
  cases r with
  | error err => exact holdsOpen_pure rfl
  | ok found =>
    obtain ⟨stop, s⟩ := found
    cases stop with
    | true => exact holdsOpen_pure rfl
    | false =>
      refine holdsOpen_bind (Tuner.holdsOpen_acquire hf s.tuning) fun a => ?_
      unfold Tuner.Acquired.held
      cases a.result with
      | error err =>
        have hunkept : Unkept ⟨.parameters, false⟩ := ⟨rfl, rfl⟩
        have hgive := holdsOpen_of_leads (leads_giveUpTuning (T := unequipped) hunkept err)
          fun _ _ h => by rw [h.1]; rfl
        exact holdsOpen_bind hgive fun _ => holdsOpen_pure rfl
      | ok source =>
        refine holdsOpen_reach trivial (holdsOpen_after gives_isInterrupted fun stop => ?_)
        exact holdsOpen_pure rfl

/-! ### Where the way ends -/

section

variable {o : CommandLine.Options} {f : Frontend} {w w' : World}

theorem returns_enter (o : CommandLine.Options) : (enter o).Returns := by
  refine returns_bind (returns_load o) fun r => ?_
  cases r with
  | error err => exact returns_pure _
  | ok s =>
    exact returns_bind (returns_reach _) fun _ => returns_bind (returns_openLog s) fun _ =>
      returns_bind (returns_log _ _) fun _ => returns_bind (returns_look _) fun _ => returns_pure _

/-- If the stages do not go on from the first look, the way to the last one ends there. -/
theorem explore_of_stop {r : Except ConfigError (Bool × Store)} (hr : ∀ s, r ≠ .ok (false, s)) :
    ∃ a : Approach, a.Stops ∧ ∀ f, explore f r = pure a := by
  cases r with
  | error err => exact ⟨.ended (.error (.configuration err)), trivial, fun _ => rfl⟩
  | ok found =>
    obtain ⟨stop, s⟩ := found
    cases stop with
    | true => exact ⟨.stopped, trivial, fun _ => rfl⟩
    | false => exact absurd rfl (hr s)

theorem returns_giveUpTuning (err : TuneError) : (giveUpTuning err).Returns := by
  unfold giveUpTuning
  split
  · refine returns_bind (returns_look _) fun stop => ?_
    cases stop with
    | true => exact returns_bind (returns_log _ _) fun _ => returns_pure _
    | false => exact returns_pure _
  · exact returns_pure _

theorem breaksBy_explore (stop : Bool) (s : Store) :
    (explore f (.ok (stop, s))).BreaksBy (f.Breaks s.tuning) := by
  cases stop with
  | true => exact breaksBy_of_returns (returns_pure _)
  | false =>
    refine breaksBy_bind (Tuner.breaksBy_acquire f s.tuning) fun a => breaksBy_of_returns ?_
    cases a.result with
    | error err => exact returns_bind (returns_giveUpTuning err) fun _ => returns_pure _
    | ok source =>
      exact returns_bind (returns_reach _) fun _ => returns_bind (returns_look _) fun _ =>
        returns_pure _

/-- On the way to the last look a run breaks down only by its front-end. -/
theorem breaks_of_approach {b : Tuner.Overflow} (h : approach o f w = .error b w') :
    ∃ s w₁, load o w = .ok (.ok s) w₁ ∧ f.Breaks s.tuning b w' := by
  obtain ⟨r, w₁, hload⟩ := returns_load o w
  unfold approach enter at h
  rw [bind_assoc, bind_of_ok hload] at h
  cases r with
  | error err => cases h
  | ok s =>
    simp only [bind_assoc, pure_bind] at h
    refine ⟨s, w₁, hload, ?_⟩
    have hrest := breaksBy_after (returns_reach .resolved) fun _ =>
      breaksBy_after (returns_openLog s) fun _ =>
        breaksBy_after (returns_log .startup startRecord) fun _ =>
          breaksBy_after (returns_look (·.signals.isInterrupted)) fun stop =>
            breaksBy_explore (f := f) stop s
    exact hrest w₁ b w' h

end

end Headend.Service
