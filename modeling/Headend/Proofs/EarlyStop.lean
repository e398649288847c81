import Headend.Proofs.FirstCause
import Headend.Proofs.LastLook

/-!
# Stopping early

A signal that asks for the end may come at any moment before the last look, also together with a
failure or a lock. Whatever way the run takes from there, it goes on without an engine and without a
file. Unless its front-end breaks it down, what it had opened is closed, and if no failure was a
cause before, the signal decides the status. If the signal comes before the first look, no source is
sought, so nothing can break the run down.

Facts: `finish_of_signal` and `depart_of_signal` (the status), `leads_depart` and
`holdsOpen_depart` (the stages and the sources that are left), `start_stopsEarly` (the whole life).
-/

namespace Headend.Service

open Headend.Config
open Headend.Host
open Headend.Host.Run
open Headend.Tuner (Frontend Source TuneError)
open Timetable

/-! ### What is left -/

/-- The result of the stages, if they do not go on from the last look. -/
def Approach.result : Approach → Except StageError Unit
  | ended result => result
  | stopped | looked .. => .ok ()

/-- What is told in the log, if the stages do not go on from the last look. -/
def Approach.notice : Approach → Run Unit
  | ended _ => pure ()
  | stopped | looked .. => passOver

theorem routine_notice (a : Approach) : a.notice.Gives Routine := by
  cases a with
  | ended => exact gives_pure _
  | stopped | looked => exact routine_log (by decide) _

theorem returns_notice (a : Approach) : a.notice.Returns := by
  cases a with
  | ended => exact returns_pure _
  | stopped | looked => exact returns_log _ _

/-- Nothing is opened at the end, and the source that is kept is closed. -/
theorem holdsOpen_finish (result : Except StageError Unit) {h : Holdings} (ho : h.status = none) :
    (finish result h).HoldsOpen (h.source.map Source.path).toList fun _ => [] := by
  have hleads : unequipped.Leads ⟨.parameters, false⟩ (finish result h)
      (fun _ q => q = ⟨.parameters, true⟩) fun _ => True := leads_finish result ho
  intro w status w' hw
  obtain ⟨t, _, ht, hwalk, rfl⟩ := hleads.ok hw
  have hunopened := (not_opened_of_walk hwalk rfl).1
  refine ⟨t, ht, ?_⟩
  cases hs : h.source with
  | none => exact openAfter_of_unopened hunopened
  | some source =>
    obtain ⟨t', ht', hclosed⟩ := reaches_closed_finish result ho hs w status w' hw
    obtain rfl := ht.unique ht'
    exact openAfter_of_closed hunopened hclosed

theorem causes_ne_nil_of_failures {t : List Event} {code : ExitCode} (h : code ∈ failures t) :
    causes t ≠ [] := by
  obtain ⟨x, hx, hcode⟩ := List.mem_filterMap.1 h
  refine List.ne_nil_of_mem (List.mem_filterMap.2 ⟨x, hx, (?_ : _ = some (.error code))⟩)
  unfold Event.failure? at hcode
  split at hcode
  · cases hcode
    rfl
  · cases hcode

/-- A signal that is the first cause of a whole course decides the status, if a cause is set before
the end or the stages led to an error. -/
theorem finish_of_signal {result : Except StageError Unit} {h : Holdings} (ho : h.status = none)
    {w mid : World} {c : List Event} (hc : Course w c mid) (hs : w.signals.cause = 0)
    (hset : CauseSet mid.signals ∨ ∃ err, result = .error err) :
    ∃ t status w', finish result h mid = .ok status w' ∧ Course mid t w' ∧
      ∀ n cs, causes (c ++ t) = .signal n :: cs → Signal.IsNumber n →
        status = 0 ∧ w'.signals.interrupted = some (.signal n) := by
  obtain ⟨u, told, v, w', hfinish, hu, hv, hfailures, -⟩ := course_finish result ho mid
  refine ⟨_, _, w', hfinish, hu.append hv, fun n cs hcauses hn => ?_⟩
  -- Some cause is given before the status is told, and the first one is the signal.
  have hgiven : causes (c ++ u) ≠ [] := by
    intro hnone
    rw [causes_append, List.append_eq_nil_iff] at hnone
    rcases hset with hset | ⟨err, rfl⟩
    · exact hset (hc.cause_of_nil hs hnone.1)
    · have hfailed : err.exitCode ∈ failures u := hfailures ▸ List.mem_cons_self
      exact causes_ne_nil_of_failures hfailed hnone.2
  rw [← List.append_assoc] at hcauses
  have hproper : (Signal.Cause.signal n).IsProper := hn
  have hcause : told.signals.cause = n := (hc.append hu).cause_of_signal hs hcauses hn hgiven
  have hlast : w'.signals.cause = n := by
    rw [hv.cause_of_ne_zero (hcause ▸ Signal.Cause.encode_ne_zero hproper), hcause]
  have hdecode : Signal.Cause.decode n = some (.signal n) := Signal.Cause.decode_encode hproper
  refine ⟨?_, ?_⟩
  · rw [Signal.State.interrupted, hcause, hdecode]
    rfl
  · rw [Signal.State.interrupted, hlast, hdecode]

section

variable (o : CommandLine.Options) (e : Engine) {a : Approach}

theorem depart_of_stops (ha : a.Stops) :
    depart o e a = a.notice >>= fun _ => finish a.result a.holdings := by
  cases a with
  | ended | stopped => rfl
  | looked stop s source =>
    cases ha
    rfl

theorem Approach.isOpen (a : Approach) : a.holdings.status = none := by
  cases a <;> rfl

theorem returns_depart (ha : a.Stops) : (depart o e a).Returns := by
  rw [depart_of_stops o e ha]
  exact returns_bind (returns_notice a) fun _ => returns_finish a.result a.isOpen

theorem leads_depart (ha : a.Stops) {q : Position} (hq : Idle q) :
    unequipped.Leads q (depart o e a) (fun _ q' => q'.stage = q.stage) Idle := by
  obtain ⟨stage, ended⟩ := q
  obtain ⟨rfl, hstage⟩ := hq
  rw [depart_of_stops o e ha]
  refine leads_after (stays_of_routine (routine_notice a)) ⟨rfl, hstage⟩ fun _ => ?_
  exact leads_mono (leads_finish a.result a.isOpen) (fun _ _ h => by rw [h]) fun _ h => h

theorem holdsOpen_depart (ha : a.Stops) : (depart o e a).HoldsOpen a.held fun _ => [] := by
  rw [depart_of_stops o e ha]
  refine holdsOpen_after (gives_mono (routine_notice a) fun _ ht => ?_) fun _ => ?_
  · exact untracked_of_unstaged (unstaged_of_routine ht)
  · exact holdsOpen_finish a.result a.isOpen

/-- If the stages do not go on from the last look, the rest of the run ends with the status of the
signal that is the first cause. -/
theorem depart_of_signal (ha : a.Stops) {w mid : World} {c : List Event} (hc : Course w c mid)
    (hs : w.signals.cause = 0) (hset : a.Accounts mid.signals) :
    ∃ t status w', depart o e a mid = .ok status w' ∧ Course mid t w' ∧
      ∀ n cs, causes (c ++ t) = .signal n :: cs → Signal.IsNumber n →
        status = 0 ∧ w'.signals.interrupted = some (.signal n) := by
  obtain ⟨⟨⟩, mid', hnotice⟩ := returns_notice a mid
  obtain ⟨u, hu, -⟩ := (routine_notice a).ok hnotice
  have hset' : CauseSet mid'.signals ∨ ∃ err, a.result = .error err := by
    have hkept : CauseSet mid.signals → CauseSet mid'.signals := fun h => by
      rwa [CauseSet, hu.cause_of_ne_zero h]
    cases a with
    | ended result =>
      cases result with
      | ok _ => exact .inl (hkept hset)
      | error err => exact .inr ⟨err, rfl⟩
    | stopped => exact .inl (hkept hset)
    | looked stop s source =>
      obtain rfl : stop = true := ha
      exact .inl (hkept (causeSet_of_isInterrupted hset))
  obtain ⟨t, status, w', hfinish, ht, hsignal⟩ := finish_of_signal a.isOpen (hc.append hu) hs hset'
  refine ⟨u ++ t, status, w', ?_, hu.append ht, fun n cs hcauses => ?_⟩
  · rw [depart_of_stops o e ha, bind_of_ok hnotice, hfinish]
  · rw [← List.append_assoc] at hcauses
    exact hsignal n cs hcauses

end

/-! ### The whole life -/

section

variable {o : CommandLine.Options} {f : Frontend} {e : Engine} {w w' : World}

theorem anyEvents_start (hf : f.Gives AnyEvents) (he : e.Gives AnyEvents) :
    (start o f e).Gives AnyEvents := by
  have hstages : (stages o f e).Gives AnyEvents :=
    gives_stages (P := AnyEvents) (fun _ _ => trivial) (fun _ _ _ => trivial) hf he o
  rw [start_eq]
  refine gives_bind hstages fun r => ?_
  obtain ⟨result, h⟩ := r
  cases result with
  | ok _ => exact anyEvents_finish h
  | error err =>
    refine gives_bind (gives_report fun _ _ => trivial) fun _ => ?_
    exact gives_bind (anyEvents_close h) fun _ => gives_pure _

/-- How a run ends that was stopped early by a signal, with its events. -/
structure StopsEarly (o : CommandLine.Options) (f : Frontend) (e : Engine) (w : World) (n : Int)
    (t : List Event) : Prop where
  /-- The engine is never run. -/
  notStarted : .reached .engineStarted ∉ t
  /-- No file with the process id and no list is created. -/
  notCreated : ∀ path id, .reached (.created path id) ∉ t
  /-- The run ends with success, by the signal, and nothing is open any more, exactly if it does not
  break down. -/
  ending : (∃ w', start o f e w = .ok 0 w' ∧ w'.signals.interrupted = some (.signal n) ∧
      openAfter [] t = []) ↔ ∀ b w', start o f e w ≠ .error b w'
  /-- Only its front-end can break it down. -/
  breaks : ∀ b w', start o f e w = .error b w' →
    ∃ s w₁, load o w = .ok (.ok s) w₁ ∧ f.Breaks s.tuning b w'

/-- With the front-ends of the host a stopped run ends with success, if the arithmetic of its
parameters fits. -/
theorem StopsEarly.success {n : Int} {t : List Event} (h : StopsEarly o .hardware e w n t)
    (hfits : ∀ s w₁ type b, load o w = .ok (.ok s) w₁ → Tuner.parameters s.tuning type ≠ .error b) :
    ∃ w', start o .hardware e w = .ok 0 w' ∧ w'.signals.interrupted = some (.signal n) ∧
      openAfter [] t = [] := by
  refine h.ending.2 fun b w' hbroken => ?_
  obtain ⟨s, w₁, hload, hbreaks⟩ := h.breaks b w' hbroken
  obtain ⟨type, hoverflow⟩ := Tuner.breaks_hardware hbreaks
  exact hfits s w₁ type b hload hoverflow

/-- How a run ends that was stopped before it sought a source. -/
structure StopsAtOnce (o : CommandLine.Options) (f : Frontend) (e : Engine) (w : World) (n : Int)
    (t : List Event) : Prop extends StopsEarly o f e w n t where
  notOpened : ∀ path, .reached (.opened path) ∉ t
  notArmed : ∀ seconds, .alarm seconds ∉ t
  returns : ReturnsFrom (start o f e) w
  /-- Neither a front-end nor an engine has any part in it. -/
  same : ∀ f' e', start o f' e' w = start o f e w

/-- A run that does not go on from its last look ends without an engine and without a file. -/
theorem stopsEarly_of_stops (hf : f.Gives Unstaged) (hs : w.signals.cause = 0) {a : Approach}
    (happroach : approach o f w = .ok a w') (ha : a.Stops) {t : List Event}
    (ht : Course w t ((start o f e).lastWorld w)) {n : Int} {cs : List Signal.Cause}
    (hcauses : causes t = .signal n :: cs) (hn : Signal.IsNumber n) :
    StopsEarly o f e w n t := by
  obtain ⟨c, q, hc, hwalk, hq⟩ := (leads_approach o hf).ok happroach
  obtain ⟨u, status, last, hdepart, hu, hsignal⟩ :=
    depart_of_signal o e ha hc hs (brings_approach o f w a w' happroach trivial)
  have hstart : start o f e w = .ok status last := by
    rw [start_eq_depart, bind_of_ok happroach, hdepart]
  rw [lastWorld_of_ok hstart] at ht
  obtain rfl := ht.unique (hc.append hu)
  obtain ⟨rfl, hinterrupted⟩ := hsignal n cs hcauses hn
  obtain ⟨v, q', hv, hwalk', hstage⟩ := (leads_depart o e ha hq).ok hdepart
  obtain rfl := hu.unique hv
  have hwhole := (walk_append_of_eq hwalk).trans hwalk'
  have hnot : q'.stage ≠ .running := hstage ▸ hq.2
  have hreturns : ∀ b w', start o f e w ≠ .error b w' := fun b w' => by simp [hstart]
  refine ⟨fun hstarted => hnot (running_of_mem hwhole hstarted), fun _ _ hcreated => ?_,
    iff_of_true ⟨last, hstart, hinterrupted, ?_⟩ hreturns, fun b w' hb => absurd hb (hreturns b w')⟩
  · exact hnot (running_of_created rfl rfl hwhole hcreated)
  -- What is open is told by other descriptions of the same two courses.
  obtain ⟨c', hc', hheld⟩ := holdsOpen_approach o hf w a w' happroach
  obtain ⟨u', hu', hnone⟩ := holdsOpen_depart o e ha w' 0 last hdepart
  obtain rfl := hc.unique hc'
  obtain rfl := hu.unique hu'
  rw [openAfter_append, hheld, hnone]

theorem stopsEarly_of_breaks (hf : f.Gives Unstaged) {b : Tuner.Overflow}
    (happroach : approach o f w = .error b w') {t : List Event}
    (ht : Course w t ((start o f e).lastWorld w)) (n : Int) : StopsEarly o f e w n t := by
  obtain ⟨c, q, hc, hwalk, hq⟩ := (leads_approach o hf).error happroach
  have hstart : start o f e w = .error b w' := by
    rw [start_eq_depart, bind_of_error happroach]
  rw [lastWorld_of_error hstart] at ht
  obtain rfl := ht.unique hc
  refine ⟨fun hstarted => hq.2 (running_of_mem hwalk hstarted),
    fun _ _ hcreated => hq.2 (running_of_created rfl rfl hwalk hcreated),
    iff_of_false ?_ fun hreturns => hreturns b w' hstart, fun b' w'' hb => ?_⟩
  · rintro ⟨last, hlast, -⟩
    cases hstart.symm.trans hlast
  · obtain ⟨rfl, rfl⟩ := EStateM.Result.error.inj (hstart.symm.trans hb)
    exact breaks_of_approach happroach

/-- A run that does not go on from its first look seeks no source. -/
theorem stopsAtOnce_of_stop (hf : f.Gives Unstaged) (hs : w.signals.cause = 0)
    {r : Except ConfigError (Bool × Store)} (henter : enter o w = .ok r w')
    (hr : ∀ s, r ≠ .ok (false, s)) {t : List Event}
    (ht : Course w t ((start o f e).lastWorld w)) {n : Int} {cs : List Signal.Cause}
    (hcauses : causes t = .signal n :: cs) (hn : Signal.IsNumber n) :
    StopsAtOnce o f e w n t := by
  obtain ⟨a, ha, hexplore⟩ := explore_of_stop hr
  have happroach : ∀ f, approach o f w = .ok a w' := fun f => by
    rw [approach, bind_of_ok henter, hexplore]
    rfl
  have hstart : ∀ f e, start o f e w = (a.notice >>= fun _ => finish a.result a.holdings) w' :=
    fun f e => by rw [start_eq_depart, bind_of_ok (happroach f), depart_of_stops o e ha]
  obtain ⟨c, q, hc, hwalk, hunkept, hopened, -⟩ := (leads_enter (T := unequipped) o).ok henter
  obtain ⟨status, last, hdepart⟩ := returns_depart o e ha w'
  obtain ⟨u, q', hu, hwalk', hstage⟩ := (leads_depart o e ha hunkept.idle).ok hdepart
  have hlast : start o f e w = .ok status last := by
    rw [start_eq_depart, bind_of_ok (happroach f), hdepart]
  have hwhole : unequipped.walk ⟨.parameters, false⟩ t = some q' := by
    rw [lastWorld_of_ok hlast] at ht
    obtain rfl := ht.unique (hc.append hu)
    exact (walk_append_of_eq hwalk).trans hwalk'
  obtain ⟨hnotOpened, hnotArmed⟩ := not_opened_of_walk hwhole (hstage ▸ hopened)
  exact {
    stopsEarly_of_stops hf hs (happroach f) ha ht hcauses hn with
    notOpened := hnotOpened
    notArmed := hnotArmed
    returns := ⟨status, last, hlast⟩
    same := fun f' e' => (hstart f' e').trans (hstart f e).symm }

/-- If a signal that asks for the end is the first cause of a run, and it is over by the last look,
the run is stopped early; and if it is over by the first look, at once. A run that comes to no look,
because it fails before, is stopped by a signal at any time. -/
theorem start_stopsEarly (hf : f.Gives Unstaged) (he : e.Gives AnyEvents)
    (o : CommandLine.Options) (hw : w.signals = {}) :
    ∃ t, ((start o f e).lastWorld w).trace = w.trace ++ t ∧
      ∀ u n d v, t = u ++ .signal n d :: v → causes u = [] → Signal.IsTerminating n →
        Signal.IsNumber n →
          ((approach o f).OverBy Approach.HasLooked w (u ++ [.signal n d]) →
            StopsEarly o f e w n t) ∧
          ((enter o).OverBy (fun r => ∃ x, r = .ok x) w (u ++ [.signal n d]) →
            StopsAtOnce o f e w n t) := by
  obtain ⟨t, ht, -⟩ := anyEvents_start (o := o) (hf.mono fun _ _ => trivial) he w
  have hs : w.signals.cause = 0 := by rw [hw]
  refine ⟨t, ht.trace, fun u n d v hsplit hu hterminating hn => ?_⟩
  have hcause : (Event.signal n d).cause? = some (.signal n) := if_pos hterminating
  have hfirst : causes (u ++ [.signal n d]) = [.signal n] := by
    rw [causes_append, hu, causes, List.filterMap_cons_some hcause]
    rfl
  have hcauses : causes t = .signal n :: causes v := by
    rw [hsplit, List.append_cons, causes_append, hfirst]
    rfl
  refine ⟨fun hover => ?_, fun hover => ?_⟩
  · cases happroach : approach o f w with
    | error b w' => exact stopsEarly_of_breaks hf happroach ht n
    | ok a w' =>
      refine stopsEarly_of_stops hf hs happroach ?_ ht hcauses hn
      cases a with
      | ended | stopped => trivial
      | looked stop s source =>
        -- The look comes after the signal, so it finds a cause.
        obtain ⟨c, -, hc, -⟩ := (leads_approach o hf).ok happroach
        have hset := hover.causeSet happroach trivial hc hs hfirst hn
        have htruth : stop = w'.signals.isInterrupted :=
          brings_approach o f w _ w' happroach trivial
        exact htruth.trans (bne_iff_ne.2 hset)
  · obtain ⟨r, w', henter⟩ := returns_enter o w
    refine stopsAtOnce_of_stop hf hs henter ?_ ht hcauses hn
    rintro s rfl
    obtain ⟨c, -, hc, -⟩ := (leads_enter (T := unequipped) o).ok henter
    have hset := hover.causeSet henter ⟨_, rfl⟩ hc hs hfirst hn
    have htruth := brings_enter o w _ w' henter trivial false s rfl
    exact hset (bne_eq_false_iff_eq.1 htruth.symm)

end

/-- A world with a card that gets its lock just when the end is asked for. -/
def locking : World where
  files :=
    { nodes := [(["d.conf"], .file 0), (["dev"], .directory), (["dev", "frontend0"], .file 1)]
      contents := [Text.octets "delivery_system = DVBT\nfreq = 586000\ncard_dev_path = dev\n", []] }
  devices :=
    [(1, { name := some (Text.octets "Card"), type := 2
           statusSignal := some (0, Signal.terminate) })]

/-- A world in which the end is asked for before anything else, and tuning would break down. -/
def hasty : World :=
  { excessive with schedule := fun n => if n = 0 then [.signal Signal.terminate] else [] }

theorem start_stopsEarly_locking :
    Frontend.hardware.Gives Unstaged ∧ (Engine.holding false false).Gives AnyEvents ∧
      locking.signals = {} ∧ hasty.signals = {} ∧
      (let trace := ((start configured .hardware (.holding false false)).lastWorld locking).trace
      .reached (.opened "dev/frontend0") ∈ trace ∧ .reached .deviceKept ∈ trace ∧
        StopsEarly configured .hardware (.holding false false) locking Signal.terminate trace) ∧
      StopsAtOnce configured .hardware (.holding false false) hasty Signal.terminate
        ((start configured .hardware (.holding false false)).lastWorld hasty).trace := by
  have hf : Frontend.hardware.Gives Unstaged :=
    Tuner.routine_hardware.mono fun _ => unstaged_of_routine
  have he : (Engine.holding false false).Gives AnyEvents := fun handoff =>
    anyEvents_of_gives (steady_holding false false handoff)
  obtain ⟨t, ht, hlocking⟩ := start_stopsEarly (w := locking) hf he configured rfl
  obtain ⟨t', ht', hhasty⟩ := start_stopsEarly (w := hasty) hf he configured rfl
  obtain rfl := ht
  obtain rfl := ht'
  have hstopped := hlocking
    (((start configured .hardware (.holding false false)).lastWorld locking).trace.take 12)
    Signal.terminate .interrupt
    (((start configured .hardware (.holding false false)).lastWorld locking).trace.drop 13)
    (by decide +kernel) (by decide +kernel) (by decide) (by decide)
  have honce := hhasty [] Signal.terminate .interrupt
    (((start configured .hardware (.holding false false)).lastWorld hasty).trace.drop 1)
    (by decide +kernel) rfl (by decide) (by decide)
  exact ⟨hf, he, rfl, rfl, ⟨by decide +kernel, by decide +kernel,
    hstopped.1 (overBy_of_endsIn (by decide +kernel))⟩,
    honce.2 (overBy_of_endsIn (by decide +kernel))⟩

/-- A world in which the end is asked for just before tuning breaks down. -/
def beset : World :=
  { excessive with schedule := fun n => if n = 17 then [.signal Signal.terminate] else [] }

/-- The events of the run in that world. -/
def besetEvents : List Event :=
  ((start configured .hardware (.holding false false)).lastWorld beset).trace

/-- Not every run that a signal stops before the last look ends with success and gives back what it
opened: one that breaks down while it tunes leaves the open device as it is. -/
theorem not_alwaysStopsEarly :
    ¬∀ (o : CommandLine.Options) (w : World) (u v : List Event) (n : Int) (d : Signal.Disposition),
      w.signals = {} →
      ((start o .hardware (.holding false false)).lastWorld w).trace =
        w.trace ++ (u ++ .signal n d :: v) →
      causes u = [] → Signal.IsTerminating n → Signal.IsNumber n →
      (approach o .hardware).OverBy Approach.HasLooked w (u ++ [.signal n d]) →
      (∃ w', start o .hardware (.holding false false) w = .ok 0 w') ∧
        openAfter [] (u ++ .signal n d :: v) = [] := by
  intro h
  have hbroken : (match approach configured .hardware beset with
      | .ok _ _ => false
      | .error _ _ => true) = true := by decide +kernel
  have hover : (approach configured .hardware).OverBy Approach.HasLooked beset
      (besetEvents.take 11 ++ [.signal Signal.terminate .interrupt]) := by
    intro a w' ha
    rw [ha] at hbroken
    cases hbroken
  obtain ⟨-, hnone⟩ := h configured beset (besetEvents.take 11) (besetEvents.drop 12)
    Signal.terminate .interrupt rfl (by decide +kernel) (by decide +kernel) (by decide) (by decide)
    hover
  have hopen : openAfter [] (besetEvents.take 11 ++
      .signal Signal.terminate .interrupt :: besetEvents.drop 12) = ["dev/frontend0"] := by
    decide +kernel
  rw [hopen] at hnone
  cases hnone

end Headend.Service
