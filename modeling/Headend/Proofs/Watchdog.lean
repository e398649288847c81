import Headend.Proofs.Life
import Headend.Proofs.GeneratedFiles

/-!
# The alarm and the end of a run

The alarm that limits the tuning is never taken back, so it may come at any later time. It does no
harm once a cause of the end is set or the card is tuned, which then stays so. A run comes to that
before it creates a file or begins its end, on whatever way it gets there: up to some point nothing
is there to be cleaned up, and from that point on the alarm is ignored (`Sheltered`).

Facts: `Signal.State.handle_alarm_eq_ignored_iff` (when the alarm is ignored), `Course.isSafe` (it
stays so), `Run.shelters_bind` (how programs are put together), `Service.shelters_stages` (the
stages), `Service.start_alarm_ignored` (the whole life).
-/

namespace Headend.Signal

/-- Whether the alarm has nothing to end: a cause of the end is set, or the card is tuned. -/
def State.IsSafe (s : State) : Prop := s.cause ≠ 0 ∨ s.tuned = true

theorem State.handle_alarm_eq_ignored_iff {s : State} :
    (s.handle alarm).1 = .ignored ↔ s.IsSafe := by
  rw [State.handle, if_pos rfl]
  simp [IsSafe, isInterrupted, or_iff_not_imp_left]

theorem State.cause_interrupt_error (s : State) (code : ExitCode) :
    (s.interrupt (.error code)).2.cause ≠ 0 := by
  unfold interrupt
  split
  · exact Cause.encode_ne_zero (c := .error code) trivial
  · assumption

/-- No signal takes away what shelters from the alarm. -/
theorem State.IsSafe.handle {s : State} (h : s.IsSafe) (n : Int) : (s.handle n).2.IsSafe := by
  rcases h with hcause | htuned
  · exact .inl (by rwa [cause_handle_of_ne_zero hcause])
  · exact .inr (by rwa [tuned_handle])

end Headend.Signal

namespace Headend.Host

/-! ### The alarm does no harm -/

/-- Whether every alarm among the events was ignored. -/
def Harmless (t : List Event) : Prop := ∀ d, .signal Signal.alarm d ∈ t → d = .ignored

/-- Whether among the events no generated file is created, and the end does not begin. -/
def Unopened (t : List Event) : Prop := ∀ x ∈ t, x.opens = false

instance : Additive Unopened where
  foreign _ h x hx := by
    have := h x hx
    cases x with
    | reached => exact this.elim
    | _ => rfl
  append _ _ hs ht := List.forall_mem_append.2 ⟨hs, ht⟩

theorem unopened_of_plain {t : List Event} (h : Plain t) : Unopened t := by
  intro x hx
  rcases h x hx with hforeign | hplain
  · exact Additive.foreign (P := Unopened) [x] (List.forall_mem_singleton.2 hforeign) x
      (List.mem_singleton_self x)
  · exact hplain.opens

variable {w w' w'' : World} {s t : List Event}

/-- What shelters from the alarm stays, and meanwhile the alarm is ignored. -/
theorem Move.isSafe (h : Move w t w') (hs : w.signals.IsSafe) :
    w'.signals.IsSafe ∧ Harmless t := by
  cases h with
  | still _ signals => exact ⟨signals ▸ hs, fun _ hd => absurd hd List.not_mem_nil⟩
  | event he =>
    refine ⟨hs, fun d hd => ?_⟩
    rw [← List.mem_singleton.1 hd] at he
    exact he.elim
  | signal n =>
    refine ⟨hs.handle n, fun d hd => ?_⟩
    cases List.mem_singleton.1 hd
    exact Signal.State.handle_alarm_eq_ignored_iff.2 hs
  | failure code =>
    refine ⟨.inl (w.signals.cause_interrupt_error code), fun d hd => ?_⟩
    cases List.mem_singleton.1 hd
  | take => exact ⟨hs, fun _ hd => absurd hd List.not_mem_nil⟩
  | tuned => exact ⟨.inr rfl, fun _ hd => absurd hd List.not_mem_nil⟩

theorem Course.isSafe (h : Course w t w') (hs : w.signals.IsSafe) :
    w'.signals.IsSafe ∧ Harmless t := by
  induction h with
  | nil => exact ⟨hs, fun _ hd => absurd hd List.not_mem_nil⟩
  | cons hm _ ih =>
    obtain ⟨hsafe, hharmless⟩ := hm.isSafe hs
    obtain ⟨hsafe', hharmless'⟩ := ih hsafe
    refine ⟨hsafe', fun d hd => ?_⟩
    rcases List.mem_append.1 hd with hd | hd
    · exact hharmless d hd
    · exact hharmless' d hd

/-! ### Sheltered courses -/

/-- A course on which nothing is there to be cleaned up, or not before the alarm does no harm. -/
inductive Sheltered : World → List Event → World → Prop
  | exposed {w w' : World} {t : List Event} (h : Course w t w') (ht : Unopened t) : Sheltered w t w'
  | safe {w mid w' : World} {s t : List Event} (h : Course w s mid) (hs : Unopened s)
    (hsafe : mid.signals.IsSafe) (h' : Course mid t w') : Sheltered w (s ++ t) w'

namespace Sheltered

theorem of_isSafe (hs : w.signals.IsSafe) (h : Course w t w') : Sheltered w t w' :=
  .safe (.nil w) (Additive.nil Unopened) hs h

theorem course (h : Sheltered w t w') : Course w t w' := by
  cases h with
  | exposed h => exact h
  | safe h _ _ h' => exact h.append h'

theorem append (h : Sheltered w s w') (h' : Sheltered w' t w'') : Sheltered w (s ++ t) w'' := by
  cases h with
  | safe h hs hsafe hrest =>
    rw [List.append_assoc]
    exact .safe h hs hsafe (hrest.append h'.course)
  | exposed h hs =>
    cases h' with
    | exposed h' ht => exact .exposed (h.append h') (Additive.append _ _ hs ht)
    | safe h' ht hsafe hrest =>
      rw [← List.append_assoc]
      exact .safe (h.append h') (Additive.append _ _ hs ht) hsafe hrest

/-- Once something is there to be cleaned up, the alarm does no harm any more. -/
theorem harmless (h : Sheltered w t w') {before after : List Event} {x : Event}
    (ht : t = before ++ x :: after) (hx : x.opens = true) :
    Harmless after ∧ w'.signals.IsSafe := by
  have hnot : ∀ {u : List Event}, Unopened u → x ∉ u := fun hu hmem => by
    rw [hu x hmem] at hx
    cases hx
  cases h with
  | exposed _ hunopened =>
    have hmem : x ∈ before ++ x :: after := List.mem_append_right _ List.mem_cons_self
    exact absurd (ht ▸ hmem) (hnot hunopened)
  | safe _ hs hsafe h' =>
    obtain ⟨hlast, hharmless⟩ := h'.isSafe hsafe
    refine ⟨fun d hd => hharmless d ?_, hlast⟩
    -- The event cannot be in the first part of the course, so what comes after it is in the second.
    obtain ⟨u, -, rfl⟩ | ⟨u, rfl, hu⟩ := List.append_eq_append_iff.1 ht
    · exact List.mem_append_right _ (List.mem_cons_of_mem _ hd)
    · cases u with
      | nil =>
        rw [List.nil_append] at hu
        exact hu ▸ List.mem_cons_of_mem _ hd
      | cons y u =>
        obtain ⟨rfl, -⟩ := List.cons.inj hu
        exact absurd (List.mem_append_right _ List.mem_cons_self) (hnot hs)

end Sheltered

/-! ### Sheltered programs -/

namespace Run

/-- The courses of a part of a run are sheltered, and with some values the alarm does no harm at the
end. -/
def Shelters (m : Run α) (Q : α → Prop) : Prop :=
  ∀ w, ∃ t, Sheltered w t (m.lastWorld w) ∧ ∀ a w', m w = .ok a w' → Q a → w'.signals.IsSafe

variable {m : Run α} {f : α → Run β} {Q : α → Prop} {R : β → Prop}

theorem shelters_mono {Q' : α → Prop} (hm : m.Shelters Q) (h : ∀ a, Q' a → Q a) :
    m.Shelters Q' := by
  intro w
  obtain ⟨t, ht, hsafe⟩ := hm w
  exact ⟨t, ht, fun a w' ha hq => hsafe a w' ha (h a hq)⟩

theorem shelters_of_unopened (hm : m.Gives Unopened) : m.Shelters fun _ => False := by
  intro w
  obtain ⟨t, ht, hunopened⟩ := hm w
  exact ⟨t, .exposed ht hunopened, fun _ _ _ => False.elim⟩

theorem shelters_pure {a : α} (h : ¬Q a) : (pure a : Run α).Shelters Q := by
  refine fun w => ⟨[], .exposed (.nil w) (Additive.nil Unopened), fun b w' hb hq => ?_⟩
  cases hb
  exact absurd hq h

/-- After a value with which the alarm does no harm, anything may follow. -/
theorem shelters_bind (hm : m.Shelters Q) (hany : ∀ a, Q a → (f a).Gives AnyEvents)
    (hf : ∀ a, ¬Q a → (f a).Shelters R) : (m >>= f).Shelters R := by
  intro w
  obtain ⟨s, hs, hsafe⟩ := hm w
  cases hmw : m w with
  | error o mid =>
    refine ⟨s, lastWorld_bind_of_error hmw ▸ hs, fun b w' hb => ?_⟩
    rw [bind_of_error hmw] at hb
    cases hb
  | ok a mid =>
    rw [lastWorld_of_ok hmw] at hs
    rw [lastWorld_bind_of_ok hmw, bind_of_ok hmw]
    by_cases ha : Q a
    -- The alarm does no harm from here on, so the rest is sheltered whatever it does.
    · obtain ⟨t, ht, -⟩ := hany a ha mid
      refine ⟨s ++ t, hs.append (.of_isSafe (hsafe a mid hmw ha) ht), fun b w' hb _ => ?_⟩
      rw [lastWorld_of_ok hb] at ht
      exact (ht.isSafe (hsafe a mid hmw ha)).1
    · obtain ⟨t, ht, hlast⟩ := hf a ha mid
      exact ⟨s ++ t, hs.append ht, hlast⟩

/-- What comes before may be anything that opens nothing. -/
theorem shelters_after (hm : m.Gives Unopened) (hf : ∀ a, (f a).Shelters R) :
    (m >>= f).Shelters R :=
  shelters_bind (shelters_of_unopened hm) (fun _ => False.elim) fun a _ => hf a

/-- What comes later may be anything, if the alarm does no harm whatever the value is. -/
theorem shelters_before (hm : m.Shelters fun _ => True) (hf : ∀ a, (f a).Gives AnyEvents) :
    (m >>= f).Shelters R :=
  shelters_bind hm (fun a _ => hf a) fun _ h => absurd trivial h

theorem shelters_ite {p : Prop} [Decidable p] {m' : Run α} (h : m.Shelters Q)
    (h' : m'.Shelters Q) : (if p then m else m').Shelters Q := by
  split
  · exact h
  · exact h'

/-! ### Where the shelter comes from -/

theorem shelters_step {f : World → α × World}
    (h : ∀ w, ∃ t, Course w t (f w).2 ∧ Unopened t ∧ (Q (f w).1 → (f w).2.signals.IsSafe)) :
    (step f).Shelters Q := by
  intro w
  obtain ⟨u, hu, hforeign⟩ := course_advance w
  obtain ⟨t, ht, hunopened, hsafe⟩ := h w.advance
  have hall : Unopened (u ++ t) := Additive.append u t (Additive.foreign u hforeign) hunopened
  refine ⟨u ++ t, .exposed (hu.append ht) hall, fun a w' ha hq => ?_⟩
  cases ha
  exact hsafe hq

theorem shelters_look {f : World → α} (h : ∀ w, Q (f w) → w.signals.IsSafe) :
    (look f).Shelters Q :=
  shelters_step fun w => ⟨[], .nil w, Additive.nil Unopened, h w⟩

theorem shelters_change {f : World → World}
    (h : ∀ w, ∃ t, Move w t (f w) ∧ Unopened t ∧ (f w).signals.IsSafe) :
    (change f).Shelters fun _ => True := by
  refine shelters_step fun w => ?_
  obtain ⟨t, ht, hunopened, hsafe⟩ := h w
  exact ⟨t, ht.course, hunopened, fun _ => hsafe⟩

/-- If the end was asked for, a cause is set. -/
theorem shelters_isInterrupted : isInterrupted.Shelters (· = true) :=
  shelters_look fun _ h => .inl (bne_iff_ne.1 h)

theorem shelters_interrupt (code : ExitCode) : (interrupt code).Shelters fun _ => True :=
  shelters_change fun w => ⟨_, .failure w code, List.forall_mem_singleton.2 rfl,
    .inl (w.signals.cause_interrupt_error code)⟩

theorem shelters_setTuned : (setTuned true).Shelters fun _ => True :=
  shelters_change fun w => ⟨[], .tuned w, Additive.nil Unopened, .inr rfl⟩

theorem shelters_report {a : Area} {r : Record} {code : ExitCode}
    (h : (Event.log a r).opens = false) : (report a r code).Shelters fun _ => True :=
  shelters_after (gives_log (List.forall_mem_singleton.2 h)) fun _ => shelters_interrupt code

end Run

end Headend.Host

namespace Headend.Tuner

open Headend.Config (Tuning)
open Headend.Host
open Headend.Host.Run

/-! ### Acquiring a source -/

theorem shelters_succeed (s : Source) : (succeed s).Shelters fun _ => True :=
  shelters_before shelters_setTuned fun _ => gives_pure _

theorem shelters_giveUp (e : TuneError) : (giveUp e).Shelters fun _ => True := by
  rw [giveUp_eq]
  exact shelters_before (shelters_report rfl) fun _ => gives_pure _

theorem unopened_acquisitionLog (r : Record) : (log .acquisition r).Gives Unopened :=
  gives_log (List.forall_mem_singleton.2 rfl)

theorem unopened_reach {x : Milestone} (hx : (Event.reached x).IsPlain) :
    (reach x).Gives Unopened :=
  gives_reach hx.isInert (List.forall_mem_singleton.2 hx.opens)

theorem shelters_acquireRecording (path : String) :
    (acquireRecording path).Shelters fun _ => True := by
  refine shelters_after (gives_look _) fun r => ?_
  cases r with
  | error e => exact shelters_giveUp _
  | ok _ =>
    refine shelters_after (unopened_reach ⟨⟨trivial, rfl⟩, rfl⟩) fun _ => ?_
    exact shelters_after (unopened_acquisitionLog _) fun _ => shelters_succeed _

variable {f : Frontend} (hf : f.Gives Unopened)
include hf

theorem shelters_acquireDevice (t : Tuning) (d : OpenDevice) :
    (acquireDevice f t d).Shelters fun _ => True := by
  have harm : (arm t.tuningTimeout).Gives Unopened := gives_arm (List.forall_mem_singleton.2 rfl)
  refine shelters_ite (shelters_after harm fun _ => ?_) ?_
  all_goals
    refine shelters_after (hf.tune d t) fun r => ?_
    cases r with
    | error e =>
      exact shelters_after (unopened_reach ⟨⟨trivial, rfl⟩, rfl⟩) fun _ => shelters_giveUp e
    | ok _ => exact shelters_after (unopened_acquisitionLog _) fun _ => shelters_succeed _

/-- However the source is acquired or not, the alarm does no harm afterwards. -/
theorem shelters_acquire (t : Tuning) : (acquire f t).Shelters fun _ => True := by
  unfold acquire
  split
  · exact shelters_acquireRecording _
  · refine shelters_after (hf.openDevice _ _) fun r => ?_
    cases r with
    | error e => exact shelters_giveUp e
    | ok d =>
      refine shelters_after (unopened_reach ⟨⟨trivial, rfl⟩, rfl⟩) fun _ => ?_
      refine shelters_bind shelters_isInterrupted (fun stop hstop => ?_) fun stop hstop => ?_
      · rw [if_pos hstop]
        refine gives_bind (gives_log trivial) fun _ => ?_
        exact gives_bind (gives_reach trivial trivial) fun _ => gives_pure _
      · rw [if_neg hstop]
        exact shelters_acquireDevice hf t d

end Headend.Tuner

namespace Headend.Service

open Headend.Config (Store)
open Headend.Host
open Headend.Host.Run
open Headend.Tuner (Frontend)

/-! ### The stages and the end -/

theorem shelters_stopRequested : stopRequested.Shelters (· = true) := by
  refine shelters_bind shelters_isInterrupted (fun stop hstop => ?_) fun stop hstop => ?_
  · rw [if_pos hstop]
    exact gives_bind (gives_log trivial) fun _ => gives_pure _
  · rw [if_neg hstop]
    exact shelters_pure hstop

section

variable {f : Frontend} (hf : f.Gives Unopened) (o : CommandLine.Options)
include hf

theorem shelters_prepareWith (s : Store) : (prepareWith o f s).Shelters fun _ => True := by
  refine shelters_after (gives_reach trivial (List.forall_mem_singleton.2 rfl)) fun _ => ?_
  refine shelters_after (gives_mono (plain_openLog s) fun _ => unopened_of_plain) fun _ => ?_
  refine shelters_after (gives_log (List.forall_mem_singleton.2 rfl)) fun _ => ?_
  refine shelters_bind shelters_stopRequested (fun stop hstop => ?_) fun stop hstop => ?_
  · rw [if_pos hstop]
    exact gives_pure _
  · rw [if_neg hstop]
    refine shelters_before (Tuner.shelters_acquire hf s.tuning) fun a => ?_
    cases a.result with
    | error e => exact anyEvents_of_gives (steady_giveUpTuning e)
    | ok source => exact anyEvents_of_gives (steady_keep o s source)

/-- If the stages before the engine lead to no error, the alarm does no harm afterwards. -/
theorem shelters_prepare : (prepare o f).Shelters fun p => ∃ x, p.result = .ok x := by
  refine shelters_after (gives_mono (routine_load o) fun _ ht => ?_) fun r => ?_
  · exact unopened_of_plain (plain_of_routine ht)
  cases r with
  | error e => exact shelters_pure (by simp)
  | ok s => exact shelters_mono (shelters_prepareWith hf o s) fun _ _ => trivial

variable {e : Engine} (he : e.Gives AnyEvents)
include he

theorem shelters_stages : (stages o f e).Shelters fun r => ∃ x, r.1 = .ok x := by
  refine shelters_bind (shelters_prepare hf o) (fun p hp => ?_) fun p hp => ?_
  · obtain ⟨handoff, hresult⟩ := hp
    rw [hresult]
    cases handoff with
    | none => exact gives_pure _
    | some handoff => exact gives_runEngine (P := AnyEvents) (fun _ _ => trivial) he handoff _
  · cases hresult : p.result with
    | ok handoff => exact absurd ⟨handoff, hresult⟩ hp
    | error err => exact shelters_pure (by simp)

end

theorem anyEvents_close (h : Holdings) : (close h).Gives AnyEvents := by
  cases hs : h.status with
  | some status =>
    unfold close
    rw [hs]
    exact gives_pure _
  | none =>
    rw [close_eq hs]
    have hback : (giveBack h).Gives AnyEvents :=
      gives_giveBack (P := AnyEvents) (fun _ _ => trivial) (fun _ _ _ _ _ _ _ _ => trivial) h
    exact gives_bind hback fun _ => anyEvents_takeLeave

theorem shelters_finish {result : Except StageError Unit} (hr : ¬∃ x, result = .ok x)
    (h : Holdings) {Q : Int → Prop} : (finish result h).Shelters Q := by
  cases result with
  | ok x => exact absurd ⟨x, rfl⟩ hr
  | error err =>
    refine shelters_before (shelters_report rfl) fun _ => ?_
    exact gives_bind (anyEvents_close h) fun _ => gives_pure _

theorem anyEvents_finish {x : Unit} (h : Holdings) : (finish (.ok x) h).Gives AnyEvents :=
  gives_bind (anyEvents_close h) fun _ => gives_pure _

theorem shelters_start {f : Frontend} (hf : f.Gives Unopened) {e : Engine} (he : e.Gives AnyEvents)
    (o : CommandLine.Options) : (start o f e).Shelters fun _ => True := by
  rw [start_eq]
  refine shelters_bind (shelters_stages hf o he) (fun r hr => ?_) fun r hr => shelters_finish hr _
  obtain ⟨x, hx⟩ := hr
  rw [hx]
  exact anyEvents_finish _

/-- From the creation of a generated file on, and from the beginning of the end on, every alarm is
ignored, whether the process gets to its end or breaks down; and it gets to its end only if the end
has begun. Others may bring the alarm before any step, during any sleep and while the front-end
reads its status, so this is said of every moment; the last one is when the life of the process is
over. -/
theorem start_alarm_ignored {f : Frontend} (hf : f.Gives Unopened) {e : Engine}
    (he : e.Gives AnyEvents) (o : CommandLine.Options) (w : World) :
    ∃ t, ((start o f e).lastWorld w).trace = w.trace ++ t ∧
      (∀ status w', start o f e w = .ok status w' → .reached .closing ∈ t) ∧
      ∀ before x after, t = before ++ x :: after → x.opens = true →
        (∀ d, .signal Signal.alarm d ∈ after → d = .ignored) ∧
          (((start o f e).lastWorld w).signals.handle Signal.alarm).1 = .ignored := by
  obtain ⟨t, ht, -⟩ := shelters_start hf he o w
  refine ⟨t, ht.course.trace, fun status w' hrun => ?_, fun before x after heq hx => ?_⟩
  · obtain ⟨t', ht', hclosing⟩ :=
      reaches_start (hf.mono fun _ _ => trivial) he o w status w' hrun
    have hsame : w.trace ++ t = w.trace ++ t' := by
      rw [← ht.course.trace, ← ht'.trace, lastWorld_of_ok hrun]
    rwa [List.append_cancel_left hsame]
  · obtain ⟨hharmless, hsafe⟩ := ht.harmless heq hx
    exact ⟨hharmless, Signal.State.handle_alarm_eq_ignored_iff.2 hsafe⟩

/-- A world with a recording, in which the alarm comes before every step. -/
def alarming : World := { recorded with schedule := fun _ => [.signal Signal.alarm] }

theorem start_alarm_ignored_alarming :
    Frontend.hardware.Gives Unopened ∧ (Engine.holding true false).Gives AnyEvents ∧
      let w' := (start once .hardware (.holding true false)).lastWorld alarming
      .signal Signal.alarm .tuningTimeout ∈ w'.trace ∧
        .reached (.created "./channels_streamed_adapter0_tuner0" 1) ∈ w'.trace ∧
        ∃ t, w'.trace = alarming.trace ++ t ∧
          (∀ status w', start once .hardware (.holding true false) alarming = .ok status w' →
            .reached .closing ∈ t) ∧
          ∀ before x after, t = before ++ x :: after → x.opens = true →
            (∀ d, .signal Signal.alarm d ∈ after → d = .ignored) ∧
              (w'.signals.handle Signal.alarm).1 = .ignored := by
  have hf : Frontend.hardware.Gives Unopened :=
    Tuner.plain_hardware.mono fun _ => unopened_of_plain
  have he : (Engine.holding true false).Gives AnyEvents := fun handoff =>
    anyEvents_of_gives (steady_holding true false handoff)
  exact ⟨hf, he, by decide +kernel, by decide +kernel, start_alarm_ignored hf he once alarming⟩

end Headend.Service
