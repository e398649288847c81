import Headend.Proofs.Stages

/-!
# The order of the stages

The stages of a run one after the other. Reading the parameters and trying the log file come first
in every run. Then the run ends without a source, or it acquires one, registers it at once, and ends
before the engine starts or when the engine is done. Whatever happens, the events are in order, and
the end begins once, unless the arithmetic of tuning breaks the run down.

Facts: `comes_board`, `board_cases`, `exists_custody`, `proceed_cases` and `ends_engage` (the way of
a run from stage to stage), `start_stagesInOrder` (the whole life).
-/

namespace Headend.Service

open Headend.Config
open Headend.Host
open Headend.Host.Run
open Headend.Tuner (Frontend Source TuneError Acquired)
open Timetable

/-! ### The stages in a row -/

/-- What the stages do with the outcome of acquiring a source. -/
def embark (o : CommandLine.Options) (s : Store) : Except TuneError Source → Run Prepared
  | .error err => giveUpTuning err
  | .ok source => keep o s source

/-- The stages after the log file has been tried. -/
def board (o : CommandLine.Options) (f : Frontend) (s : Store) : Run Prepared := do
  log .startup startRecord
  if ← stopRequested then return ⟨.ok none, {}⟩
  embark o s (← Tuner.acquire f s.tuning).result

/-- What is left when a source is to be acquired. -/
def seek (o : CommandLine.Options) (f : Frontend) (e : Engine) (s : Store) : Run Int :=
  Tuner.acquire f s.tuning >>= fun a => embark o s a.result >>= conclude e

theorem prepareWith_eq (o : CommandLine.Options) (f : Frontend) (s : Store) :
    prepareWith o f s = reach .resolved >>= fun _ => openLog s >>= fun _ => board o f s :=
  rfl

/-- What is left when the engine may start. -/
def engage (e : Engine) (handoff : Handoff) (h : Holdings) : Run Int :=
  runEngine e handoff h >>= fun r => finish r.1 r.2

theorem conclude_handoff (e : Engine) (handoff : Handoff) (h : Holdings) :
    conclude e ⟨.ok (some handoff), h⟩ = engage e handoff h := by
  unfold conclude engage finish report
  refine bind_congr fun r => ?_
  obtain ⟨result, h⟩ := r
  cases result <;> rfl

/-- The result of the stages, if the engine does not start. -/
theorem exists_conclude_eq_finish (e : Engine) {p : Prepared}
    (hp : ∀ handoff, p.result ≠ .ok (some handoff)) :
    ∃ result, conclude e p = finish result p.holdings := by
  obtain ⟨result, h⟩ := p
  cases result with
  | error err => exact ⟨.error err, rfl⟩
  | ok handoff =>
    cases handoff with
    | none => exact ⟨.ok (), rfl⟩
    | some handoff => exact absurd rfl (hp handoff)

section

variable {T : Timetable} {e : Engine}

/-- In whatever stage the stages stop, the run comes to its end there. -/
theorem ends_finish (result : Except StageError Unit) {h : Holdings} (ho : h.status = none)
    {q : Position} (hq : q.ended = false) {S : Stage → Prop} (hS : S q.stage) (w : World) :
    T.Ends q (finish result h) w S := by
  obtain ⟨stage, ended⟩ := q
  cases hq
  refine ends_of_leads (leads_mono (leads_finish result ho (B := fun _ => False)) ?_ ?_) w
  · rintro _ _ rfl
    exact ⟨rfl, hS⟩
  · exact fun _ => False.elim

theorem ends_conclude {p : Prepared} {q : Position} (ho : p.holdings.status = none)
    (hp : ∀ handoff, p.result ≠ .ok (some handoff)) (hq : q.ended = false) {S : Stage → Prop}
    (hS : S q.stage) (w : World) : T.Ends q (conclude e p) w S := by
  obtain ⟨result, hresult⟩ := exists_conclude_eq_finish e hp
  rw [hresult]
  exact ends_finish result ho hq hS w

theorem ends_engage (he : e.Gives Work) (handoff : Handoff) {h : Holdings} (ho : h.status = none)
    (w : World) : T.Ends ⟨.engine, false⟩ (engage e handoff h) w (· = .running) := by
  refine ends_bind (leads_runEngine he handoff ho) ?_ ?_ w
  · rintro r _ ⟨rfl, hr, -⟩
    exact ends_finish r.1 hr rfl rfl
  · rintro _ rfl
    exact ⟨rfl, rfl⟩

end

theorem leads_giveUpTuning {T : Timetable} {q : Position} (hq : Unkept q) (err : TuneError) :
    T.Leads q (giveUpTuning err)
      (fun p q' => q' = q ∧ p.holdings.status = none ∧ ∀ handoff, p.result ≠ .ok (some handoff))
      Unkept := by
  refine leads_ite (fun _ => ?_) fun _ => leads_pure ⟨rfl, rfl, fun _ h => by cases h⟩
  refine leads_after gives_isInterrupted hq fun stop => leads_ite (fun _ => ?_) fun _ => ?_
  · refine leads_after (stays_of_routine (routine_log (by decide) _)) hq fun _ => ?_
    exact leads_pure ⟨rfl, rfl, fun _ h => by cases h⟩
  · exact leads_pure ⟨rfl, rfl, fun _ h => by cases h⟩

section

variable (o : CommandLine.Options) {f : Frontend} {e : Engine} (s : Store)

/-- Once the log file has been tried, the run ends without a source, or it acquires one and goes on
with it. -/
theorem board_cases (hf : f.Gives Unstaged) {p : Position} (hp : MayOpen p) (w : World) :
    (timetable o s).Ends p (board o f s >>= conclude e) w (·.hasSource = false) ∨
      ∃ u mid v a mid' source,
        (timetable o s).Comes p (board o f s >>= conclude e) w u p (seek o f e s) mid ∧
        Tuner.acquire f s.tuning mid = .ok a mid' ∧ a.result = .ok source ∧
        (timetable o s).Comes p (seek o f e s) mid v ⟨.tuning, false⟩
          (keep o s source >>= conclude e) mid' := by
  obtain ⟨stop, mid, hstop⟩ : ∃ stop mid,
      (log .startup startRecord >>= fun _ => stopRequested) w = .ok stop mid :=
    returns_bind (returns_log _ _) (fun _ => returns_stopRequested) w
  obtain ⟨u, hu, hroutine⟩ :=
    (gives_bind (routine_log (a := .startup) (by decide) startRecord)
      fun _ => routine_stopRequested).ok hstop
  have hfalls : board o f s >>= conclude e =
      (log .startup startRecord >>= fun _ => stopRequested) >>= fun stop =>
        if stop = true then finish (.ok ()) {} else seek o f e s := by
    unfold board seek
    simp only [bind_assoc]
    refine bind_congr fun _ => bind_congr fun stop => ?_
    cases stop with
    | true => rfl
    | false => simp only [Bool.false_eq_true, if_false, bind_assoc]
  have hcomes : (timetable o s).Comes p (board o f s >>= conclude e) w u p
      (if stop = true then finish (.ok ()) {} else seek o f e s) mid := by
    rw [hfalls]
    exact comes_bind hstop hu (walk_of_unstaged (unstaged_of_routine hroutine))
  cases stop with
  | true =>
    have hend : (timetable o s).Ends p (finish (.ok ()) {}) mid (·.hasSource = false) :=
      ends_finish (.ok ()) rfl hp.unkept.1 hp.unkept.2 mid
    exact .inl (hcomes.ends hend)
  | false =>
    obtain ⟨v, q, hv, hwalk, hvalue, hbroken⟩ :=
      leads_acquire (T := timetable o s) hf s.tuning hp mid
    cases hacquire : Tuner.acquire f s.tuning mid with
    | error b mid' =>
      obtain ⟨hgoing, hsource⟩ := hbroken b mid' hacquire
      rw [lastWorld_of_error hacquire] at hv
      exact .inl (hcomes.ends (ends_bind_of_error hacquire hv hwalk hgoing hsource))
    | ok a mid' =>
      rw [lastWorld_of_ok hacquire] at hv
      have hsought :=
        comes_bind (f := fun a => embark o s a.result >>= conclude e) hacquire hv hwalk
      rcases hvalue a mid' hacquire with ⟨⟨source, hsource⟩, rfl⟩ | ⟨⟨err, herr⟩, hq⟩
      · rw [hsource] at hsought
        exact .inr ⟨u, mid, v, a, mid', source, hcomes, hacquire, hsource, hsought⟩
      · rw [herr] at hsought
        refine .inl ((hcomes.trans hsought).ends (ends_bind (leads_giveUpTuning hq err) ?_ ?_ mid'))
        · rintro p _ ⟨rfl, ho, hp⟩
          exact ends_conclude ho hp hq.1 hq.2
        · exact fun _ hunkept => hunkept

/-- Once a source is kept, the run ends before the engine starts, or it comes to the engine. -/
theorem proceed_cases (source : Source) (w : World) :
    (timetable o s).Ends ⟨if o.daemon then .pidFile else .lists, false⟩
        (proceed o s source >>= conclude e) w (fun stage => stage.hasSource = true ∧
          stage ≠ .running) ∨
      ∃ u mid handoff h, handoff.store = s ∧ handoff.source = source ∧ h.source = some source ∧
        h.status = none ∧
        (timetable o s).Comes ⟨if o.daemon then .pidFile else .lists, false⟩
          (proceed o s source >>= conclude e) w u ⟨.engine, false⟩ (engage e handoff h) mid := by
  obtain ⟨t, q, ht, hwalk, hvalue, hbroken⟩ := leads_proceed o s source w
  cases hproceed : proceed o s source w with
  | error b w' =>
    have hwaiting := hbroken b w' hproceed
    rw [lastWorld_of_error hproceed] at ht
    exact .inl (ends_bind_of_error hproceed ht hwalk hwaiting.going
      ⟨hwaiting.source, hwaiting.notRunning⟩)
  | ok p w' =>
    have hready := hvalue p w' hproceed
    rw [lastWorld_of_ok hproceed] at ht
    have hcomes := comes_bind (f := conclude e) hproceed ht hwalk
    by_cases hp : ∃ handoff, p.result = .ok (some handoff)
    · obtain ⟨handoff, hresult⟩ := hp
      obtain ⟨rfl, hstore, hsource⟩ := hready.handoff handoff hresult
      obtain ⟨result, h⟩ := p
      cases hresult
      rw [conclude_handoff] at hcomes
      exact .inr ⟨t, w', handoff, h, hstore, hsource, hready.held, hready.isOpen, hcomes⟩
    · refine .inl (hcomes.ends ?_)
      exact ends_conclude hready.isOpen (not_exists.1 hp) hready.waiting.going
        ⟨hready.waiting.source, hready.waiting.notRunning⟩ w'

end

/-! ### The source is given back -/

theorem reaches_closed {h : Holdings} {source : Source} (hs : h.source = some source) :
    (giveBack h).Reaches (.reached (.closed source.path)) := by
  have hjoin : (joinWorkers h.workers).Gives AnyEvents :=
    anyEvents_of_gives (routine_joinWorkers h.workers)
  have hclosing : (reach .closing).Gives AnyEvents := gives_reach trivial trivial
  refine reaches_after hclosing (fun _ _ _ _ => trivial) fun _ (_ : True) => ?_
  refine reaches_after hjoin (fun _ _ _ _ => trivial) fun _ (_ : True) => ?_
  rw [hs]
  exact reaches_before (reaches_emit trivial) fun _ => anyEvents_removeAll _

theorem reaches_closed_finish (result : Except StageError Unit) {h : Holdings} {source : Source}
    (ho : h.status = none) (hs : h.source = some source) :
    (finish result h).Reaches (.reached (.closed source.path)) := by
  rw [finish_eq result ho]
  refine reaches_after (anyEvents_announce result) (fun _ _ _ _ => trivial) fun _ (_ : True) => ?_
  refine reaches_before (reaches_closed hs) fun _ => ?_
  exact gives_bind anyEvents_takeLeave fun _ => gives_pure _

section

variable (o : CommandLine.Options) {e : Engine} (s : Store) (source : Source)

theorem reaches_closed_engage (he : e.Gives Work) (handoff : Handoff) {h : Holdings}
    (ho : h.status = none) (hs : h.source = some source) :
    (engage e handoff h).Reaches (.reached (.closed source.path)) := by
  have hengine := leads_runEngine (T := ⟨none, []⟩) he handoff ho
  refine reaches_after (gives_of_leads hengine) (yields_of_leads hengine fun r _ hr => hr.2) ?_
  exact fun r ⟨hr, hsame⟩ => reaches_closed_finish r.1 hr (hsame.trans hs)

/-- A source that is kept is given back in every run that does not break down. -/
theorem reaches_closed_proceed (he : e.Gives Work) :
    (proceed o s source >>= conclude e).Reaches (.reached (.closed source.path)) := by
  have hproceed := leads_proceed o s source
  refine reaches_after (P := fun p => p.holdings.source = some source ∧ p.holdings.status = none)
    (gives_of_leads hproceed) (yields_of_leads hproceed fun p _ hp => ⟨hp.held, hp.isOpen⟩) ?_
  rintro ⟨result, h⟩ ⟨hs, ho⟩
  by_cases hp : ∃ handoff, result = .ok (some handoff)
  · obtain ⟨handoff, rfl⟩ := hp
    rw [conclude_handoff]
    exact reaches_closed_engage source he handoff ho hs
  · obtain ⟨result', hresult⟩ := exists_conclude_eq_finish e (p := ⟨result, h⟩) (not_exists.1 hp)
    rw [hresult]
    exact reaches_closed_finish result' ho hs

end

/-! ### The whole life -/

/-- Whether nothing belongs to a stage but the beginning of the end. -/
def OnlyEnd (t : List Event) : Prop := ∀ x ∈ t, x.isStaged = true → x = .reached .closing

theorem onlyEnd_of_unstaged {t : List Event} (h : Unstaged t) : OnlyEnd t :=
  fun x hx hstaged => by rw [h x hx] at hstaged; cases hstaged

instance : Additive OnlyEnd where
  foreign t h := onlyEnd_of_unstaged (Additive.foreign t h)
  append _ _ hs ht := List.forall_mem_append.2 ⟨hs, ht⟩

/-- Where nothing is held, nothing is given back. -/
theorem onlyEnd_finish (result : Except StageError Unit) : (finish result {}).Gives OnlyEnd := by
  have hback : (giveBack {}).Gives OnlyEnd :=
    gives_bind (gives_reach trivial (List.forall_mem_singleton.2 fun _ => rfl)) fun _ =>
      gives_bind (gives_mono (routine_joinWorkers []) fun _ ht =>
        onlyEnd_of_unstaged (unstaged_of_routine ht)) fun _ => gives_pure ()
  rw [finish_eq result rfl]
  have hannounce := gives_mono (unstaged_announce result) fun _ => onlyEnd_of_unstaged
  have hleave := gives_mono unstaged_takeLeave fun _ => onlyEnd_of_unstaged
  exact gives_bind hannounce fun _ => gives_bind hback fun _ => gives_bind hleave fun _ =>
    gives_pure _

section

variable (o : CommandLine.Options) (f : Frontend) (e : Engine)

/-- How a run has a source: it acquired it, registered it before anything else, gives it back unless
it breaks down, and hands it over with the resolved parameters if the engine starts. -/
structure Custody (s : Store) (source : Source) (w : World) (t : List Event) : Prop where
  acquired : ∃ u mid v a mid' between rest,
    t = (u ++ v) ++ (between ++ .reached .deviceKept :: rest) ∧
      Course w u mid ∧ start o f e w = seek o f e s mid ∧
      Course mid v mid' ∧ Tuner.acquire f s.tuning mid = .ok a mid' ∧ a.result = .ok source ∧
      (∀ x ∈ between, x.IsForeign) ∧
      (ReturnsFrom (start o f e) w → .reached (.closed source.path) ∈ rest)
  engine : .reached .engineStarted ∈ t → ∃ u mid rest handoff h,
    t = u ++ rest ∧ Course w u mid ∧ start o f e w = engage e handoff h mid ∧
      handoff.store = s ∧ handoff.source = source ∧ h.source = some source

/-- The stages of a run that has come to its parameters, or could not, are in order. -/
structure StagesInOrder (r : Except ConfigError Store) (w : World) (t : List Event) : Prop where
  /-- The end begins exactly once, or never if the run breaks down. -/
  closes : (ReturnsFrom (start o f e) w → t.count (.reached .closing) = 1) ∧
    (¬ReturnsFrom (start o f e) w → .reached .closing ∉ t)
  /-- Without parameters nothing of the stages happens, but for the end. -/
  unresolved : ∀ err, r = .error err → ReturnsFrom (start o f e) w ∧ OnlyEnd t
  published : ∀ s, r = .ok s → s.channels.published = some s.channels.length
  order : ∀ s, r = .ok s → ∃ q, (timetable o s).walk ⟨.parameters, false⟩ t = some q ∧
    (q.ended = true ↔ ReturnsFrom (start o f e) w)
  /-- The log file is tried once the parameters are known. The rest of the run is the same whatever
  came of that. -/
  logFile : ∀ s, r = .ok s → ∃ u v rest mid,
    t = (u ++ .reached .resolved :: v) ++ rest ∧ Unstaged u ∧ LogAttempt s v ∧
      Course w (u ++ .reached .resolved :: v) mid ∧
      start o f e w = (board o f s >>= conclude e) mid
  source : ∀ s, r = .ok s → .reached .deviceKept ∈ t → ∃ source, Custody o f e s source w t

variable {f e}

/-- Without parameters the run comes to its end at once. -/
theorem stagesInOrder_of_error {w w₁ : World} {err : ConfigError}
    (hload : load o w = .ok (.error err) w₁) :
    ∃ t, Course w t ((start o f e).lastWorld w) ∧ StagesInOrder o f e (.error err) w t := by
  have hrest : start o f e w = finish (.error (.configuration err)) {} w₁ :=
    bind_of_ok (prepare_of_load_error hload f)
  obtain ⟨u, hu, hroutine⟩ := (routine_load o).ok hload
  have hcomes : (⟨none, []⟩ : Timetable).Comes ⟨.parameters, false⟩ (start o f e) w u
      ⟨.parameters, false⟩ (finish (.error (.configuration err)) {}) w₁ :=
    ⟨hu, walk_of_unstaged (unstaged_of_routine hroutine), hrest⟩
  have hreturns : ReturnsFrom (start o f e) w := hcomes.returnsFrom_iff.2 (returns_finish _ rfl w₁)
  obtain ⟨t, ht, honly⟩ := onlyEnd_finish (.error (.configuration err)) w₁
  obtain ⟨t', q, ht', hwalk, -, hended⟩ :=
    hcomes.ends (ends_finish (S := fun _ => True) _ rfl rfl trivial w₁)
  rw [← hcomes.lastWorld] at ht
  obtain rfl := ht'.unique (hu.append ht)
  have hcount := count_closing hwalk
  rw [hended.2 hreturns] at hcount
  have hall : OnlyEnd (u ++ t) :=
    Additive.append _ _ (onlyEnd_of_unstaged (unstaged_of_routine hroutine)) honly
  exact ⟨_, ht', {
    closes := ⟨fun _ => hcount, fun h => absurd hreturns h⟩
    unresolved := fun _ _ => ⟨hreturns, hall⟩
    published := fun _ h => by cases h
    order := fun _ h => by cases h
    logFile := fun _ h => by cases h
    source := fun _ h => by cases h }⟩

variable {o}

/-- The run from the log file on is in order if its source is kept as it should be. -/
theorem stagesInOrder_of_comes {s : Store} {w mid : World} {q last : Position}
    {u v t : List Event} (hpublished : s.channels.published = some s.channels.length)
    (hu : Unstaged u) (hv : LogAttempt s v)
    (hcomes : (timetable o s).Comes ⟨.parameters, false⟩ (start o f e) w
      (u ++ .reached .resolved :: v) q (board o f s >>= conclude e) mid)
    (hwalk : (timetable o s).walk q t = some last)
    (hended : last.ended = true ↔ ReturnsFrom (start o f e) w)
    (hsource : last.stage.hasSource = true → ∃ source, Custody o f e s source w
      ((u ++ .reached .resolved :: v) ++ t)) :
    StagesInOrder o f e (.ok s) w ((u ++ .reached .resolved :: v) ++ t) := by
  have hwhole := (walk_append_of_eq (t := t) hcomes.walk).trans hwalk
  have hcount := count_closing hwhole
  refine ⟨⟨fun hreturns => ?_, fun hbroken => ?_⟩, ?_, ?_, ?_, ?_, ?_⟩
  · rw [hended.2 hreturns] at hcount
    exact hcount
  · rw [Bool.eq_false_iff.2 fun h => hbroken (hended.1 h)] at hcount
    exact List.count_eq_zero.1 hcount
  · rintro err ⟨⟩
  · rintro _ ⟨⟩
    exact hpublished
  · rintro _ ⟨⟩
    exact ⟨last, hwhole, hended⟩
  · rintro _ ⟨⟩
    exact ⟨u, v, t, mid, rfl, hu, hv, hcomes.course, hcomes.rest⟩
  · rintro _ ⟨⟩ hkept
    exact hsource (hasSource_of_mem hwhole hkept)

/-- Up to the log file every run with parameters is the same. -/
theorem comes_board {s : Store} {w w₁ : World} (hload : load o w = .ok (.ok s) w₁) :
    ∃ u v q mid, Unstaged u ∧ LogAttempt s v ∧ MayOpen q ∧
      (timetable o s).Comes ⟨.parameters, false⟩ (start o f e) w (u ++ .reached .resolved :: v) q
        (board o f s >>= conclude e) mid := by
  obtain ⟨u, hu, hroutine⟩ := (routine_load o).ok hload
  obtain ⟨u', hu', hforeign⟩ := course_advance w₁
  obtain ⟨v, mid, hopen, hv, hlog⟩ := course_openLog s (w₁.advance.emit (.reached .resolved))
  obtain ⟨q, hq, hmay⟩ := walk_of_logAttempt (T := timetable o s) hlog
  have hunstaged : Unstaged (u ++ u') :=
    Additive.append _ _ (unstaged_of_routine hroutine) (Additive.foreign _ hforeign)
  refine ⟨u ++ u', v, q, mid, hunstaged, hlog, hmay, ?_, ?_, ?_⟩
  · have hcourse := (hu.append (hu'.append
      (Move.course (.event w₁.advance (e := .reached .resolved) trivial)))).append hv
    simpa using hcourse
  · rw [walk_append_of_eq (walk_of_unstaged hunstaged), walk_cons]
    exact hq
  · calc start o f e w
        = (prepareWith o f s >>= conclude e) w₁ := by
          unfold start prepare
          rw [bind_assoc, bind_of_ok hload]
      _ = (board o f s >>= conclude e) mid := by
          rw [prepareWith_eq, bind_assoc, bind_of_ok (show reach .resolved w₁ = .ok () _ from rfl),
            bind_assoc, bind_of_ok hopen]

/-- From the moment in which it is acquired, a source is kept as it should be, and the rest of the
run is in order. -/
theorem exists_custody (he : e.Gives Work) {s : Store} {source : Source} {w mid mid' : World}
    {q : Position} {u v : List Event} {a : Acquired}
    (hseek : (timetable o s).Comes ⟨.parameters, false⟩ (start o f e) w u q (seek o f e s) mid)
    (hacquire : Tuner.acquire f s.tuning mid = .ok a mid') (hsource : a.result = .ok source)
    (hkeep : (timetable o s).Comes q (seek o f e s) mid v ⟨.tuning, false⟩
      (keep o s source >>= conclude e) mid') :
    ∃ t last, Course w ((u ++ v) ++ t) ((start o f e).lastWorld w) ∧
      (timetable o s).walk ⟨.tuning, false⟩ t = some last ∧
      (last.ended = true ↔ ReturnsFrom (start o f e) w) ∧
      Custody o f e s source w ((u ++ v) ++ t) := by
  obtain ⟨between, hbetween, hforeign⟩ := course_advance mid'
  have hregister : (timetable o s).Comes ⟨.tuning, false⟩ (keep o s source >>= conclude e) mid'
      (between ++ [.reached .deviceKept]) ⟨if o.daemon then .pidFile else .lists, false⟩
      (proceed o s source >>= conclude e) (mid'.advance.emit (.reached .deviceKept)) := by
    refine ⟨hbetween.append (Move.course (.event _ trivial)), ?_, ?_⟩
    · rw [walk_append_of_eq (walk_of_unstaged (Additive.foreign _ hforeign)), walk_singleton]
      unfold timetable
      cases o.daemon <;> rfl
    · rw [keep_eq, bind_assoc, bind_of_ok (show reach .deviceKept mid' = .ok () _ from rfl)]
  have hkept := (hseek.trans hkeep).trans hregister
  -- Whether or not the engine starts, the rest is in order, and the engine gets what it should.
  obtain ⟨rest, last, hrest, hwalk, hended, hengine⟩ : ∃ rest last,
      Course (mid'.advance.emit (.reached .deviceKept)) rest ((start o f e).lastWorld w) ∧
      (timetable o s).walk ⟨if o.daemon then .pidFile else .lists, false⟩ rest = some last ∧
      (last.ended = true ↔ ReturnsFrom (start o f e) w) ∧
      (last.stage = .running → ∃ u' mid'' rest' handoff h,
        (u ++ v) ++ (between ++ .reached .deviceKept :: rest) = u' ++ rest' ∧ Course w u' mid'' ∧
        start o f e w = engage e handoff h mid'' ∧ handoff.store = s ∧ handoff.source = source ∧
        h.source = some source) := by
    rcases proceed_cases o s source (mid'.advance.emit (.reached .deviceKept)) with
      hends | ⟨u', mid'', handoff, h, hstore, hgiven, hheld, ho, hcomes⟩
    · obtain ⟨rest, last, hrest, hwalk, ⟨-, hnotRunning⟩, hended⟩ := hends
      rw [← hkept.lastWorld] at hrest
      exact ⟨rest, last, hrest, hwalk, hended.trans hkept.returnsFrom_iff.symm, fun hrunning =>
        absurd hrunning hnotRunning⟩
    · obtain ⟨rest, last, hrest, hwalk, -, hended⟩ :=
        ends_engage (T := timetable o s) he handoff ho mid''
      have hengaged := hkept.trans hcomes
      rw [← hengaged.lastWorld] at hrest
      refine ⟨u' ++ rest, last, hcomes.course.append hrest,
        (walk_append_of_eq hcomes.walk).trans hwalk, hended.trans hengaged.returnsFrom_iff.symm,
        fun _ => ⟨_, mid'', rest, handoff, h, ?_, hengaged.course, hengaged.rest, hstore, hgiven,
          hheld⟩⟩
      simp only [List.append_assoc, List.cons_append, List.nil_append]
  have hwhole : (timetable o s).walk ⟨.tuning, false⟩ (between ++ .reached .deviceKept :: rest) =
      some last := by
    rw [List.append_cons, walk_append_of_eq hregister.walk]
    exact hwalk
  refine ⟨between ++ .reached .deviceKept :: rest, last, ?_, hwhole, hended, ?_, ?_⟩
  · have hcourse := hkept.course.append hrest
    simpa using hcourse
  · refine ⟨u, mid, v, a, mid', between, rest, rfl, hseek.course, hseek.rest, hkeep.course,
      hacquire, hsource, hforeign, fun hreturns => ?_⟩
    obtain ⟨status, w', hstatus⟩ := hreturns
    rw [hkept.rest] at hstatus
    obtain ⟨rest', hrest', hclosed⟩ := reaches_closed_proceed o s source he _ _ _ hstatus
    rw [hkept.lastWorld, lastWorld_of_ok hstatus] at hrest
    rwa [hrest.unique hrest']
  · intro hstarted
    have hall := (walk_append_of_eq (hseek.trans hkeep).walk).trans hwhole
    exact hengine (running_of_mem hall hstarted)

/-- The stages of every run are in order, whatever the front-end and the engine do, as long as they
do not tell of stages that are not theirs. -/
theorem start_stagesInOrder (hf : f.Gives Unstaged) (he : e.Gives Work) (o : CommandLine.Options)
    (w : World) :
    ∃ r w₁ t, load o w = .ok r w₁ ∧ Course w t ((start o f e).lastWorld w) ∧
      StagesInOrder o f e r w t := by
  obtain ⟨r, w₁, hload⟩ := returns_load o w
  cases r with
  | error err =>
    obtain ⟨t, ht, horder⟩ := stagesInOrder_of_error o hload
    exact ⟨_, w₁, t, hload, ht, horder⟩
  | ok s =>
    have hpublished := yields_load o w _ w₁ hload s rfl
    obtain ⟨u, v, q, mid, hu, hv, hmay, hboard⟩ := comes_board (f := f) (e := e) hload
    rcases board_cases o s hf hmay mid with
      hends | ⟨u', mid', v', a, mid'', source, hseek, hacquire, hsource, hkeep⟩
    · obtain ⟨t, last, ht, hwalk, hnone, hended⟩ := hends
      rw [← hboard.lastWorld] at ht
      rw [← hboard.returnsFrom_iff] at hended
      refine ⟨_, w₁, _, hload, hboard.course.append ht,
        stagesInOrder_of_comes hpublished hu hv hboard hwalk hended fun hsome => ?_⟩
      rw [hnone] at hsome
      cases hsome
    · obtain ⟨t, last, ht, hwalk, hended, hcustody⟩ :=
        exists_custody he (hboard.trans hseek) hacquire hsource hkeep
      have hsought := (walk_append_of_eq (hseek.trans hkeep).walk).trans hwalk
      rw [List.append_assoc, List.append_assoc] at ht hcustody
      refine ⟨_, w₁, _, hload, ht, stagesInOrder_of_comes hpublished hu hv hboard ?_ hended
        fun _ => ⟨source, hcustody⟩⟩
      rw [← List.append_assoc]
      exact hsought

end

/-- A world with a recording and a configuration that names a log file. -/
def furnished : World where
  files :=
    { nodes := [(["d.conf"], .file 0), (["r.ts"], .file 1)]
      contents := [Text.octets "log_file = l.log\nfilename_pid = p.pid\n", []] }

/-- The options of a run in the background that opens the recording and ends. -/
def background : CommandLine.Options :=
  { config := some "d.conf", recording := some "r.ts", givenRunDir := some ".", daemon := true
    exitAfterTune := true }

theorem start_stagesInOrder_furnished :
    Frontend.hardware.Gives Unstaged ∧ (Engine.holding true false).Gives Work ∧
      (let trace := ((start background .hardware (.holding true false)).lastWorld furnished).trace
      .reached (.logAttached "l.log") ∈ trace ∧ .reached .deviceKept ∈ trace ∧
        .reached (.completed "p.pid") ∈ trace ∧ .reached .engineStarted ∈ trace ∧
        .reached .closing ∈ trace) ∧
      ∃ r w₁ t, load background furnished = .ok r w₁ ∧
        Course furnished t
          ((start background .hardware (.holding true false)).lastWorld furnished) ∧
        StagesInOrder background .hardware (.holding true false) r furnished t := by
  have hf : Frontend.hardware.Gives Unstaged :=
    Tuner.routine_hardware.mono fun _ => unstaged_of_routine
  have he : (Engine.holding true false).Gives Work := fun handoff =>
    gives_mono (producing_hold true false handoff) fun _ => work_of_producing
  exact ⟨hf, he, by decide +kernel, start_stagesInOrder hf he background furnished⟩

/-! ### A run that breaks down -/

/-- A world with a satellite card and a configuration whose symbol rate does not fit into its
word. -/
def excessive : World where
  files :=
    { nodes := [(["d.conf"], .file 0), (["dev"], .directory), (["dev", "frontend0"], .file 1)]
      contents := [Text.octets ("delivery_system = DVBS\nfreq = 11778\npol = h\n" ++
        "srate = 4294968\ncard_dev_path = dev\n"), []] }
  devices := [(1, { name := some (Text.octets "Card") })]

/-- The options of a run from the configuration alone. -/
def configured : CommandLine.Options := { config := some "d.conf", givenRunDir := some "run" }

/-- The end does not begin in every run: one that breaks down while it tunes leaves the open device
as it is. -/
theorem not_alwaysEnds :
    ¬∀ (o : CommandLine.Options) (f : Frontend) (e : Engine) (w : World) (t : List Event),
      f.Gives Unstaged → e.Gives Work →
      ((start o f e).lastWorld w).trace = w.trace ++ t → t.count (.reached .closing) = 1 := by
  intro h
  have hf : Frontend.hardware.Gives Unstaged :=
    Tuner.routine_hardware.mono fun _ => unstaged_of_routine
  have he : (Engine.holding false false).Gives Work := fun handoff =>
    gives_mono (producing_hold false false handoff) fun _ => work_of_producing
  have hcount := h configured .hardware (.holding false false) excessive _ hf he
    (List.nil_append _).symm
  have hnone : ((start configured .hardware (.holding false false)).lastWorld
      excessive).trace.count (.reached .closing) = 0 := by decide +kernel
  rw [hnone] at hcount
  cases hcount

end Headend.Service
