import Headend.Proofs.ResolvedStore
import Headend.Proofs.Timetable

/-!
# The stages one by one

What each stage of a run leads to, by the timetable of the run: reading the parameters, trying the
log file, acquiring a source, creating the files, the engine, and the end. Each stage has its own
effects and no others, and where a stage fails the run is left where it was.

Facts: `returns_load` and `yields_load` (the parameters), `course_openLog` (the log file),
`leads_acquire` (a source), `leads_proceed` (the files), `leads_runEngine` and `leads_finish` (the
engine and the end).
-/

namespace Headend.Service

open Headend.Config
open Headend.Host
open Headend.Host.Run
open Headend.Tuner (Frontend Source TuneError Acquired)
open Timetable

/-! ### The parameters -/

theorem returns_readNode (node : Node) : (readNode node).Returns := by
  cases node with
  | directory => exact returns_look _
  | file id => exact returns_look _

theorem returns_readConfiguration (o : CommandLine.Options) : (readConfiguration o).Returns := by
  unfold readConfiguration
  split
  · exact returns_pure _
  · refine returns_bind (returns_bind (returns_look _) fun r => ?_) fun _ => returns_pure _
    cases r with
    | error e => exact returns_pure _
    | ok node =>
      refine returns_bind (returns_log _ _) fun _ => returns_bind (returns_readNode node) ?_
      rintro (e | shown)
      · exact returns_pure _
      · refine returns_bind (returns_logAll _ _) fun _ => returns_bind (returns_readNode node) ?_
        rintro (e | bs)
        · exact returns_pure _
        · exact returns_bind (returns_logAll _ _) fun _ => returns_pure _

/-- Reading, parsing and resolving the parameters never breaks down. -/
theorem returns_load (o : CommandLine.Options) : (load o).Returns := by
  refine returns_bind (returns_readConfiguration o) fun r => ?_
  cases r with
  | error e => exact returns_pure _
  | ok draft =>
    exact returns_bind (returns_log _ _) fun _ => returns_bind (returns_logAll _ _) fun _ =>
      returns_pure _

/-- The number of channels that is published is that of the table. -/
theorem yields_load (o : CommandLine.Options) :
    (load o).Yields fun r => ∀ s, r = .ok s → s.channels.published = some s.channels.length := by
  refine yields_after fun r => ?_
  cases r with
  | error e => exact yields_pure fun s hs => by cases hs
  | ok draft =>
    refine yields_after fun _ => yields_after fun _ => yields_pure fun s hs => ?_
    have hstore : (o.override { draft.store with
        channels := draft.store.channels.freeze }).resolve.store = s := by
      revert hs
      cases Resolved.result _ with
      | error e => intro hs; cases hs
      | ok _ => intro hs; exact Except.ok.inj hs
    rw [← hstore, channels_resolve]
    exact congrArg some (ChannelTable.length_freeze _).symm

/-! ### The log file -/

/-- The warning about a log file that cannot be opened. -/
def logNotOpened (path : String) (e : Failure) : Record :=
  .warn s!"Cannot open log file {path}: {e.message}"

/-- What trying to send the log to the file of the parameters leaves: nothing if they name none,
else that it was done, or the warning that it was not. -/
def LogAttempt (s : Store) (t : List Event) : Prop :=
  match s.logging.file with
  | none => t = []
  | some path => ∃ u, (∀ x ∈ u, x.IsForeign) ∧
      (t = u ++ [.reached (.logAttached path)] ∨ ∃ e v, (∀ x ∈ v, x.IsForeign) ∧
        t = u ++ (v ++ [.log .startup (logNotOpened path e)]))

theorem course_openLog (s : Store) (w : World) :
    ∃ t w', openLog s w = .ok () w' ∧ Course w t w' ∧ LogAttempt s t := by
  unfold openLog LogAttempt
  cases s.logging.file with
  | none => exact ⟨[], w, rfl, .nil w, rfl⟩
  | some path =>
    obtain ⟨u, mid, hu, ⟨hmid, hcourse⟩ | ⟨e, hmid, hcourse⟩⟩ := attachLog_course path w
    · exact ⟨_, mid, bind_of_ok hmid, hcourse, u, hu, .inl rfl⟩
    · obtain ⟨v, hv, hforeign⟩ := course_advance mid
      have hwarned := hv.append (course_record mid.advance .startup (logNotOpened path e))
      exact ⟨_, _, bind_of_ok hmid, hcourse.append hwarned, u, hu, .inr ⟨e, v, hforeign, rfl⟩⟩

/-- Whether a source may be opened next. -/
def MayOpen (p : Position) : Prop := p = ⟨.logFile, false⟩ ∨ p = ⟨.source, false⟩

theorem walk_of_logAttempt {T : Timetable} {s : Store} {t : List Event} (h : LogAttempt s t) :
    ∃ q, T.walk ⟨.logFile, false⟩ t = some q ∧ MayOpen q := by
  unfold LogAttempt at h
  split at h
  · rw [h]
    exact ⟨_, rfl, .inl rfl⟩
  · rename_i path _
    obtain ⟨u, hu, rfl | ⟨e, v, hv, rfl⟩⟩ := h
    · refine ⟨⟨.source, false⟩, ?_, .inr rfl⟩
      rw [walk_append_of_eq (walk_of_unstaged (Additive.foreign u hu))]
      rfl
    · have hwarned : Unstaged (u ++ (v ++ [.log .startup (logNotOpened path e)])) :=
        Additive.append _ _ (Additive.foreign u hu)
          (Additive.append _ _ (Additive.foreign v hv) (List.forall_mem_singleton.2 rfl))
      exact ⟨_, walk_of_unstaged hwarned, .inl rfl⟩

theorem returns_openLog (s : Store) : (openLog s).Returns := fun w =>
  let ⟨_, w', hopen, _⟩ := course_openLog s w
  ⟨(), w', hopen⟩

theorem leads_openLog {T : Timetable} (s : Store) {B : Position → Prop} :
    T.Leads ⟨.logFile, false⟩ (openLog s) (fun _ q => MayOpen q) B := by
  intro w
  obtain ⟨t, w', hopen, ht, hlog⟩ := course_openLog s w
  obtain ⟨q, hwalk, hq⟩ := walk_of_logAttempt (T := T) hlog
  refine ⟨t, q, lastWorld_of_ok hopen ▸ ht, hwalk, fun _ _ _ => hq, fun b w'' hb => ?_⟩
  rw [hopen] at hb
  cases hb

/-! ### Acquiring a source -/

/-- Whether the end has not begun and no source is kept. -/
def Unkept (p : Position) : Prop := p.ended = false ∧ p.stage.hasSource = false

/-- Whether acquiring a source led to one that is open, or to none. -/
def Settles (a : Acquired) (q : Position) : Prop :=
  (∃ source, a.result = .ok source) ∧ q = ⟨.tuning, false⟩ ∨
    (∃ err, a.result = .error err) ∧ Unkept q

theorem MayOpen.unkept {p : Position} (h : MayOpen p) : Unkept p := by
  rcases h with rfl | rfl <;> exact ⟨rfl, rfl⟩

section

variable {T : Timetable} {p : Position}

theorem unstaged_report (a : Area) (r : Record) (code : ExitCode) :
    (report a r code).Gives Unstaged :=
  gives_report fun v hv => List.forall_mem_cons.2 ⟨rfl, Additive.append (P := Unstaged) v _
    (Additive.foreign v hv) (List.forall_mem_singleton.2 rfl)⟩

theorem leads_giveUp (e : TuneError) (hp : Unkept p) :
    T.Leads p (Tuner.giveUp e) Settles Unkept := by
  rw [Tuner.giveUp_eq]
  refine leads_after (stays_of_unstaged (unstaged_report _ _ _)) hp fun _ => ?_
  exact leads_pure (.inr ⟨⟨e, rfl⟩, hp⟩)

theorem leads_succeed (source : Source) :
    T.Leads ⟨.tuning, false⟩ (Tuner.succeed source) Settles Unkept :=
  leads_after gives_setTuned ⟨rfl, rfl⟩ fun _ => leads_pure (.inl ⟨⟨source, rfl⟩, rfl⟩)

theorem step_opened (path : String) (hp : MayOpen p) :
    T.step p (.reached (.opened path)) = some ⟨.tuning, false⟩ := by
  rcases hp with rfl | rfl <;> rfl

/-- A record about acquiring a source leaves the position as it is. -/
theorem stays_acquisitionInfo (text : String) :
    (log .acquisition (.info text)).Gives (T.Stays p) :=
  stays_of_unstaged (gives_log (List.forall_mem_singleton.2 rfl))

theorem leads_acquireRecording (path : String) (hp : MayOpen p) :
    T.Leads p (Tuner.acquireRecording path) Settles Unkept := by
  refine leads_after (gives_look _) hp.unkept fun r => ?_
  cases r with
  | error e => exact leads_giveUp _ hp.unkept
  | ok _ =>
    refine leads_reach trivial (step_opened path hp) ?_
    exact leads_after (stays_acquisitionInfo _) ⟨rfl, rfl⟩ fun _ => leads_succeed _

theorem leads_acquireDevice {f : Frontend} (hf : f.Gives Unstaged) (t : Config.Tuning)
    (d : Tuner.OpenDevice) :
    T.Leads ⟨.tuning, false⟩ (Tuner.acquireDevice f t d) Settles Unkept := by
  have harm : (arm t.tuningTimeout).Gives (T.Stays ⟨.tuning, false⟩) := gives_arm rfl
  have htune : (f.tune d t).Gives (T.Stays ⟨.tuning, false⟩) := stays_of_unstaged (hf.tune d t)
  refine leads_ite (fun _ => leads_after harm ⟨rfl, rfl⟩ fun _ => ?_) fun _ => ?_
  all_goals
    refine leads_after htune ⟨rfl, rfl⟩ fun r => ?_
    cases r with
    | error e => exact leads_reach trivial rfl (leads_giveUp e ⟨rfl, rfl⟩)
    | ok _ => exact leads_after (stays_acquisitionInfo _) ⟨rfl, rfl⟩ fun _ => leads_succeed _

/-- Acquiring a source opens at most one, and leaves it open exactly if it tells so. -/
theorem leads_acquire {f : Frontend} (hf : f.Gives Unstaged) (t : Config.Tuning) (hp : MayOpen p) :
    T.Leads p (Tuner.acquire f t) Settles Unkept := by
  unfold Tuner.acquire
  split
  · exact leads_acquireRecording _ hp
  · refine leads_after (stays_of_unstaged (hf.openDevice _ _)) hp.unkept fun r => ?_
    cases r with
    | error e => exact leads_giveUp e hp.unkept
    | ok d =>
      refine leads_reach trivial (step_opened d.path hp) ?_
      refine leads_after gives_isInterrupted ⟨rfl, rfl⟩ fun stop => ?_
      refine leads_ite (fun _ => ?_) fun _ => leads_acquireDevice hf t d
      refine leads_after (stays_acquisitionInfo _) ⟨rfl, rfl⟩ fun _ => ?_
      exact leads_reach trivial rfl (leads_pure (.inr ⟨⟨_, rfl⟩, rfl, rfl⟩))

end

/-! ### From a source to the engine -/

/-- The files that a run with resolved parameters creates before the engine starts. -/
def timetable (o : CommandLine.Options) (s : Store) : Timetable where
  pidFile := if o.daemon then some s.options.pidFile else none
  lists := (ListPaths.make o.runDir (s.tuning.card.getD 0) s.tuning.tuner s.cam.support).all

/-- Whether a source is kept, the engine has not started, and the end has not begun. -/
structure Waiting (p : Position) : Prop where
  going : p.ended = false
  source : p.stage.hasSource = true
  notRunning : p.stage ≠ .running

/-- What the stages after a source is kept lead to: the source is held, and the engine gets it if it
is its turn. -/
structure Readied (s : Store) (source : Source) (p : Prepared) (q : Position) : Prop where
  held : p.holdings.source = some source
  isOpen : p.holdings.status = none
  waiting : Waiting q
  handoff : ∀ handoff, p.result = .ok (some handoff) →
    q = ⟨.engine, false⟩ ∧ handoff.store = s ∧ handoff.source = source

/-- The stages after a source is kept. -/
def proceed (o : CommandLine.Options) (s : Store) (source : Source) : Run Prepared := do
  let h := Holdings.keepSource {} source
  if ← stopRequested then return ⟨.ok none, h⟩
  equip o s source h

theorem keep_eq (o : CommandLine.Options) (s : Store) (source : Source) :
    keep o s source = reach .deviceKept >>= fun _ => proceed o s source :=
  rfl

section

variable {T : Timetable} {p : Position}

theorem leads_writePidFile {path : String} (hpath : T.pidFile = some path) :
    T.Leads ⟨.pidFile, false⟩ (writePidFile path)
      (fun r q => r = .ok () ∧ q = ⟨.lists, false⟩ ∨ (∃ e, r = .error e) ∧ q = ⟨.pidFile, false⟩)
      Waiting := by
  have hwaiting : Waiting ⟨.pidFile, false⟩ := ⟨rfl, rfl, by decide⟩
  have hcreated : ∀ id, T.Stays ⟨.pidFile, false⟩ [.reached (.created path id)] := fun id =>
    walk_singleton.trans (congrArg (Option.map _) (if_pos hpath))
  have hcompleted : T.step ⟨.pidFile, false⟩ (.reached (.completed path)) =
      some ⟨.lists, false⟩ := congrArg (Option.map _) (if_pos hpath)
  refine leads_after (gives_look _) hwaiting fun n => ?_
  refine leads_after (gives_createFile hcreated) hwaiting fun r => ?_
  cases r with
  | error e => exact leads_pure (.inr ⟨⟨e, rfl⟩, rfl⟩)
  | ok id =>
    refine leads_after (gives_writeLines id _) hwaiting fun r => ?_
    cases r with
    | error e => exact leads_pure (.inr ⟨⟨e, rfl⟩, rfl⟩)
    | ok _ => exact leads_reach trivial hcompleted (leads_pure (.inl ⟨rfl, rfl⟩))

variable (o : CommandLine.Options) (s : Store) (source : Source)

theorem leads_offerLists {h : Holdings} (hs : h.source = some source) (ho : h.status = none) :
    (timetable o s).Leads ⟨.lists, false⟩ (offerLists o s source h) (Readied s source) Waiting := by
  have hwaiting : Waiting ⟨.lists, false⟩ := ⟨rfl, rfl, by decide⟩
  have hready : ∀ handoff h', handoff.store = s → handoff.source = source →
      h'.source = some source → h'.status = none →
        Readied s source ⟨.ok (some handoff), h'⟩ ⟨.engine, false⟩ := by
    rintro handoff h' hstore hsource hs' ho'
    refine ⟨hs', ho', ⟨rfl, rfl, by decide⟩, ?_⟩
    rintro _ ⟨⟩
    exact ⟨rfl, hstore, hsource⟩
  have hlists := gives_mono (producing_createLists (ListPaths.make o.runDir
    (s.tuning.card.getD 0) s.tuning.tuner s.cam.support) s) fun _ ht =>
      stays_of_producing (T := timetable o s) ht
  refine leads_after hlists hwaiting fun lists => ?_
  refine leads_reach trivial rfl (leads_ite (fun _ => ?_) fun _ => ?_)
  · refine leads_after (stays_of_routine (routine_log (by decide) _)) ⟨rfl, rfl, by decide⟩ ?_
    exact fun _ => leads_pure (hready _ _ rfl rfl hs ho)
  · exact leads_pure (hready _ _ rfl rfl hs ho)

theorem leads_equip {p : Position} (hp : p = ⟨if o.daemon then .pidFile else .lists, false⟩) :
    (timetable o s).Leads p (equip o s source (.keepSource {} source)) (Readied s source)
      Waiting := by
  subst hp
  unfold equip
  split
  · rename_i hdaemon
    refine leads_bind (leads_writePidFile (if_pos hdaemon)) ?_
    rintro r q (⟨rfl, rfl⟩ | ⟨⟨e, rfl⟩, rfl⟩)
    · exact leads_offerLists o s source rfl rfl
    · exact leads_pure ⟨rfl, rfl, ⟨rfl, rfl, by decide⟩, fun _ h => by cases h⟩
  · exact leads_offerLists o s source rfl rfl

theorem returns_stopRequested : stopRequested.Returns := by
  refine returns_bind (returns_look _) fun stop => ?_
  cases stop with
  | true => exact returns_bind (returns_log _ _) fun _ => returns_pure _
  | false => exact returns_pure _

theorem leads_proceed :
    (timetable o s).Leads ⟨if o.daemon then .pidFile else .lists, false⟩ (proceed o s source)
      (Readied s source) Waiting := by
  have hwaiting : Waiting ⟨if o.daemon then .pidFile else .lists, false⟩ := by
    cases o.daemon <;> exact ⟨rfl, rfl, by decide⟩
  refine leads_after (stays_of_routine routine_stopRequested) hwaiting fun stop => ?_
  refine leads_ite (fun _ => leads_pure ?_) fun _ => leads_equip o s source rfl
  exact ⟨rfl, rfl, hwaiting, fun _ h => by cases h⟩

end

/-! ### The engine and the end -/

section

variable {T : Timetable} {p : Position}

theorem leads_runEngine {e : Engine} (he : e.Gives Work) (handoff : Handoff) {h : Holdings}
    (ho : h.status = none) :
    T.Leads ⟨.engine, false⟩ (runEngine e handoff h)
      (fun r q => q = ⟨.running, false⟩ ∧ r.2.status = none ∧ r.2.source = h.source)
      (· = ⟨.running, false⟩) := by
  refine leads_reach trivial rfl ?_
  refine leads_after (gives_mono (he handoff) fun _ => stays_of_work) rfl fun r => ?_
  cases r with
  | error _ => exact leads_pure ⟨rfl, ho, rfl⟩
  | ok _ => exact leads_pure ⟨rfl, ho, rfl⟩

theorem unstaged_announce (result : Except StageError Unit) :
    (announce result).Gives Unstaged := by
  cases result with
  | error err => exact unstaged_report _ _ _
  | ok _ => exact gives_pure _

theorem unstaged_takeLeave : takeLeave.Gives Unstaged :=
  gives_bind (gives_look _) fun _ =>
    gives_bind (gives_log (List.forall_mem_singleton.2 rfl)) fun _ => gives_pure _

/-- Whether nothing belongs to a stage but what tells of giving back. -/
def Releasing (t : List Event) : Prop := ∀ e ∈ t, e.isStaged = true → e.isRelease = true

theorem releasing_of_unstaged {t : List Event} (h : Unstaged t) : Releasing t :=
  fun e he hstaged => by rw [h e he] at hstaged; cases hstaged

instance : Additive Releasing where
  foreign t h := releasing_of_unstaged (Additive.foreign t h)
  append _ _ hs ht := List.forall_mem_append.2 ⟨hs, ht⟩

theorem releasing_singleton {e : Event} (h : e.isRelease = true) : Releasing [e] :=
  List.forall_mem_singleton.2 fun _ => h

theorem releasing_removeGenerated (path : String) : (removeGenerated path).Gives Releasing := by
  have hremove : (removeFile path).Gives Releasing := by
    intro w
    obtain ⟨u, w', hu, ⟨id, hw, hcourse⟩ | ⟨e, hw, hcourse⟩⟩ := removeFile_course path w
    all_goals
      rw [lastWorld_of_ok hw]
      exact ⟨_, hcourse, Additive.append u _ (Additive.foreign u hu) (releasing_singleton rfl)⟩
  rw [removeGenerated_eq]
  refine gives_bind hremove fun r => ?_
  cases r with
  | ok _ => exact gives_pure _
  | error e =>
    refine gives_ite (gives_pure _) ?_
    exact gives_mono (unstaged_report _ _ _) fun _ => releasing_of_unstaged

theorem releasing_removeAll (paths : List String) : (removeAll paths).Gives Releasing := by
  induction paths with
  | nil => exact gives_pure _
  | cons path rest ih => exact gives_bind (releasing_removeGenerated path) fun _ => ih

theorem leads_giveBack {stage : Stage} (h : Holdings) :
    T.Leads ⟨stage, false⟩ (giveBack h) (fun _ q => q = ⟨stage, true⟩) (·.ended = true) := by
  refine leads_reach trivial step_closing ?_
  have hstays : ∀ {m : Run Unit}, m.Gives Releasing → m.Gives (T.Stays ⟨stage, true⟩) :=
    fun hm => gives_mono hm fun _ ht => stays_of_ended rfl ht
  have hjoin : (joinWorkers h.workers).Gives Releasing :=
    gives_mono (routine_joinWorkers _) fun _ ht => releasing_of_unstaged (unstaged_of_routine ht)
  refine leads_after (hstays hjoin) rfl fun _ => ?_
  cases h.source with
  | none => exact leads_of_gives (hstays (releasing_removeAll _)) (fun _ => rfl) rfl
  | some source =>
    have hclosed : (reach (.closed source.path)).Gives Releasing :=
      gives_reach trivial (releasing_singleton rfl)
    refine leads_of_gives (hstays (gives_bind hclosed fun _ => ?_)) (fun _ => rfl) rfl
    exact releasing_removeAll _

theorem returns_takeLeave : takeLeave.Returns :=
  returns_bind (returns_look _) fun _ => returns_bind (returns_log _ _) fun _ => returns_pure _

theorem returns_finish (result : Except StageError Unit) {h : Holdings} (ho : h.status = none) :
    (finish result h).Returns := by
  rw [finish_eq result ho]
  refine returns_bind ?_ fun _ => returns_bind (returns_giveBack h) fun _ =>
    returns_bind returns_takeLeave fun _ => returns_pure _
  cases result with
  | error err => exact returns_report _ _ _
  | ok _ => exact returns_pure _

/-- In whatever stage the stages stop, the end begins there, and nothing is left out of it. -/
theorem leads_finish {stage : Stage} (result : Except StageError Unit) {h : Holdings}
    (ho : h.status = none) {B : Position → Prop} :
    T.Leads ⟨stage, false⟩ (finish result h) (fun _ q => q = ⟨stage, true⟩) B := by
  refine leads_of_returns (B := fun _ => True) (returns_finish result ho) ?_
  rw [finish_eq result ho]
  refine leads_after (stays_of_unstaged (unstaged_announce result)) trivial fun _ => ?_
  refine leads_bind (leads_mono (leads_giveBack h) (fun _ _ hq => hq) fun _ _ => trivial) ?_
  rintro _ q rfl
  refine leads_after (stays_of_unstaged unstaged_takeLeave) trivial fun _ => leads_pure rfl

end

end Headend.Service
