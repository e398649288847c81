import Headend.Proofs.Course
import Headend.Service.Startup

/-!
# What the parts of a run do

Most parts of a run find no failure and leave the registers to the signals. Some of them only drive
a device, wait, and leave records (`Routine`): reading the configuration, a front-end of the host,
looking whether the end was asked for. Others also create generated files (`Producing`): writing the
lists, and the engine that keeps the source. Acquiring a source is up to the front-end, but for the
report of a failure.

Facts: `routine_load`, `routine_hardware` and the like (the routine parts), `gives_acquire` (a
source), `producing_createLists`, `producing_hold` and the like (the parts that create files).
-/

namespace Headend.Host

/-! ### Kinds of events -/

/-- The failure that shows in an event: no source could be acquired, or a file not be removed. -/
def Event.shown? : Event → Option ExitCode
  | log .acquisition r => if r.level = .error then some .tuning else none
  | reached (.notRemoved _ e) => if e = .missing then none else some .removeFile
  | _ => none

/-- Whether a generated file exists from an event on, or the end has begun with it. -/
def Event.opens : Event → Bool
  | reached (.created ..) | reached .closing => true
  | _ => false

/-- Whether an event shows no failure and no register knows of it. -/
structure Event.IsSteady (e : Event) : Prop where
  isInert : e.IsInert
  shown : e.shown? = none

/-- Whether moreover neither a generated file exists from an event on, nor the end has begun. -/
structure Event.IsPlain (e : Event) : Prop extends e.IsSteady where
  opens : e.opens = false

/-- Whether all events that others do not bring about are steady. -/
def Steady (t : List Event) : Prop := ∀ e ∈ t, e.IsForeign ∨ e.IsSteady

/-- Whether all events that others do not bring about are plain. -/
def Plain (t : List Event) : Prop := ∀ e ∈ t, e.IsForeign ∨ e.IsPlain

instance : Additive Steady where
  foreign _ h e he := .inl (h e he)
  append _ _ hs ht := List.forall_mem_append.2 ⟨hs, ht⟩

instance : Additive Plain where
  foreign _ h e he := .inl (h e he)
  append _ _ hs ht := List.forall_mem_append.2 ⟨hs, ht⟩

theorem steady_singleton {e : Event} (h : e.IsSteady) : Steady [e] :=
  List.forall_mem_singleton.2 (.inr h)

theorem plain_singleton {e : Event} (h : e.IsPlain) : Plain [e] :=
  List.forall_mem_singleton.2 (.inr h)

theorem steady_of_plain {t : List Event} (h : Plain t) : Steady t :=
  fun e he => (h e he).imp_right (·.toIsSteady)

/-- Whether an event is a request to a device, a wait, the end of one for a thread, or a record that
does not concern acquiring a source. -/
def Event.IsRoutine : Event → Prop
  | log a _ => a ≠ .acquisition
  | tone _ | voltage _ | diseqc _ | setFrontend _ | readStatus | sleep _
  | reached (.joined _) => True
  | _ => False

/-- Whether all events that others do not bring about are routine. -/
def Routine (t : List Event) : Prop := ∀ e ∈ t, e.IsForeign ∨ e.IsRoutine

/-- Whether an event tells that a file at one of some paths has been created or written. -/
def Event.IsProducing (paths : List String) (e : Event) : Prop :=
  ∃ path ∈ paths, (∃ id, e = .reached (.created path id)) ∨ e = .reached (.completed path)

/-- Whether all events that others do not bring about are routine, or produce files at some
paths. -/
def Producing (paths : List String) (t : List Event) : Prop :=
  ∀ e ∈ t, e.IsForeign ∨ e.IsRoutine ∨ e.IsProducing paths

instance : Additive Routine where
  foreign _ h e he := .inl (h e he)
  append _ _ hs ht := List.forall_mem_append.2 ⟨hs, ht⟩

instance (paths : List String) : Additive (Producing paths) where
  foreign _ h e he := .inl (h e he)
  append _ _ hs ht := List.forall_mem_append.2 ⟨hs, ht⟩

theorem Event.IsRoutine.isPlain {e : Event} (h : e.IsRoutine) : e.IsPlain := by
  cases e with
  | log a r => exact ⟨⟨trivial, by cases a <;> first | exact absurd rfl h | rfl⟩, rfl⟩
  | reached m => cases m <;> first | exact ⟨⟨trivial, rfl⟩, rfl⟩ | exact h.elim
  | alarm | signal | listed => exact h.elim
  | _ => exact ⟨⟨trivial, rfl⟩, rfl⟩

theorem routine_singleton {e : Event} (h : e.IsRoutine) : Routine [e] :=
  List.forall_mem_singleton.2 (.inr h)

theorem plain_of_routine {t : List Event} (h : Routine t) : Plain t :=
  fun e he => (h e he).imp_right (·.isPlain)

theorem producing_singleton {paths : List String} {e : Event} (h : e.IsProducing paths) :
    Producing paths [e] :=
  List.forall_mem_singleton.2 (.inr (.inr h))

theorem producing_of_routine {paths : List String} {t : List Event} (h : Routine t) :
    Producing paths t :=
  fun e he => (h e he).imp_right .inl

theorem steady_of_producing {paths : List String} {t : List Event} (h : Producing paths t) :
    Steady t := by
  intro e he
  rcases h e he with hforeign | hroutine | ⟨path, -, ⟨id, rfl⟩ | rfl⟩
  · exact .inl hforeign
  · exact .inr hroutine.isPlain.toIsSteady
  · exact .inr ⟨trivial, rfl⟩
  · exact .inr ⟨trivial, rfl⟩

namespace Run

variable {m : Run α}

theorem gives_steady_of_routine (h : m.Gives Routine) : m.Gives Steady :=
  gives_mono h fun _ ht => steady_of_plain (plain_of_routine ht)

theorem routine_log {a : Area} (ha : a ≠ .acquisition) (r : Record) : (log a r).Gives Routine :=
  gives_log (routine_singleton ha)

theorem routine_logAll {a : Area} (ha : a ≠ .acquisition) (rs : List Record) :
    (logAll a rs).Gives Routine :=
  gives_logAll (fun _ => routine_singleton ha) rs

theorem routine_sleep (n : Nat) : (sleep n).Gives Routine := gives_sleep (routine_singleton trivial)

end Run

end Headend.Host

namespace Headend.Tuner

open Headend.Config (Tuning)
open Headend.Host
open Headend.Host.Run

/-! ### The front-ends of the host -/

theorem routine_request (d : OpenDevice) (r : Request) {e : Event} (he : e.IsRoutine) :
    (request d r e).Gives Routine :=
  gives_step fun w => ⟨[e], Move.course (.event w he.isPlain.isInert), routine_singleton he⟩

theorem routine_readStatus (d : OpenDevice) : (readStatus d).Gives Routine := by
  refine gives_step fun w => ?_
  have hread : Course w [.readStatus] (w.emit .readStatus) := Move.course (.event w trivial)
  have hroutine : Routine [.readStatus] := routine_singleton trivial
  dsimp only
  split
  · exact ⟨_, hread, hroutine⟩
  · rename_i device _
    have hset : Course w [.readStatus]
        ((w.emit .readStatus).setDevice d.file (device.nextStatus w.refusal).2) :=
      hread.append (Move.course (.still rfl rfl))
    cases device.nextSignal with
    | none => exact ⟨_, hset, hroutine⟩
    | some n =>
      refine ⟨_, hset.append (Move.course (.signal _ n)), ?_⟩
      exact Additive.append [.readStatus] _ hroutine
        (Additive.foreign _ (List.forall_mem_singleton.2 trivial))

theorem routine_sourceStatus (s : Source) : s.readStatus.Gives Routine := by
  cases s with
  | device d => exact routine_readStatus d
  | recording path => exact gives_pure _

theorem gives_whenGranted {answer : Except Failure Unit} {next : Run (Except TuneError Unit)}
    {P : List Event → Prop} [Additive P] (h : next.Gives P) :
    (whenGranted answer next).Gives P := by
  cases answer with
  | ok _ => exact h
  | error e => exact gives_pure _

theorem routine_granted {d : OpenDevice} {r : Request} {e : Event}
    {next : Run (Except TuneError Unit)} (he : e.IsRoutine) (h : next.Gives Routine) :
    (request d r e >>= fun answer => whenGranted answer next).Gives Routine :=
  gives_bind (routine_request d r he) fun _ => gives_whenGranted h

theorem routine_setUpConverter (d : OpenDevice) (t : Tuning) :
    (setUpConverter d t).Gives Routine := by
  have htone : ∀ {word} {next : Run (Except TuneError Unit)}, next.Gives Routine →
      (request d .tone (.tone word) >>= fun answer => whenGranted answer next).Gives Routine :=
    routine_granted trivial
  unfold setUpConverter
  split
  · exact gives_pure _
  · refine htone (routine_granted trivial ?_)
    refine gives_bind (routine_sleep _) fun _ => gives_ite ?_ (htone (gives_pure _))
    refine routine_granted trivial ?_
    exact gives_bind (routine_sleep _) fun _ => htone (gives_pure _)

theorem routine_awaitLock (d : OpenDevice) (rounds : Nat) : (awaitLock d rounds).Gives Routine := by
  induction rounds with
  | zero => exact gives_pure _
  | succ rounds ih =>
    refine gives_bind gives_isInterrupted fun stop => gives_ite (gives_pure _) ?_
    refine gives_bind (routine_readStatus d) fun status => ?_
    cases status with
    | error e => exact gives_pure _
    | ok status =>
      refine gives_ite ?_ ?_
      · exact gives_bind (routine_log (by decide) _) fun _ => gives_pure _
      · exact gives_bind (routine_sleep _) fun _ => ih

theorem routine_program (d : OpenDevice) (p : Parameters) : (program d p).Gives Routine := by
  refine routine_granted trivial ?_
  exact gives_bind gives_agendaLength fun n => routine_awaitLock d (n + 2)

theorem routine_tune (d : OpenDevice) (t : Tuning) : (tune d t).Gives Routine := by
  refine gives_bind (gives_arithmetic _) fun p => ?_
  cases p with
  | error e => exact gives_pure _
  | ok p =>
    refine gives_ite ?_ (routine_program d p)
    refine gives_bind (routine_setUpConverter d t) fun r => ?_
    cases r with
    | error e => exact gives_pure _
    | ok _ => exact routine_program d p

theorem routine_openDevice (directory : String) (tuner : UInt32) :
    (openDevice directory tuner).Gives Routine := by
  refine gives_bind (gives_look _) fun r => ?_
  cases r with
  | error e => exact gives_pure _
  | ok d => exact gives_bind (routine_log (by decide) _) fun _ => gives_pure _

/-- On the courses of opening and tuning are events with a property. Whether a front-end can be
opened and tuned is up to it. -/
structure Frontend.Gives (f : Frontend) (P : List Event → Prop) : Prop where
  openDevice : ∀ directory tuner, (f.openDevice directory tuner).Gives P
  tune : ∀ d t, (f.tune d t).Gives P

theorem Frontend.Gives.mono {f : Frontend} {P Q : List Event → Prop} (hf : f.Gives P)
    (h : ∀ t, P t → Q t) : f.Gives Q :=
  ⟨fun directory tuner => gives_mono (hf.openDevice directory tuner) h,
    fun d t => gives_mono (hf.tune d t) h⟩

theorem routine_hardware : Frontend.hardware.Gives Routine := ⟨routine_openDevice, routine_tune⟩

theorem plain_hardware : Frontend.hardware.Gives Plain :=
  routine_hardware.mono fun _ => plain_of_routine

/-! ### Acquiring a source -/

/-- The steps of a failure: it is reported, and there is no source. -/
theorem giveUp_eq (e : TuneError) :
    giveUp e = (report .acquisition (.error e.message) .tuning >>= fun _ =>
      pure ⟨.failed, .error e⟩) :=
  rfl

section

variable {P : List Event → Prop} [Additive P]

theorem gives_succeed (s : Source) : (succeed s).Gives P :=
  gives_bind gives_setTuned fun _ => gives_pure _

theorem gives_giveUp {e : TuneError} (hreport : ∀ v : List Event, (∀ x ∈ v, x.IsForeign) →
    P (.log .acquisition (.error e.message) :: (v ++ [.reached (.failed .tuning)]))) :
    (giveUp e).Gives P := by
  rw [giveUp_eq]
  exact gives_bind (gives_report hreport) fun _ => gives_pure _

variable (hplain : ∀ t, Plain t → P t)
  (hreport : ∀ (e : TuneError) (v : List Event), (∀ x ∈ v, x.IsForeign) →
    P (.log .acquisition (.error e.message) :: (v ++ [.reached (.failed .tuning)])))
include hplain

theorem gives_acquisitionInfo (text : String) : (log .acquisition (.info text)).Gives P :=
  gives_log (hplain _ (plain_singleton ⟨⟨trivial, rfl⟩, rfl⟩))

theorem gives_plainReach {x : Milestone} (hx : (Event.reached x).IsPlain) : (reach x).Gives P :=
  gives_reach hx.isInert (hplain _ (plain_singleton hx))

include hreport

theorem gives_acquireRecording (path : String) : (acquireRecording path).Gives P := by
  refine gives_bind (gives_look _) fun r => ?_
  cases r with
  | error e => exact gives_giveUp (hreport _)
  | ok _ =>
    refine gives_bind (gives_plainReach hplain ⟨⟨trivial, rfl⟩, rfl⟩) fun _ => ?_
    exact gives_bind (gives_acquisitionInfo hplain _) fun _ => gives_succeed _

theorem gives_acquireDevice {f : Frontend} (hf : f.Gives P) (t : Tuning) (d : OpenDevice) :
    (acquireDevice f t d).Gives P := by
  have harm : (arm t.tuningTimeout).Gives P :=
    gives_arm (hplain _ (plain_singleton ⟨⟨trivial, rfl⟩, rfl⟩))
  refine gives_ite (gives_bind harm fun _ => ?_) ?_
  all_goals
    refine gives_bind (hf.tune d t) fun r => ?_
    cases r with
    | error e =>
      refine gives_bind (gives_plainReach hplain ⟨⟨trivial, rfl⟩, rfl⟩) fun _ => ?_
      exact gives_giveUp (hreport e)
    | ok _ => exact gives_bind (gives_acquisitionInfo hplain _) fun _ => gives_succeed _

/-- What acquiring a source gives is up to the front-end, but for the report of a failure. -/
theorem gives_acquire {f : Frontend} (hf : f.Gives P) (t : Tuning) : (acquire f t).Gives P := by
  unfold acquire
  split
  · exact gives_acquireRecording hplain hreport _
  · refine gives_bind (hf.openDevice _ _) fun r => ?_
    cases r with
    | error e => exact gives_giveUp (hreport e)
    | ok d =>
      refine gives_bind (gives_plainReach hplain ⟨⟨trivial, rfl⟩, rfl⟩) fun _ => ?_
      refine gives_bind gives_isInterrupted fun stop => ?_
      refine gives_ite ?_ (gives_acquireDevice hplain hreport hf t d)
      refine gives_bind (gives_acquisitionInfo hplain _) fun _ => ?_
      exact gives_bind (gives_plainReach hplain ⟨⟨trivial, rfl⟩, rfl⟩) fun _ => gives_pure _

end

end Headend.Tuner

namespace Headend.Service

open Headend.Config
open Headend.Host
open Headend.Host.Run
open Headend.Tuner (Frontend Source TuneError)

/-! ### Reading the configuration -/

theorem routine_carryOut (chain : List Section) (draft : Draft) (bs : Text.Octets) :
    (carryOut chain draft bs).Gives Routine :=
  gives_bind (routine_logAll (by decide) _) fun _ => gives_pure _

theorem routine_parseFile (chain : List Section) (draft : Draft) (path : String) :
    (parseFile chain draft path).Gives Routine := by
  refine gives_bind (gives_look _) fun r => ?_
  cases r with
  | error e => exact gives_pure _
  | ok node =>
    refine gives_bind (routine_log (by decide) _) fun _ => gives_bind (gives_readNode node) ?_
    rintro (e | shown)
    · exact gives_pure _
    · refine gives_bind (routine_logAll (by decide) _) fun _ => gives_bind (gives_readNode node) ?_
      rintro (e | bs)
      · exact gives_pure _
      · exact routine_carryOut chain draft bs

theorem routine_readConfiguration (o : CommandLine.Options) :
    (readConfiguration o).Gives Routine := by
  unfold readConfiguration
  split
  · exact gives_pure _
  · exact gives_bind (routine_parseFile _ _ _) fun _ => gives_pure _

theorem routine_load (o : CommandLine.Options) : (load o).Gives Routine := by
  refine gives_bind (routine_readConfiguration o) fun r => ?_
  cases r with
  | error e => exact gives_pure _
  | ok draft =>
    refine gives_bind (routine_log (by decide) _) fun _ => ?_
    exact gives_bind (routine_logAll (by decide) _) fun _ => gives_pure _

/-! ### Between the stages -/

theorem plain_openLog (s : Store) : (openLog s).Gives Plain := by
  unfold openLog
  split
  · refine gives_bind (gives_attachLog (plain_singleton ⟨⟨trivial, rfl⟩, rfl⟩)) fun r => ?_
    cases r with
    | error e => exact gives_mono (routine_log (by decide) _) fun _ => plain_of_routine
    | ok _ => exact gives_pure _
  · exact gives_pure _

theorem routine_stopRequested : stopRequested.Gives Routine := by
  refine gives_bind gives_isInterrupted fun stop => gives_ite ?_ (gives_pure _)
  exact gives_bind (routine_log (by decide) _) fun _ => gives_pure _

theorem routine_joinWorkers (ws : List Worker) : (joinWorkers ws).Gives Routine := by
  induction ws with
  | nil => exact gives_pure _
  | cons worker rest ih =>
    refine gives_bind (gives_bind (gives_waitFor _) fun _ => ?_) fun _ => ih
    refine gives_bind (gives_reach trivial (routine_singleton trivial)) fun _ => ?_
    exact gives_ite (routine_log (by decide) _) (gives_pure _)

/-! ### Writing files -/

theorem gives_writeLines {P : List Event → Prop} [Additive P] (id : FileId) (lines : List String) :
    (writeLines id lines).Gives P := by
  induction lines with
  | nil => exact gives_pure _
  | cons line rest ih =>
    refine gives_bind (gives_writeText id line) fun r => ?_
    cases r with
    | error e => exact gives_pure _
    | ok _ => exact ih

theorem steady_reach {x : Milestone} (hx : (Event.reached x).IsSteady) : (reach x).Gives Steady :=
  gives_reach hx.isInert (steady_singleton hx)

theorem steady_log {a : Area} (ha : a ≠ .acquisition) (r : Record) : (log a r).Gives Steady :=
  gives_steady_of_routine (routine_log ha r)

section

variable {m : Run α} {paths : List String}

theorem producing_of_routine_run (h : m.Gives Routine) : m.Gives (Producing paths) :=
  gives_mono h fun _ => producing_of_routine

theorem producing_log {a : Area} (ha : a ≠ .acquisition) (r : Record) :
    (log a r).Gives (Producing paths) :=
  producing_of_routine_run (routine_log ha r)

theorem producing_writeList {path : String} (hpath : path ∈ paths) (lines : List String) :
    (writeList path lines).Gives (Producing paths) := by
  refine gives_bind (gives_createFile fun id => ?_) fun r => ?_
  · exact producing_singleton ⟨path, hpath, .inl ⟨id, rfl⟩⟩
  cases r with
  | error e => exact gives_pure _
  | ok id =>
    refine gives_bind (gives_writeLines id lines) fun r => ?_
    cases r with
    | error e => exact gives_pure _
    | ok _ =>
      refine gives_bind (gives_reach trivial ?_) fun _ => gives_pure _
      exact producing_singleton ⟨path, hpath, .inr rfl⟩

theorem producing_settle (path : String) (created : List String) (r : Except Failure Unit) :
    (settle path created r).Gives (Producing paths) := by
  cases r with
  | ok _ => exact gives_pure _
  | error e => exact gives_bind (producing_log (by decide) _) fun _ => gives_pure _

end

theorem producing_createLists (paths : ListPaths) (s : Store) :
    (createLists paths s).Gives (Producing paths.all) := by
  have hstreamed : paths.streamed ∈ paths.all := List.mem_cons_self
  have hnotStreamed : paths.notStreamed ∈ paths.all := List.mem_cons_of_mem _ List.mem_cons_self
  refine gives_bind (producing_writeList hstreamed _) fun streamed => ?_
  refine gives_bind (producing_writeList hnotStreamed _) fun notStreamed => ?_
  refine gives_bind (producing_settle _ _ _) fun _ => ?_
  refine gives_bind (producing_settle _ _ _) fun _ => ?_
  dsimp only
  split
  · exact gives_pure _
  · rename_i path hcam
    have hpath : path ∈ paths.all :=
      List.mem_append_right _ (by rw [hcam]; exact List.mem_cons_self)
    refine gives_bind (producing_writeList hpath _) fun _ => ?_
    exact gives_bind (producing_settle _ _ _) fun _ => gives_pure _

theorem producing_writePidFile (path : String) : (writePidFile path).Gives (Producing [path]) :=
  gives_bind (gives_look _) fun _ => producing_writeList List.mem_cons_self _

/-! ### The engine that keeps the source -/

theorem routine_reportStatus (s : Source) : (reportStatus s).Gives Routine := by
  refine gives_bind (Tuner.routine_sourceStatus s) fun r => ?_
  cases r with
  | error e => exact routine_log (by decide) _
  | ok status => exact routine_log (by decide) _

theorem producing_answer (h : Handoff) (n : Int) : (answer h n).Gives (Producing h.paths.all) := by
  refine gives_ite (producing_of_routine_run (routine_reportStatus h.source)) (gives_ite ?_ ?_)
  · refine gives_bind (producing_of_routine_run (routine_logAll (by decide) _)) fun _ => ?_
    refine gives_ite ?_ (gives_pure _)
    exact gives_bind (producing_createLists _ _) fun _ => gives_pure _
  · refine gives_ite (gives_bind (producing_log (by decide) _) fun _ => ?_) (gives_pure _)
    refine gives_bind gives_reopenLog fun r => ?_
    cases r with
    | error e => exact producing_log (by decide) _
    | ok _ => exact gives_pure _

theorem producing_poll (h : Handoff) (rounds : Nat) :
    (poll h rounds).Gives (Producing h.paths.all) := by
  have hsleep : (sleep pollInterval).Gives (Producing h.paths.all) :=
    producing_of_routine_run (routine_sleep _)
  induction rounds with
  | zero => exact gives_pure _
  | succ rounds ih =>
    refine gives_bind gives_isInterrupted fun stop => gives_ite (gives_pure _) ?_
    refine gives_bind gives_takeSignal fun n => ?_
    cases n with
    | none => exact gives_bind hsleep fun _ => ih
    | some n => exact gives_bind (producing_answer h n) fun _ => gives_bind hsleep fun _ => ih

theorem gives_startWorkers {P : List Event → Prop} [Additive P] (showSignal : Bool) :
    (startWorkers showSignal).Gives P := by
  refine gives_ite (gives_pure _) (gives_bind (gives_look _) fun threadEnd => ?_)
  cases threadEnd with
  | none => exact gives_pure _
  | some endsAt => exact gives_pure _

/-- The engine that keeps the source produces files at no other paths than those that it gets. -/
theorem producing_hold (exitAfterTune showSignal : Bool) (h : Handoff) :
    (hold exitAfterTune showSignal h).Gives (Producing h.paths.all) := by
  refine gives_ite (gives_bind (producing_log (by decide) _) fun _ => gives_pure _) ?_
  refine gives_bind (gives_startWorkers showSignal) fun r => ?_
  cases r with
  | error e => exact gives_pure _
  | ok workers =>
    have hpoll := gives_bind gives_agendaLength fun n => gives_bind (producing_poll h (n + 2))
      fun _ => gives_pure (P := Producing h.paths.all)
        (.ok workers : Except EngineError (List Worker))
    refine gives_bind (producing_log (by decide) _) fun _ => gives_ite ?_ hpoll
    exact gives_bind (producing_log (by decide) _) fun _ => hpoll

/-- On the course of an engine are events with a property, whatever it gets. -/
def Engine.Gives (e : Engine) (P : List Event → Prop) : Prop := ∀ handoff, (e.run handoff).Gives P

theorem steady_holding (exitAfterTune showSignal : Bool) :
    (Engine.holding exitAfterTune showSignal).Gives Steady :=
  fun handoff => gives_mono (producing_hold exitAfterTune showSignal handoff) fun _ =>
    steady_of_producing

end Headend.Service
