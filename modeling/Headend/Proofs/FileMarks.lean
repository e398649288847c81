import Headend.Proofs.Ledger
import Headend.Service.Startup

/-!
# Marks of the generated files

Of all that a run leaves in the trace, the marks tell what becomes of the files that the process
generates, and where the engine and the end begin. Most parts of a run leave no mark: reading the
configuration, acquiring a source with the front-ends of the host, answering a signal other than
that for the lists.

Facts: `marks_bind` and `marks_bind_quiet` (how the marks of a program are put together),
`quiet_load`, `quiet_acquire`, `quiet_hardware` and the like (the parts that leave no mark).
-/

namespace Headend.Host

/-- Whether a milestone is about the generated files, or begins the engine or the end. -/
def Milestone.isMark : Milestone → Bool
  | created .. | completed _ | removed .. | notRemoved .. | engineStarted | closing => true
  | _ => false

/-- The mark that an event leaves. -/
def Event.mark? : Event → Option Milestone
  | reached m => if m.isMark then some m else none
  | _ => none

/-- The marks among events, in order. -/
def marks (t : List Event) : List Milestone := t.filterMap Event.mark?

theorem marks_append (s t : List Event) : marks (s ++ t) = marks s ++ marks t :=
  List.filterMap_append

theorem mem_marks {t : List Event} {x : Milestone} (hx : x.isMark = true) :
    x ∈ marks t ↔ .reached x ∈ t := by
  unfold marks
  rw [List.mem_filterMap]
  constructor
  · rintro ⟨e, he, hm⟩
    cases e with
    | reached m =>
      obtain ⟨-, hm⟩ := Option.ite_none_right_eq_some.1 hm
      rw [← Option.some.inj hm]
      exact he
    | _ => cases hm
  · intro h
    exact ⟨_, h, if_pos hx⟩

theorem marks_of_foreign {u : List Event} (hu : ∀ e ∈ u, e.IsForeign) : marks u = [] := by
  refine List.filterMap_eq_nil_iff.2 fun e he => ?_
  have := hu e he
  cases e with
  | reached m => exact this.elim
  | _ => rfl

theorem marks_foreign_append {u t : List Event} (hu : ∀ e ∈ u, e.IsForeign) :
    marks (u ++ t) = marks t := by
  rw [marks_append, marks_of_foreign hu, List.nil_append]

namespace Run

/-- Whenever a part of a run ends with a value, the marks that it left fit the value. -/
def Marks (m : Run α) (Q : α → List Milestone → Prop) : Prop :=
  m.Leaves fun a t => Q a (marks t)

/-- A part of a run that leaves no mark. -/
def Quiet (m : Run α) : Prop := m.Marks fun _ ms => ms = []

variable {m : Run α} {P : α → List Milestone → Prop} {Q : β → List Milestone → Prop}

theorem marks_mono {P' : α → List Milestone → Prop} (hm : m.Marks P)
    (h : ∀ a ms, P a ms → P' a ms) : m.Marks P' :=
  leaves_mono hm fun a t => h a (marks t)

theorem marks_pure {a : α} (h : P a []) : (pure a : Run α).Marks P := leaves_pure h

theorem marks_bind {f : α → Run β} (hm : m.Marks P)
    (hf : ∀ a ms, P a ms → (f a).Marks fun b ms' => Q b (ms ++ ms')) : (m >>= f).Marks Q := by
  refine leaves_bind hm fun a s hs => leaves_mono (hf a (marks s) hs) fun b t ht => ?_
  rw [marks_append]
  exact ht

theorem marks_bind_quiet {f : α → Run β} (hm : m.Quiet) (hf : ∀ a, (f a).Marks Q) :
    (m >>= f).Marks Q := by
  refine marks_bind hm fun a ms hms => ?_
  rw [hms]
  exact hf a

theorem quiet_pure (a : α) : (pure a : Run α).Quiet := marks_pure rfl

theorem quiet_bind {f : α → Run β} (hm : m.Quiet) (hf : ∀ a, (f a).Quiet) : (m >>= f).Quiet :=
  marks_bind_quiet hm hf

theorem quiet_ite {p : Prop} [Decidable p] {m m' : Run α} (h : m.Quiet) (h' : m'.Quiet) :
    (if p then m else m').Quiet := by
  split
  · exact h
  · exact h'

/-! ### Steps without a mark -/

theorem quiet_look (f : World → α) : (look f).Quiet :=
  leaves_look fun _ _ hu => marks_of_foreign hu

theorem quiet_waitFor (moment : Nat) : (waitFor moment).Quiet := by
  have hidle : ∀ steps, (idle steps).Quiet := fun steps => by
    induction steps with
    | zero => exact quiet_pure ()
    | succ steps ih => exact quiet_bind (quiet_look _) fun _ => ih
  exact fun w => hidle _ w

theorem quiet_isInterrupted : isInterrupted.Quiet := quiet_look _

theorem quiet_log (a : Area) (r : Record) : (log a r).Quiet :=
  leaves_log fun _ hu => marks_foreign_append hu

theorem quiet_logAll (a : Area) (rs : List Record) : (logAll a rs).Quiet := by
  induction rs with
  | nil => exact quiet_pure ()
  | cons r rest ih => exact quiet_bind (quiet_log a r) fun _ => ih

theorem marks_reach {x : Milestone} {P : Unit → List Milestone → Prop}
    (hx : ∀ path id, x ≠ .removed path id) (h : P () (marks [.reached x])) :
    (reach x).Marks P := by
  refine leaves_reach hx fun u hu => ?_
  rw [marks_foreign_append hu]
  exact h

theorem quiet_reach {x : Milestone} (hx : x.isMark = false) : (reach x).Quiet := by
  refine marks_reach (fun path id h => ?_) ?_
  · rw [h] at hx
    cases hx
  · exact List.filterMap_cons_none (if_neg (Bool.eq_false_iff.1 hx))

theorem quiet_sleep (n : Nat) : (sleep n).Quiet :=
  leaves_sleep fun _ _ hu hv =>
    (marks_foreign_append hu).trans ((List.filterMap_cons_none rfl).trans (marks_of_foreign hv))

theorem quiet_interrupt (code : ExitCode) : (interrupt code).Quiet :=
  leaves_interrupt fun _ hu => marks_foreign_append hu

theorem quiet_setTuned (tuned : Bool) : (setTuned tuned).Quiet :=
  leaves_setTuned fun _ hu => marks_of_foreign hu

theorem quiet_arm (seconds : UInt32) : (arm seconds).Quiet :=
  leaves_arm fun _ hu => marks_foreign_append hu

theorem quiet_takeSignal : takeSignal.Quiet := leaves_takeSignal fun _ _ hu => marks_of_foreign hu

theorem quiet_agendaLength : agendaLength.Quiet := leaves_agendaLength fun _ => rfl

theorem quiet_arithmetic (r : Except Tuner.Overflow α) : (arithmetic r).Quiet :=
  leaves_arithmetic fun _ _ => rfl

theorem quiet_readNode (node : Node) : (readNode node).Quiet :=
  leaves_readNode fun _ _ hu => marks_of_foreign hu

theorem quiet_writeText (id : FileId) (text : String) : (writeText id text).Quiet :=
  leaves_writeText fun _ _ hu => marks_of_foreign hu

theorem quiet_attachLog (path : String) : (attachLog path).Quiet :=
  leaves_attachLog (fun _ hu => marks_foreign_append hu) fun _ _ hu => marks_of_foreign hu

theorem quiet_reopenLog : reopenLog.Quiet := leaves_reopenLog fun _ _ hu => marks_of_foreign hu

end Run

end Headend.Host

namespace Headend.Tuner

open Headend.Config (Tuning)
open Headend.Host
open Headend.Host.Run

/-! ### The front-ends of the host -/

theorem quiet_request (d : OpenDevice) (r : Request) {e : Event} (he : e.mark? = none)
    (hn : ∀ path id, e ≠ .reached (.removed path id)) : (request d r e).Quiet := by
  refine leaves_step fun w u hu => ⟨[e], ledger_emit w hn, ?_⟩
  rw [marks_foreign_append hu]
  exact List.filterMap_cons_none he

theorem quiet_readStatus (d : OpenDevice) : (readStatus d).Quiet := by
  refine leaves_step fun w u hu => ?_
  have hread : Ledger w [.readStatus] (w.emit .readStatus) :=
    ledger_emit w fun _ _ h => by cases h
  dsimp only
  split
  · exact ⟨_, hread, marks_foreign_append hu⟩
  · rename_i device _
    have hset : Ledger w [.readStatus]
        ((w.emit .readStatus).setDevice d.file (device.nextStatus w.refusal).2) :=
      ⟨hread.trace, hread.later, hread.gone⟩
    cases device.nextSignal with
    | none => exact ⟨_, hset, marks_foreign_append hu⟩
    | some n => exact ⟨_, hset.append (ledger_deliver _ n), marks_foreign_append hu⟩

theorem quiet_sourceStatus (s : Source) : s.readStatus.Quiet := by
  cases s with
  | device d => exact quiet_readStatus d
  | recording path => exact quiet_pure _

theorem quiet_whenGranted {answer : Except Failure Unit} {next : Run (Except TuneError Unit)}
    (h : next.Quiet) : (whenGranted answer next).Quiet := by
  cases answer with
  | ok _ => exact h
  | error e => exact quiet_pure _

theorem quiet_granted {d : OpenDevice} {r : Request} {e : Event}
    {next : Run (Except TuneError Unit)} (he : e.mark? = none)
    (hn : ∀ path id, e ≠ .reached (.removed path id)) (h : next.Quiet) :
    (request d r e >>= fun answer => whenGranted answer next).Quiet :=
  quiet_bind (quiet_request d r he hn) fun _ => quiet_whenGranted h

theorem quiet_setUpConverter (d : OpenDevice) (t : Tuning) : (setUpConverter d t).Quiet := by
  have htone : ∀ {word} {next : Run (Except TuneError Unit)}, next.Quiet →
      (request d .tone (.tone word) >>= fun answer => whenGranted answer next).Quiet :=
    quiet_granted rfl fun _ _ h => by cases h
  unfold setUpConverter
  split
  · exact quiet_pure _
  · refine htone (quiet_granted rfl (fun _ _ h => by cases h) ?_)
    refine quiet_bind (quiet_sleep _) fun _ => quiet_ite ?_ ?_
    · refine quiet_granted rfl (fun _ _ h => by cases h) ?_
      exact quiet_bind (quiet_sleep _) fun _ => htone (quiet_pure _)
    · exact htone (quiet_pure _)

theorem quiet_awaitLock (d : OpenDevice) (rounds : Nat) : (awaitLock d rounds).Quiet := by
  induction rounds with
  | zero => exact quiet_pure _
  | succ rounds ih =>
    refine quiet_bind quiet_isInterrupted fun stop => quiet_ite (quiet_pure _) ?_
    refine quiet_bind (quiet_readStatus d) fun status => ?_
    cases status with
    | error e => exact quiet_pure _
    | ok status =>
      refine quiet_ite ?_ ?_
      · exact quiet_bind (quiet_log _ _) fun _ => quiet_pure _
      · exact quiet_bind (quiet_sleep _) fun _ => ih

theorem quiet_program (d : OpenDevice) (p : Parameters) : (program d p).Quiet := by
  refine quiet_granted rfl (fun _ _ h => by cases h) ?_
  exact quiet_bind quiet_agendaLength fun n => quiet_awaitLock d (n + 2)

theorem quiet_tune (d : OpenDevice) (t : Tuning) : (tune d t).Quiet := by
  refine quiet_bind (quiet_arithmetic _) fun p => ?_
  cases p with
  | error e => exact quiet_pure _
  | ok p =>
    refine quiet_ite ?_ (quiet_program d p)
    refine quiet_bind (quiet_setUpConverter d t) fun r => ?_
    cases r with
    | error e => exact quiet_pure _
    | ok _ => exact quiet_program d p

theorem quiet_openDevice (directory : String) (tuner : UInt32) :
    (openDevice directory tuner).Quiet := by
  refine quiet_bind (quiet_look _) fun r => ?_
  cases r with
  | error e => exact quiet_pure _
  | ok d => exact quiet_bind (quiet_log _ _) fun _ => quiet_pure _

/-- A front-end that has nothing to do with the generated files. -/
structure Frontend.Quiet (f : Frontend) : Prop where
  openDevice : ∀ directory tuner, (f.openDevice directory tuner).Quiet
  tune : ∀ d t, (f.tune d t).Quiet

theorem quiet_hardware : Frontend.hardware.Quiet := ⟨quiet_openDevice, quiet_tune⟩

/-! ### Acquiring a source -/

theorem quiet_succeed (s : Source) : (succeed s).Quiet :=
  quiet_bind (quiet_setTuned true) fun _ => quiet_pure _

theorem quiet_giveUp (e : TuneError) : (giveUp e).Quiet :=
  quiet_bind (quiet_log _ _) fun _ => quiet_bind (quiet_interrupt _) fun _ => quiet_pure _

theorem quiet_acquireRecording (path : String) : (acquireRecording path).Quiet := by
  refine quiet_bind (quiet_look _) fun r => ?_
  cases r with
  | error e => exact quiet_giveUp _
  | ok _ =>
    refine quiet_bind (quiet_reach rfl) fun _ => ?_
    exact quiet_bind (quiet_log _ _) fun _ => quiet_succeed _

theorem quiet_acquireDevice {f : Frontend} (hf : f.Quiet) (t : Tuning) (d : OpenDevice) :
    (acquireDevice f t d).Quiet := by
  refine quiet_ite (quiet_bind (quiet_arm _) fun _ => ?_) ?_
  all_goals
    refine quiet_bind (hf.tune d t) fun r => ?_
    cases r with
    | error e => exact quiet_bind (quiet_reach rfl) fun _ => quiet_giveUp e
    | ok _ => exact quiet_bind (quiet_log _ _) fun _ => quiet_succeed _

theorem quiet_acquire {f : Frontend} (hf : f.Quiet) (t : Tuning) : (acquire f t).Quiet := by
  unfold acquire
  split
  · exact quiet_acquireRecording _
  · refine quiet_bind (hf.openDevice _ _) fun r => ?_
    cases r with
    | error e => exact quiet_giveUp e
    | ok d =>
      refine quiet_bind (quiet_reach rfl) fun _ => ?_
      refine quiet_bind quiet_isInterrupted fun stop => quiet_ite ?_ (quiet_acquireDevice hf t d)
      refine quiet_bind (quiet_log _ _) fun _ => ?_
      exact quiet_bind (quiet_reach rfl) fun _ => quiet_pure _

end Headend.Tuner

namespace Headend.Service

open Headend.Config
open Headend.Host
open Headend.Host.Run
open Headend.Tuner (Source TuneError)

/-! ### Reading the configuration -/

theorem quiet_carryOut (chain : List Section) (draft : Draft) (bs : Text.Octets) :
    (carryOut chain draft bs).Quiet :=
  quiet_bind (quiet_logAll _ _) fun _ => quiet_pure _

theorem quiet_parseFile (chain : List Section) (draft : Draft) (path : String) :
    (parseFile chain draft path).Quiet := by
  refine quiet_bind (quiet_look _) fun r => ?_
  cases r with
  | error e => exact quiet_pure _
  | ok node =>
    refine quiet_bind (quiet_log _ _) fun _ => quiet_bind (quiet_readNode node) fun shown => ?_
    cases shown with
    | error e => exact quiet_pure _
    | ok shown =>
      refine quiet_bind (quiet_logAll _ _) fun _ => quiet_bind (quiet_readNode node) fun r => ?_
      cases r with
      | error e => exact quiet_pure _
      | ok bs => exact quiet_carryOut chain draft bs

theorem quiet_readConfiguration (o : CommandLine.Options) : (readConfiguration o).Quiet := by
  unfold readConfiguration
  split
  · exact quiet_pure _
  · exact quiet_bind (quiet_parseFile _ _ _) fun _ => quiet_pure _

theorem quiet_load (o : CommandLine.Options) : (load o).Quiet := by
  refine quiet_bind (quiet_readConfiguration o) fun r => ?_
  cases r with
  | error e => exact quiet_pure _
  | ok draft =>
    refine quiet_bind (quiet_log _ _) fun _ => ?_
    exact quiet_bind (quiet_logAll _ _) fun _ => quiet_pure _

/-! ### Between the stages -/

theorem quiet_openLog (s : Store) : (openLog s).Quiet := by
  unfold openLog
  split
  · refine quiet_bind (quiet_attachLog _) fun r => ?_
    cases r with
    | error e => exact quiet_log _ _
    | ok _ => exact quiet_pure _
  · exact quiet_pure _

theorem quiet_stopRequested : stopRequested.Quiet := by
  refine quiet_bind quiet_isInterrupted fun stop => quiet_ite ?_ (quiet_pure _)
  exact quiet_bind (quiet_log _ _) fun _ => quiet_pure _

theorem quiet_joinWorkers (ws : List Worker) : (joinWorkers ws).Quiet := by
  induction ws with
  | nil => exact quiet_pure _
  | cons worker rest ih =>
    refine quiet_bind (quiet_bind (quiet_waitFor _) fun _ => ?_) fun _ => ih
    exact quiet_bind (quiet_reach rfl) fun _ => quiet_ite (quiet_log _ _) (quiet_pure _)

/-! ### Answering signals -/

theorem quiet_reportStatus (s : Source) : (reportStatus s).Quiet := by
  refine quiet_bind (Tuner.quiet_sourceStatus s) fun r => ?_
  cases r with
  | error e => exact quiet_log _ _
  | ok status => exact quiet_log _ _

theorem quiet_startWorkers (showSignal : Bool) : (startWorkers showSignal).Quiet := by
  refine quiet_ite (quiet_pure _) (quiet_bind (quiet_look _) fun threadEnd => ?_)
  cases threadEnd with
  | none => exact quiet_pure _
  | some endsAt => exact quiet_pure _

end Headend.Service
