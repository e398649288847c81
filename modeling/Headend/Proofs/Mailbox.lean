import Headend.Proofs.Course
import Headend.Service.Engine

/-!
# The advisory signal that is kept

The signal state has one place for advisory signals. Until the signal is taken, what is kept there
is the last one that the events brought, or else the one from before (`Keeps`). That holds of all
that others do, and of every part of a run that takes no signal: the answers of the engine take
none, they always return, and they leave the agenda alone.

Facts: `latest_append` (the last signal of events one after the other), `keeps_advance` (what others
do), `Run.attends_bind` and `Run.attends_step` (how parts of a run are put together),
`attends_answer` (the answers of the engine).
-/

namespace Headend.Host

/-! ### The last advisory signal -/

/-- The advisory signal that an event brings. -/
def Event.advisory? : Event → Option Int
  | signal n _ => if n ∈ Signal.advisories then some n else none
  | _ => none

/-- The last advisory signal that events bring, or the one that was kept before them. -/
def latest (kept : Option Int) (t : List Event) : Option Int :=
  (t.filterMap Event.advisory?).getLast?.or kept

theorem latest_append (kept : Option Int) (s t : List Event) :
    latest kept (s ++ t) = latest (latest kept s) t := by
  simp only [latest, List.filterMap_append, List.getLast?_append, Option.or_assoc]

theorem latest_singleton (kept : Option Int) (e : Event) :
    latest kept [e] = e.advisory?.or kept := by
  unfold latest
  cases h : e.advisory? <;> simp [h]

/-- The advisory signal that is kept. -/
def World.kept (w : World) : Option Int := w.signals.take.1

/-! ### Parts of a run that take no signal -/

/-- Between two worlds the events happened, and no advisory signal was taken. Entries of the agenda
may have been used up, and a cause of the end stays. -/
structure Keeps (w : World) (t : List Event) (w' : World) : Prop where
  trace : w'.trace = w.trace ++ t
  kept : w'.kept = latest w.kept t
  agenda : w'.agenda.length ≤ w.agenda.length
  interrupted : w.signals.isInterrupted = true → w'.signals.isInterrupted = true

theorem Keeps.append {w w' w'' : World} {s t : List Event} (h : Keeps w s w')
    (h' : Keeps w' t w'') : Keeps w (s ++ t) w'' where
  trace := by rw [h'.trace, h.trace, List.append_assoc]
  kept := by rw [h'.kept, h.kept, latest_append]
  agenda := h'.agenda.trans h.agenda
  interrupted := fun hi => h'.interrupted (h.interrupted hi)

theorem keeps_still {w w' : World} (trace : w'.trace = w.trace) (signals : w'.signals = w.signals)
    (agenda : w'.agenda = w.agenda) : Keeps w [] w' where
  trace := by rw [trace, List.append_nil]
  kept := by rw [World.kept, signals]; rfl
  agenda := Nat.le_of_eq (congrArg List.length agenda)
  interrupted := fun hi => by rw [signals]; exact hi

theorem keeps_refl (w : World) : Keeps w [] w := keeps_still rfl rfl rfl

theorem keeps_emit (w : World) {e : Event} (he : e.advisory? = none) : Keeps w [e] (w.emit e) where
  trace := rfl
  kept := by rw [latest_singleton, he]; rfl
  agenda := Nat.le_refl _
  interrupted := id

theorem kept_deliver (w : World) (n : Int) (d : Signal.Disposition) :
    (w.deliver n).kept = latest w.kept [.signal n d] := by
  rw [latest_singleton, Event.advisory?, World.kept, World.deliver]
  rcases Signal.advisory_or_terminating n with hkept | hterminating | hignored
  · rw [if_pos hkept, w.signals.handle_of_advisory hkept]
    have hne : n ≠ 0 := by
      rintro rfl
      exact absurd hkept (by decide)
    exact if_neg hne
  · rw [if_neg hterminating.1, w.signals.handle_of_terminating hterminating]
    simp only [World.emit, Signal.State.take, Signal.State.received_interrupt]
    rfl
  · have hnot : n ∉ Signal.advisories := by rcases hignored with rfl | rfl <;> decide
    have hsame : (w.signals.handle n).2 = w.signals := by rcases hignored with rfl | rfl <;> rfl
    rw [if_neg hnot]
    simp only [World.emit, hsame]
    rfl

theorem keeps_deliver (w : World) (n : Int) :
    Keeps w [.signal n (w.signals.handle n).1] (w.deliver n) where
  trace := rfl
  kept := kept_deliver w n _
  agenda := Nat.le_refl _
  interrupted := fun hi => by
    have hset : w.signals.cause ≠ 0 := by simpa [Signal.State.isInterrupted] using hi
    have hstays := Signal.State.cause_handle_of_ne_zero hset n
    simpa [World.deliver, World.emit, Signal.State.isInterrupted, hstays] using hset

theorem keeps_meddle (w : World) (i : Interference) :
    ∃ t, Keeps w t (w.meddle i) ∧ ∀ e ∈ t, e.IsForeign := by
  have hstill : ∀ files, ∃ t, Keeps w t { w with files } ∧ ∀ e ∈ t, e.IsForeign := fun files =>
    ⟨[], keeps_still rfl rfl rfl, List.forall_mem_nil _⟩
  cases i with
  | signal n => exact ⟨_, keeps_deliver w n, List.forall_mem_singleton.2 trivial⟩
  | remove path =>
    unfold World.meddle
    dsimp only
    split
    · exact hstill _
    · exact hstill w.files
  | list => exact ⟨_, keeps_emit w rfl, List.forall_mem_singleton.2 trivial⟩
  | rename | removeTree | makeDirectory | write => exact hstill _

theorem keeps_meddleAll (is : List Interference) (w : World) :
    ∃ t, Keeps w t (w.meddleAll is) ∧ ∀ e ∈ t, e.IsForeign := by
  induction is generalizing w with
  | nil => exact ⟨[], keeps_refl w, List.forall_mem_nil _⟩
  | cons i rest ih =>
    obtain ⟨s, hs, hforeign⟩ := keeps_meddle w i
    obtain ⟨t, ht, hforeign'⟩ := ih (w.meddle i)
    exact ⟨s ++ t, hs.append ht, List.forall_mem_append.2 ⟨hforeign, hforeign'⟩⟩

theorem keeps_advance (w : World) : ∃ t, Keeps w t w.advance ∧ ∀ e ∈ t, e.IsForeign := by
  obtain ⟨t, ht, hforeign⟩ := keeps_meddleAll (w.schedule w.clock) w
  have hclock : Keeps (w.meddleAll (w.schedule w.clock)) [] w.advance := keeps_still rfl rfl rfl
  refine ⟨t ++ [], ht.append hclock, ?_⟩
  rwa [List.append_nil]

theorem keeps_slept (w : World) (n : Nat) :
    ∃ t, Keeps w (.sleep n :: t) (w.slept n) ∧ ∀ e ∈ t, e.IsForeign := by
  have hsleep : Keeps w [.sleep n] (w.emit (.sleep n)) := keeps_emit w rfl
  unfold World.slept
  dsimp only
  split
  · rename_i entry rest h
    have htaken : Keeps (w.emit (.sleep n)) [] { w.emit (.sleep n) with agenda := rest } := by
      refine ⟨by simp, rfl, ?_, id⟩
      have hagenda : w.agenda = entry :: rest := h
      simp [World.emit, hagenda]
    obtain ⟨t, ht, hforeign⟩ := keeps_meddleAll entry { w.emit (.sleep n) with agenda := rest }
    exact ⟨t, hsleep.append (htaken.append ht), hforeign⟩
  · split
    · exact ⟨_, hsleep.append (keeps_deliver _ Signal.terminate),
        List.forall_mem_singleton.2 trivial⟩
    · exact ⟨[], hsleep, List.forall_mem_nil _⟩

theorem isInterrupted_deliver_terminate (w : World) :
    (w.deliver Signal.terminate).signals.isInterrupted = true := by
  have hterminating : Signal.IsTerminating Signal.terminate := by decide
  rw [World.deliver, w.signals.handle_of_terminating hterminating]
  by_cases hc : w.signals.cause = 0
  · simp only [World.emit, Signal.State.interrupt, if_pos hc]
    rfl
  · simpa [World.emit, Signal.State.interrupt, if_neg hc, Signal.State.isInterrupted] using hc

/-- A long sleep uses up an entry of the agenda, and without one it brings the end. -/
theorem agenda_or_interrupted_slept (w : World) {n : Nat} (hn : World.longSleep ≤ n) :
    (w.slept n).agenda.length + 1 = w.agenda.length ∨ (w.slept n).signals.isInterrupted = true := by
  cases h : w.agenda with
  | cons entry rest =>
    left
    rw [World.agenda_slept, h]
    rfl
  | nil =>
    right
    have hnone : (w.emit (.sleep n)).agenda = [] := h
    unfold World.slept
    simp only [hnone, if_pos hn]
    exact isInterrupted_deliver_terminate _

theorem keeps_record (w : World) (a : Area) (r : Record) : Keeps w [.log a r] (w.record a r) := by
  have hlog : Keeps w [.log a r] (w.emit (.log a r)) := keeps_emit w rfl
  unfold World.record
  dsimp only
  split
  · exact hlog.append (keeps_still rfl rfl rfl)
  · exact hlog

namespace Run

/-- A part of a run always returns, and takes no signal. -/
def Attends (m : Run α) : Prop := ∀ w, ∃ a t w', m w = .ok a w' ∧ Keeps w t w'

theorem keeps_attempt {α : Type} {w w' : World} {r : Except Failure α}
    {request : FileSystem → Except Failure (α × FileSystem)} (h : w.attempt request = (r, w')) :
    Keeps w [] w' := by
  cases r with
  | ok a =>
    obtain ⟨files, -, rfl⟩ := attempt_ok h
    exact keeps_still rfl rfl rfl
  | error e =>
    rw [attempt_error h]
    exact keeps_refl w

section

variable {m : Run α}

theorem attends_pure (a : α) : (pure a : Run α).Attends := fun w => ⟨a, [], w, rfl, keeps_refl w⟩

theorem attends_bind {f : α → Run β} (hm : m.Attends) (hf : ∀ a, (f a).Attends) :
    (m >>= f).Attends := by
  intro w
  obtain ⟨a, s, mid, ha, hs⟩ := hm w
  obtain ⟨b, t, w', hb, ht⟩ := hf a mid
  exact ⟨b, s ++ t, w', (bind_of_ok ha).trans hb, hs.append ht⟩

theorem attends_ite {p : Prop} [Decidable p] {m' : Run α} (h : m.Attends) (h' : m'.Attends) :
    (if p then m else m').Attends := by
  split
  · exact h
  · exact h'

theorem attends_step {f : World → α × World} (h : ∀ w, ∃ t, Keeps w t (f w).2) :
    (step f).Attends := by
  intro w
  obtain ⟨s, hs, -⟩ := keeps_advance w
  obtain ⟨t, ht⟩ := h w.advance
  exact ⟨_, s ++ t, _, rfl, hs.append ht⟩

theorem attends_change {f : World → World} (h : ∀ w, ∃ t, Keeps w t (f w)) : (change f).Attends :=
  attends_step h

theorem attends_look (f : World → α) : (look f).Attends :=
  attends_step fun w => ⟨[], keeps_refl w⟩

theorem attends_log (a : Area) (r : Record) : (log a r).Attends :=
  attends_change fun w => ⟨_, keeps_record w a r⟩

theorem attends_logAll (a : Area) (rs : List Record) : (logAll a rs).Attends := by
  induction rs with
  | nil => exact attends_pure ()
  | cons r rest ih => exact attends_bind (attends_log a r) fun _ => ih

theorem attends_sleep (n : Nat) : (sleep n).Attends := by
  refine attends_change fun w => ?_
  obtain ⟨t, ht, -⟩ := keeps_slept w n
  exact ⟨_, ht⟩

theorem attends_reach (x : Milestone) : (reach x).Attends :=
  attends_change fun w => ⟨_, keeps_emit w rfl⟩

theorem attends_reopenLog : reopenLog.Attends :=
  attends_step fun _ => ⟨[], keeps_still rfl rfl rfl⟩

theorem attends_writeText (id : FileId) (text : String) : (writeText id text).Attends := by
  refine attends_step fun w => ⟨[], ?_⟩
  split <;> exact keeps_still rfl rfl rfl

theorem attends_createFile (path : String) : (createFile path).Attends := by
  refine attends_step fun w => ?_
  cases hr : w.attempt (·.openForWriting path true) with
  | mk result w' =>
    cases result with
    | ok id => exact ⟨_, (keeps_attempt hr).append (keeps_emit w' rfl)⟩
    | error e => exact ⟨[], keeps_attempt hr⟩

end

end Run

end Headend.Host

namespace Headend.Service

open Headend.Config
open Headend.Host
open Headend.Host.Run
open Headend.Tuner (Source OpenDevice)

/-! ### The answers of the engine -/

theorem attends_readStatus (d : OpenDevice) : (Tuner.readStatus d).Attends := by
  refine attends_step fun w => ?_
  have hread : Keeps w [.readStatus] (w.emit .readStatus) := keeps_emit w rfl
  dsimp only
  split
  · exact ⟨_, hread⟩
  · rename_i device _
    have hset : Keeps w [.readStatus]
        ((w.emit .readStatus).setDevice d.file (device.nextStatus w.refusal).2) :=
      hread.append (keeps_still rfl rfl rfl)
    cases device.nextSignal with
    | none => exact ⟨_, hset⟩
    | some n => exact ⟨_, hset.append (keeps_deliver _ n)⟩

theorem attends_sourceStatus (s : Source) : s.readStatus.Attends := by
  cases s with
  | device d => exact attends_readStatus d
  | recording path => exact attends_pure _

theorem attends_reportStatus (s : Source) : (reportStatus s).Attends := by
  refine attends_bind (attends_sourceStatus s) fun r => ?_
  cases r with
  | error e => exact attends_log _ _
  | ok status => exact attends_log _ _

theorem attends_writeLines (id : FileId) (lines : List String) : (writeLines id lines).Attends := by
  induction lines with
  | nil => exact attends_pure _
  | cons line rest ih =>
    refine attends_bind (attends_writeText id line) fun r => ?_
    cases r with
    | error e => exact attends_pure _
    | ok _ => exact ih

theorem attends_writeList (path : String) (lines : List String) :
    (writeList path lines).Attends := by
  refine attends_bind (attends_createFile path) fun r => ?_
  cases r with
  | error e => exact attends_pure _
  | ok id =>
    refine attends_bind (attends_writeLines id lines) fun r => ?_
    cases r with
    | error e => exact attends_pure _
    | ok _ => exact attends_bind (attends_reach _) fun _ => attends_pure _

theorem attends_settle (path : String) (created : List String) (r : Except Failure Unit) :
    (settle path created r).Attends := by
  cases r with
  | ok _ => exact attends_pure _
  | error e => exact attends_bind (attends_log _ _) fun _ => attends_pure _

theorem attends_createLists (paths : ListPaths) (s : Store) : (createLists paths s).Attends := by
  refine attends_bind (attends_writeList _ _) fun streamed => ?_
  refine attends_bind (attends_writeList _ _) fun notStreamed => ?_
  refine attends_bind (attends_settle _ _ _) fun _ => ?_
  refine attends_bind (attends_settle _ _ _) fun _ => ?_
  dsimp only
  split
  · exact attends_pure _
  · refine attends_bind (attends_writeList _ _) fun _ => ?_
    exact attends_bind (attends_settle _ _ _) fun _ => attends_pure _

theorem attends_answer (h : Handoff) (n : Int) : (answer h n).Attends := by
  refine attends_ite (attends_reportStatus h.source) (attends_ite ?_ (attends_ite ?_ ?_))
  · refine attends_bind (attends_logAll _ _) fun _ => attends_ite ?_ (attends_pure _)
    exact attends_bind (attends_createLists _ _) fun _ => attends_pure _
  · refine attends_bind (attends_log _ _) fun _ => attends_bind attends_reopenLog fun r => ?_
    cases r with
    | error e => exact attends_log _ _
    | ok _ => exact attends_pure _
  · exact attends_pure _

end Headend.Service
