import Headend.Proofs.Ledger
import Headend.Proofs.SignalHistory

/-!
# The course of a run

As far as the signal state and the trace go, all that happens in a run is made of six kinds of
moves: a signal is delivered, a failure is made a cause of the end, the advisory signal is taken,
the card is said to be tuned, an event is added that no register knows of, and what is left changes
neither. A course is a sequence of moves. What each move keeps, a course keeps, and a program is
described by the events on its courses (`Run.Gives`), also where it breaks down.

Facts: `Course.trace` and `Course.cause` (the trace and the first cause after a course),
`course_advance` (what others do), `Run.gives_bind` and `Run.gives_step` (how a description is put
together), `Run.gives_log` and the like (the steps), `Run.course_report` (a failure is reported).
-/

namespace Headend.Host

open Headend.Signal (Cause StandsForCause)

/-! ### Events and causes -/

/-- Whether the registers know nothing of an event. -/
def Event.IsInert : Event → Prop
  | signal .. | reached (.failed _) => False
  | _ => True

/-- The cause of the end that an event gives. -/
def Event.cause? : Event → Option Cause
  | signal n _ => if Signal.IsTerminating n then some (.signal n) else none
  | reached (.failed code) => some (.error code)
  | _ => none

/-- The causes of the end that events give, whether or not one was set before. -/
def causes (t : List Event) : List Cause := t.filterMap Event.cause?

theorem causes_append (s t : List Event) : causes (s ++ t) = causes s ++ causes t :=
  List.filterMap_append

theorem Event.cause?_of_isInert {e : Event} (he : e.IsInert) : e.cause? = none := by
  unfold cause?
  split
  · exact he.elim
  · exact he.elim
  · rfl

/-! ### Moves and courses -/

/-- One move, with the events that it adds. -/
inductive Move : World → List Event → World → Prop
  | still {w w' : World} (trace : w'.trace = w.trace) (signals : w'.signals = w.signals) :
    Move w [] w'
  | event (w : World) {e : Event} (he : e.IsInert) : Move w [e] (w.emit e)
  | signal (w : World) (n : Int) : Move w [.signal n (w.signals.handle n).1] (w.deliver n)
  | failure (w : World) (code : ExitCode) :
    Move w [.reached (.failed code)]
      ({ w with signals := (w.signals.interrupt (.error code)).2 }.emit (.reached (.failed code)))
  | take (w : World) : Move w [] { w with signals := w.signals.take.2 }
  | tuned (w : World) : Move w [] { w with signals := w.signals.setTuned true }

/-- Moves one after the other, with the events that they add. -/
inductive Course : World → List Event → World → Prop
  | nil (w : World) : Course w [] w
  | cons {w w' w'' : World} {s t : List Event} (h : Move w s w') (h' : Course w' t w'') :
    Course w (s ++ t) w''

section

variable {w w' w'' : World} {s t : List Event}

theorem Move.course (h : Move w t w') : Course w t w' := by
  rw [← List.append_nil t]
  exact .cons h (.nil w')

theorem Course.append (h : Course w s w') (h' : Course w' t w'') : Course w (s ++ t) w'' := by
  induction h with
  | nil => exact h'
  | cons hm _ ih =>
    rw [List.append_assoc]
    exact .cons hm (ih h')

theorem Move.trace (h : Move w t w') : w'.trace = w.trace ++ t := by
  cases h with
  | still trace => rw [trace, List.append_nil]
  | event | signal | failure => rfl
  | take | tuned => exact (List.append_nil w.trace).symm

/-- A course adds its events to the trace. -/
theorem Course.trace (h : Course w t w') : w'.trace = w.trace ++ t := by
  induction h with
  | nil => exact (List.append_nil _).symm
  | cons hm _ ih => rw [ih, hm.trace, List.append_assoc]

theorem Course.unique (h : Course w s w') (h' : Course w t w') : s = t :=
  List.append_cancel_left (h.trace.symm.trans h'.trace)

theorem causes_singleton (e : Event) : (causes [e]).head? = e.cause? := by
  rw [causes, List.filterMap_cons]
  cases e.cause? <;> rfl

/-- The first cause after a move: the one from before, or else the one that the move gives. -/
theorem Move.cause (h : Move w t w') {first : Option Cause}
    (hfirst : StandsForCause w.signals.cause first) (hp : ∀ c ∈ causes t, c.IsProper) :
    StandsForCause w'.signals.cause (first.or (causes t).head?) := by
  have hsame : StandsForCause w.signals.cause (first.or none) := by
    rw [Option.or_none]
    exact hfirst
  cases h with
  | still _ signals => rw [signals]; exact hsame
  | event he => rw [causes_singleton, Event.cause?_of_isInert he]; exact hsame
  | signal n =>
    rw [causes_singleton]
    by_cases hn : Signal.IsTerminating n
    · have hcause : (Event.signal n (w.signals.handle n).1).cause? = some (.signal n) := if_pos hn
      have hproper : (Cause.signal n).IsProper :=
        hp _ (List.mem_filterMap.2 ⟨_, List.mem_singleton_self _, hcause⟩)
      rw [hcause, World.deliver, w.signals.handle_of_terminating hn]
      exact hfirst.interrupt hproper
    · rw [Event.cause?, if_neg hn, World.deliver]
      rcases Signal.advisory_or_terminating n with hkept | hterminating | rfl | rfl
      · rw [w.signals.handle_of_advisory hkept]
        exact hsame
      · exact absurd hterminating hn
      · exact hsame
      · exact hsame
  | failure code => exact hfirst.interrupt (c := .error code) trivial
  | take => exact hsame
  | tuned => exact hsame

/-- The first cause after a course: the one from before, or else the first that the course gives. -/
theorem Course.cause (h : Course w t w') {first : Option Cause}
    (hfirst : StandsForCause w.signals.cause first) (hp : ∀ c ∈ causes t, c.IsProper) :
    StandsForCause w'.signals.cause (first.or (causes t).head?) := by
  -- Each move may set the first cause, so the induction is over any cause set before.
  induction h generalizing first with
  | nil => rw [show (causes []).head? = none from rfl, Option.or_none]; exact hfirst
  | cons hm _ ih =>
    rw [causes_append] at hp ⊢
    rw [List.forall_mem_append] at hp
    rw [List.head?_append, ← Option.or_assoc]
    exact ih (hm.cause hfirst hp.1) hp.2

end

/-! ### What others do -/

theorem course_meddle (w : World) (i : Interference) :
    ∃ t, Course w t (w.meddle i) ∧ ∀ e ∈ t, e.IsForeign := by
  have hstill : ∀ files, ∃ t, Course w t { w with files } ∧ ∀ e ∈ t, e.IsForeign := fun files =>
    ⟨[], Move.course (.still rfl rfl), List.forall_mem_nil _⟩
  cases i with
  | signal n => exact ⟨_, Move.course (.signal w n), List.forall_mem_singleton.2 trivial⟩
  | remove path =>
    unfold World.meddle
    dsimp only
    split
    · exact hstill _
    · exact hstill w.files
  | list => exact ⟨_, Move.course (.event w trivial), List.forall_mem_singleton.2 trivial⟩
  | rename | removeTree | makeDirectory | write => exact hstill _

theorem course_meddleAll (is : List Interference) (w : World) :
    ∃ t, Course w t (w.meddleAll is) ∧ ∀ e ∈ t, e.IsForeign := by
  induction is generalizing w with
  | nil => exact ⟨[], .nil w, List.forall_mem_nil _⟩
  | cons i rest ih =>
    obtain ⟨s, hs, hforeign⟩ := course_meddle w i
    obtain ⟨t, ht, hforeign'⟩ := ih (w.meddle i)
    exact ⟨s ++ t, hs.append ht, List.forall_mem_append.2 ⟨hforeign, hforeign'⟩⟩

theorem course_advance (w : World) : ∃ t, Course w t w.advance ∧ ∀ e ∈ t, e.IsForeign := by
  obtain ⟨t, ht, hforeign⟩ := course_meddleAll (w.schedule w.clock) w
  refine ⟨t ++ [], ht.append (Move.course (.still rfl rfl)), ?_⟩
  rw [List.append_nil]
  exact hforeign

theorem course_slept (w : World) (n : Nat) :
    ∃ t, Course w (.sleep n :: t) (w.slept n) ∧ ∀ e ∈ t, e.IsForeign := by
  have hsleep : Course w [.sleep n] (w.emit (.sleep n)) := Move.course (.event w trivial)
  unfold World.slept
  dsimp only
  split
  · rename_i entry rest h
    have htaken : Course (w.emit (.sleep n)) [] { w.emit (.sleep n) with agenda := rest } :=
      Move.course (.still rfl rfl)
    obtain ⟨t, ht, hforeign⟩ := course_meddleAll entry { w.emit (.sleep n) with agenda := rest }
    exact ⟨t, hsleep.append (htaken.append ht), hforeign⟩
  · split
    · exact ⟨_, hsleep.append (Move.course (.signal _ Signal.terminate)),
        List.forall_mem_singleton.2 trivial⟩
    · exact ⟨[], hsleep, List.forall_mem_nil _⟩

/-! ### Parts of a run -/

/-- A property of events that what others do has, and that holds of events one after the other if it
holds of each. -/
class Additive (P : List Event → Prop) : Prop where
  foreign : ∀ t, (∀ e ∈ t, e.IsForeign) → P t
  append : ∀ s t, P s → P t → P (s ++ t)

/-- No condition on events. -/
def AnyEvents (_ : List Event) : Prop := True

instance : Additive AnyEvents where
  foreign _ _ := trivial
  append _ _ _ _ := trivial

theorem Additive.nil (P : List Event → Prop) [Additive P] : P [] :=
  Additive.foreign [] (List.forall_mem_nil _)

namespace Run

/-- The world in which a part of a run ends, also if it breaks down. -/
def lastWorld (m : Run α) (w : World) : World :=
  match m w with
  | .ok _ w' => w'
  | .error _ w' => w'

/-- On the course of a part of a run are events with a property. -/
def Gives (m : Run α) (P : List Event → Prop) : Prop :=
  ∀ w, ∃ t, Course w t (m.lastWorld w) ∧ P t

theorem lastWorld_of_ok {m : Run α} {w w' : World} {a : α} (h : m w = .ok a w') :
    m.lastWorld w = w' := by
  rw [lastWorld, h]

theorem lastWorld_of_error {m : Run α} {w w' : World} {o : Tuner.Overflow}
    (h : m w = .error o w') : m.lastWorld w = w' := by
  rw [lastWorld, h]

theorem bind_of_ok {m : Run α} {f : α → Run β} {w w' : World} {a : α} (h : m w = .ok a w') :
    (m >>= f) w = f a w' := by
  simp only [bind, EStateM.bind, h]

theorem bind_of_error {m : Run α} {f : α → Run β} {w w' : World} {o : Tuner.Overflow}
    (h : m w = .error o w') : (m >>= f) w = .error o w' := by
  simp only [bind, EStateM.bind, h]

theorem lastWorld_bind_of_ok {m : Run α} {f : α → Run β} {w w' : World} {a : α}
    (h : m w = .ok a w') : (m >>= f).lastWorld w = (f a).lastWorld w' := by
  rw [lastWorld, lastWorld, bind_of_ok h]

theorem lastWorld_bind_of_error {m : Run α} {f : α → Run β} {w w' : World} {o : Tuner.Overflow}
    (h : m w = .error o w') : (m >>= f).lastWorld w = m.lastWorld w := by
  rw [lastWorld, lastWorld, bind_of_error h, h]

theorem bind_ok {m : Run α} {f : α → Run β} {w w' : World} {b : β}
    (h : (m >>= f) w = .ok b w') : ∃ a mid, m w = .ok a mid ∧ f a mid = .ok b w' := by
  change EStateM.bind m f w = .ok b w' at h
  unfold EStateM.bind at h
  split at h
  · rename_i a mid hmid
    exact ⟨a, mid, hmid, h⟩
  · cases h

section

variable {m : Run α} {P Q : List Event → Prop}

theorem gives_mono (hm : m.Gives P) (h : ∀ t, P t → Q t) : m.Gives Q := by
  intro w
  obtain ⟨t, ht, hp⟩ := hm w
  exact ⟨t, ht, h t hp⟩

theorem gives_ite {p : Prop} [Decidable p] {m' : Run α} (h : m.Gives P) (h' : m'.Gives P) :
    (if p then m else m').Gives P := by
  split
  · exact h
  · exact h'

/-- The events of a part of a run that ends with a value. -/
theorem Gives.ok {w w' : World} {a : α} (hm : m.Gives P) (h : m w = .ok a w') :
    ∃ t, Course w t w' ∧ P t := by
  obtain ⟨t, ht, hp⟩ := hm w
  rw [lastWorld_of_ok h] at ht
  exact ⟨t, ht, hp⟩

theorem anyEvents_of_gives (h : m.Gives P) : m.Gives AnyEvents := gives_mono h fun _ _ => trivial

variable [Additive P]

theorem gives_pure (a : α) : (pure a : Run α).Gives P := fun w => ⟨[], .nil w, Additive.nil P⟩

theorem gives_bind {f : α → Run β} (hm : m.Gives P) (hf : ∀ a, (f a).Gives P) :
    (m >>= f).Gives P := by
  intro w
  obtain ⟨s, hs, hp⟩ := hm w
  cases hmw : m w with
  | ok a mid =>
    rw [lastWorld_of_ok hmw] at hs
    obtain ⟨t, ht, hp'⟩ := hf a mid
    rw [lastWorld_bind_of_ok hmw]
    exact ⟨s ++ t, hs.append ht, Additive.append s t hp hp'⟩
  | error o mid =>
    rw [lastWorld_bind_of_error hmw]
    exact ⟨s, hs, hp⟩

/-- A step gives what others bring about before it, and then its own events. -/
theorem gives_step {f : World → α × World} (h : ∀ w, ∃ t, Course w t (f w).2 ∧ P t) :
    (step f).Gives P := by
  intro w
  obtain ⟨u, hu, hforeign⟩ := course_advance w
  obtain ⟨t, ht, hp⟩ := h w.advance
  exact ⟨u ++ t, hu.append ht, Additive.append u t (Additive.foreign u hforeign) hp⟩

theorem gives_change {f : World → World} (h : ∀ w, ∃ t, Course w t (f w) ∧ P t) :
    (change f).Gives P :=
  gives_step h

/-! ### Steps -/

theorem gives_step_still {f : World → α × World}
    (h : ∀ w, (f w).2.trace = w.trace ∧ (f w).2.signals = w.signals) : (step f).Gives P :=
  gives_step fun w => ⟨[], Move.course (.still (h w).1 (h w).2), Additive.nil P⟩

theorem gives_look (f : World → α) : (look f).Gives P := gives_step_still fun _ => ⟨rfl, rfl⟩

theorem gives_idle (steps : Nat) : (idle steps).Gives P := by
  induction steps with
  | zero => exact gives_pure ()
  | succ steps ih => exact gives_bind (gives_look _) fun _ => ih

theorem gives_waitFor (moment : Nat) : (waitFor moment).Gives P := fun w => gives_idle _ w

theorem gives_isInterrupted : isInterrupted.Gives P := gives_look _

theorem gives_arithmetic (r : Except Tuner.Overflow α) : (arithmetic r).Gives P := by
  cases r with
  | ok a => exact gives_pure a
  | error o => exact fun w => ⟨[], .nil w, Additive.nil P⟩

theorem gives_agendaLength : agendaLength.Gives P := fun w => ⟨[], .nil w, Additive.nil P⟩

theorem gives_takeSignal : takeSignal.Gives P :=
  gives_step fun w => ⟨[], Move.course (.take w), Additive.nil P⟩

theorem gives_setTuned : (setTuned true).Gives P :=
  gives_change fun w => ⟨[], Move.course (.tuned w), Additive.nil P⟩

theorem gives_readNode (node : Node) : (readNode node).Gives P := by
  cases node with
  | directory => exact gives_look _
  | file id => exact gives_look _

theorem gives_writeText (id : FileId) (text : String) : (writeText id text).Gives P := by
  refine gives_step_still fun w => ?_
  split <;> exact ⟨rfl, rfl⟩

theorem gives_reopenLog : reopenLog.Gives P := gives_step_still fun _ => ⟨rfl, rfl⟩

theorem gives_emit {e : Event} (he : e.IsInert) (h : P [e]) : (change (·.emit e)).Gives P :=
  gives_change fun w => ⟨[e], Move.course (.event w he), h⟩

theorem gives_reach {x : Milestone} (hx : (Event.reached x).IsInert) (h : P [.reached x]) :
    (reach x).Gives P :=
  gives_emit hx h

theorem gives_arm {seconds : UInt32} (h : P [.alarm seconds]) : (arm seconds).Gives P :=
  gives_emit trivial h

theorem gives_sleep {n : Nat} (h : P [.sleep n]) : (sleep n).Gives P := by
  refine gives_change fun w => ?_
  obtain ⟨t, ht, hforeign⟩ := course_slept w n
  exact ⟨_, ht, Additive.append [.sleep n] t h (Additive.foreign t hforeign)⟩

theorem course_record (w : World) (a : Area) (r : Record) :
    Course w [.log a r] (w.record a r) := by
  have hlog : Course w [.log a r] (w.emit (.log a r)) := Move.course (.event w trivial)
  unfold World.record
  dsimp only
  split
  · exact hlog.append (Move.course (.still rfl rfl))
  · exact hlog

theorem gives_log {a : Area} {r : Record} (h : P [.log a r]) : (log a r).Gives P :=
  gives_change fun w => ⟨_, course_record w a r, h⟩

theorem gives_logAll {a : Area} (h : ∀ r, P [.log a r]) (rs : List Record) :
    (logAll a rs).Gives P := by
  induction rs with
  | nil => exact gives_pure ()
  | cons r rest ih => exact gives_bind (gives_log (h r)) fun _ => ih

/-- Trying to send the log to a file tells of it if it is done. -/
theorem attachLog_course (path : String) (w : World) :
    ∃ u w', (∀ e ∈ u, e.IsForeign) ∧
      ((attachLog path w = .ok (.ok ()) w' ∧
          Course w (u ++ [.reached (.logAttached path)]) w') ∨
        ∃ e, attachLog path w = .ok (.error e) w' ∧ Course w u w') := by
  obtain ⟨u, hu, hforeign⟩ := course_advance w
  have hattach : Course w u
      { w.advance with
        sink := (w.advance.sink.attach w.advance.files path).sink
        files := (w.advance.sink.attach w.advance.files path).files } := by
    rw [← List.append_nil u]
    exact hu.append (Move.course (.still rfl rfl))
  cases hr : (w.advance.sink.attach w.advance.files path).result with
  | ok _ =>
    refine ⟨u, _, hforeign, .inl ⟨?_, hattach.append (Move.course (.event _ trivial))⟩⟩
    simp only [attachLog, step, hr]
  | error e =>
    refine ⟨u, _, hforeign, .inr ⟨e, ?_, hattach⟩⟩
    simp only [attachLog, step, hr]

theorem gives_attachLog {path : String} (h : P [.reached (.logAttached path)]) :
    (attachLog path).Gives P := by
  intro w
  obtain ⟨u, w', hu, ⟨hw, hcourse⟩ | ⟨e, hw, hcourse⟩⟩ := attachLog_course path w
  · rw [lastWorld_of_ok hw]
    exact ⟨_, hcourse, Additive.append u _ (Additive.foreign u hu) h⟩
  · rw [lastWorld_of_ok hw]
    exact ⟨u, hcourse, Additive.foreign u hu⟩

theorem course_attempt {w w' : World} {r : Except Failure α}
    {request : FileSystem → Except Failure (α × FileSystem)} (h : w.attempt request = (r, w')) :
    Course w [] w' := by
  cases r with
  | ok a =>
    obtain ⟨files, -, rfl⟩ := attempt_ok h
    exact Move.course (.still rfl rfl)
  | error e =>
    rw [attempt_error h]
    exact .nil w

theorem gives_createFile {path : String} (h : ∀ id, P [.reached (.created path id)]) :
    (createFile path).Gives P := by
  refine gives_step fun w => ?_
  cases hr : w.attempt (·.openForWriting path true) with
  | mk result w' =>
    cases result with
    | ok id => exact ⟨_, (course_attempt hr).append (Move.course (.event w' trivial)), h id⟩
    | error e => exact ⟨[], course_attempt hr, Additive.nil P⟩

end

/-! ### Removing a file -/

/-- Trying to remove a file tells of it, whatever comes of it. -/
theorem removeFile_course (path : String) (w : World) :
    ∃ u w', (∀ e ∈ u, e.IsForeign) ∧
      ((∃ id, removeFile path w = .ok (.ok ()) w' ∧
          Course w (u ++ [.reached (.removed path id)]) w') ∨
        ∃ e, removeFile path w = .ok (.error e) w' ∧
          Course w (u ++ [.reached (.notRemoved path e)]) w') := by
  obtain ⟨u, hu, hforeign⟩ := course_advance w
  cases hr : w.advance.attempt (·.removeFile path) with
  | mk result mid =>
    have hmid := hu.append (course_attempt hr)
    rw [List.append_nil] at hmid
    cases result with
    | ok id =>
      refine ⟨u, _, hforeign, .inl ⟨id, ?_, hmid.append (Move.course (.event mid trivial))⟩⟩
      simp only [removeFile, step, hr]
    | error e =>
      refine ⟨u, _, hforeign, .inr ⟨e, ?_, hmid.append (Move.course (.event mid trivial))⟩⟩
      simp only [removeFile, step, hr]

/-! ### Reporting a failure -/

/-- A failure is told in the log and made a cause of the end. -/
def report (a : Area) (r : Record) (code : ExitCode) : Run Unit := do
  log a r
  interrupt code

theorem course_report (a : Area) (r : Record) (code : ExitCode) (w : World) :
    ∃ u v w', report a r code w = .ok () w' ∧ (∀ e ∈ u, e.IsForeign) ∧ (∀ e ∈ v, e.IsForeign) ∧
      Course w (u ++ .log a r :: (v ++ [.reached (.failed code)])) w' := by
  obtain ⟨u, hu, hforeign⟩ := course_advance w
  have hlog := hu.append (course_record w.advance a r)
  obtain ⟨v, hv, hforeign'⟩ := course_advance (w.advance.record a r)
  have hfailed := (hlog.append hv).append (Move.course (.failure _ code))
  refine ⟨u, v, _, rfl, hforeign, hforeign', ?_⟩
  simpa using hfailed

theorem gives_report {a : Area} {r : Record} {code : ExitCode} {P : List Event → Prop} [Additive P]
    (h : ∀ v, (∀ e ∈ v, e.IsForeign) → P (.log a r :: (v ++ [.reached (.failed code)]))) :
    (report a r code).Gives P := by
  intro w
  obtain ⟨u, v, w', hw, hu, hv, hcourse⟩ := course_report a r code w
  rw [lastWorld_of_ok hw]
  exact ⟨_, hcourse, Additive.append u _ (Additive.foreign u hu) (h v hv)⟩

/-! ### Values -/

/-- Whenever a part of a run ends with a value, the value has a property. -/
def Yields (m : Run α) (Q : α → Prop) : Prop := ∀ w a w', m w = .ok a w' → Q a

/-- A part of a run does not break down when it starts in a world. -/
def ReturnsFrom (m : Run α) (w : World) : Prop := ∃ a w', m w = .ok a w'

/-- A part of a run that does not break down. -/
def Returns (m : Run α) : Prop := ∀ w, ∃ a w', m w = .ok a w'

section

variable {m : Run α} {P : α → Prop} {Q : β → Prop}

theorem yields_pure {a : α} (h : P a) : (pure a : Run α).Yields P := by
  rintro w _ _ ⟨⟩
  exact h

theorem yields_bind {f : α → Run β} (hm : m.Yields P) (hf : ∀ a, P a → (f a).Yields Q) :
    (m >>= f).Yields Q := by
  intro w b w' h
  obtain ⟨a, mid, ha, hb⟩ := bind_ok h
  exact hf a (hm w a mid ha) mid b w' hb

/-- The value only depends on what comes last. -/
theorem yields_after {f : α → Run β} (hf : ∀ a, (f a).Yields Q) : (m >>= f).Yields Q := by
  intro w b w' h
  obtain ⟨a, mid, -, hb⟩ := bind_ok h
  exact hf a mid b w' hb

theorem yields_ite {p : Prop} [Decidable p] {m' : Run α} (h : m.Yields P) (h' : m'.Yields P) :
    (if p then m else m').Yields P := by
  split
  · exact h
  · exact h'

theorem returns_pure (a : α) : (pure a : Run α).Returns := fun w => ⟨a, w, rfl⟩

theorem returns_step (f : World → α × World) : (step f).Returns := fun _ => ⟨_, _, rfl⟩

theorem returns_look (f : World → α) : (look f).Returns := returns_step _

theorem returns_change (f : World → World) : (change f).Returns := returns_step _

theorem returns_bind {f : α → Run β} (hm : m.Returns) (hf : ∀ a, (f a).Returns) :
    (m >>= f).Returns := by
  intro w
  obtain ⟨a, mid, ha⟩ := hm w
  obtain ⟨b, w', hb⟩ := hf a mid
  exact ⟨b, w', (bind_of_ok ha).trans hb⟩

theorem returns_waitFor (moment : Nat) : (waitFor moment).Returns := by
  have hidle : ∀ steps, (idle steps).Returns := fun steps => by
    induction steps with
    | zero => exact returns_pure ()
    | succ steps ih => exact returns_bind (returns_look _) fun _ => ih
  exact fun w => hidle _ w

theorem returns_log (a : Area) (r : Record) : (log a r).Returns := returns_change _

theorem returns_logAll (a : Area) (rs : List Record) : (logAll a rs).Returns := by
  induction rs with
  | nil => exact returns_pure ()
  | cons r rest ih => exact returns_bind (returns_log a r) fun _ => ih

theorem returns_reach (x : Milestone) : (reach x).Returns := returns_change _

theorem returns_report (a : Area) (r : Record) (code : ExitCode) : (report a r code).Returns :=
  returns_bind (returns_log a r) fun _ => returns_change _

end

/-! ### Events that come on every course -/

/-- Whenever a part of a run ends with a value, an event has come on its course. -/
def Reaches (m : Run α) (x : Event) : Prop :=
  ∀ w a w', m w = .ok a w' → ∃ t, Course w t w' ∧ x ∈ t

section

variable {m : Run α} {x : Event}

theorem reaches_emit (hx : x.IsInert) : (change (·.emit x)).Reaches x := by
  rintro w _ _ ⟨⟩
  obtain ⟨t, ht, -⟩ := course_advance w
  exact ⟨_, ht.append (Move.course (.event w.advance hx)), List.mem_append_right _ (by simp)⟩

theorem reaches_before {f : α → Run β} (hm : m.Reaches x) (hf : ∀ a, (f a).Gives AnyEvents) :
    (m >>= f).Reaches x := by
  intro w b w' h
  obtain ⟨a, mid, ha, hb⟩ := bind_ok h
  obtain ⟨s, hs, hx⟩ := hm w a mid ha
  obtain ⟨t, ht, -⟩ := (hf a).ok hb
  exact ⟨s ++ t, hs.append ht, List.mem_append_left _ hx⟩

theorem reaches_after {f : α → Run β} {P : α → Prop} (hm : m.Gives AnyEvents) (hv : m.Yields P)
    (hf : ∀ a, P a → (f a).Reaches x) : (m >>= f).Reaches x := by
  intro w b w' h
  obtain ⟨a, mid, ha, hb⟩ := bind_ok h
  obtain ⟨s, hs, -⟩ := hm.ok ha
  obtain ⟨t, ht, hx⟩ := hf a (hv w a mid ha) mid b w' hb
  exact ⟨s ++ t, hs.append ht, List.mem_append_right _ hx⟩

end

end Run

end Headend.Host
