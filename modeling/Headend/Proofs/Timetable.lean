import Headend.Proofs.Life

/-!
# A timetable of the stages

The stages of a run follow one another in a fixed order, and each has its own effects. A timetable
reads the events of a run one by one and tells the stage to which they lead; it stops at the first
event that is out of order. What a program does is described by the positions from which and to
which it leads (`Leads`), or up to its end (`Ends`), so that the stages of a run are put together
like the run itself.

Facts: `walk_of_unstaged` (most events leave the stage as it is), `count_closing` (the end begins at
most once), `rank_of_mem` and `running_of_mem` (an event tells that its stage is reached),
`leads_bind` and `ends_bind` (how programs are put together).
-/

namespace Headend.Host

/-- Whether a milestone belongs to one stage of a run. -/
def Milestone.isStaged : Milestone → Bool
  | failed _ | joined _ => false
  | _ => true

/-- Whether an event belongs to one stage of a run. -/
def Event.isStaged : Event → Bool
  | alarm _ => true
  | reached m => m.isStaged
  | _ => false

/-- Whether an event tells that something was given back, or could not be. -/
def Event.isRelease : Event → Bool
  | reached (.closed _) | reached (.removed ..) | reached (.notRemoved ..) => true
  | _ => false

/-- Whether an event may come from an engine, which opens and creates what it needs. -/
def Event.isWork : Event → Bool
  | alarm _ | reached (.opened _) | reached (.created ..) | reached (.completed _) => true
  | e => !e.isStaged

/-- Whether no event belongs to a stage. -/
def Unstaged (t : List Event) : Prop := ∀ e ∈ t, e.isStaged = false

/-- Whether all events may come from an engine. -/
def Work (t : List Event) : Prop := ∀ e ∈ t, e.isWork = true

theorem Event.isStaged_of_isForeign {e : Event} (h : e.IsForeign) : e.isStaged = false := by
  cases e with
  | signal | listed => rfl
  | _ => exact h.elim

theorem Event.isStaged_of_isRoutine {e : Event} (h : e.IsRoutine) : e.isStaged = false := by
  cases e with
  | reached m => cases m <;> first | rfl | exact h.elim
  | alarm => exact h.elim
  | _ => rfl

theorem Event.isWork_of_unstaged {e : Event} (h : e.isStaged = false) : e.isWork = true := by
  unfold isWork
  split
  all_goals first | rfl | simp [h]

instance : Additive Unstaged where
  foreign _ h e he := e.isStaged_of_isForeign (h e he)
  append _ _ hs ht := List.forall_mem_append.2 ⟨hs, ht⟩

instance : Additive Work where
  foreign _ h e he := e.isWork_of_unstaged (e.isStaged_of_isForeign (h e he))
  append _ _ hs ht := List.forall_mem_append.2 ⟨hs, ht⟩

theorem unstaged_of_routine {t : List Event} (h : Routine t) : Unstaged t :=
  fun e he => (h e he).elim e.isStaged_of_isForeign e.isStaged_of_isRoutine

theorem work_of_producing {paths : List String} {t : List Event} (h : Producing paths t) :
    Work t := by
  intro e he
  rcases h e he with hforeign | hroutine | ⟨path, -, ⟨id, rfl⟩ | rfl⟩
  · exact e.isWork_of_unstaged (e.isStaged_of_isForeign hforeign)
  · exact e.isWork_of_unstaged (e.isStaged_of_isRoutine hroutine)
  · rfl
  · rfl

end Headend.Host

namespace Headend.Service

open Headend.Host
open Headend.Host.Run

/-! ### Stages -/

/-- How far a run has come. -/
inductive Stage where
  /-- The parameters are not known yet. -/
  | parameters
  /-- The parameters are known. The log may be sent to a file, or a source opened. -/
  | logFile
  /-- The log goes to a file. A source may be opened. -/
  | source
  /-- A source is open. -/
  | tuning
  /-- The source has been closed again. -/
  | sourceless
  /-- The source is kept. The file with the process id is to be written. -/
  | pidFile
  /-- The lists are to be written. -/
  | lists
  /-- The lists have been attempted. The engine may start. -/
  | engine
  /-- The engine has the source. -/
  | running
deriving DecidableEq

namespace Stage

/-- Whether the run keeps a source. -/
def hasSource : Stage → Bool
  | pidFile | lists | engine | running => true
  | _ => false

/-- Whether the run has opened a source. -/
def hasOpened : Stage → Bool
  | parameters | logFile | source => false
  | _ => true

/-- The place of a stage in the order of the stages. -/
def rank : Stage → Nat
  | parameters => 0
  | logFile => 1
  | source => 2
  | tuning => 3
  | sourceless => 4
  | pidFile => 5
  | lists => 6
  | engine => 7
  | running => 8

theorem hasSource_iff {s : Stage} : s.hasSource = true ↔ 5 ≤ s.rank := by cases s <;> decide

theorem hasOpened_iff {s : Stage} : s.hasOpened = true ↔ 3 ≤ s.rank := by cases s <;> decide

theorem eq_running_iff {s : Stage} : s = .running ↔ 8 ≤ s.rank := by cases s <;> decide

end Stage

/-- The stage of a run, and whether its end has begun. -/
structure Position where
  stage : Stage
  ended : Bool := false
deriving DecidableEq

/-- The files that a run creates before the engine starts. -/
structure Timetable where
  /-- The file with the process id, if the process runs in the background. -/
  pidFile : Option String
  lists : List String

namespace Timetable

variable (T : Timetable)

/-- The stage that a milestone leads to before the end, if it is in order. -/
def pass : Stage → Milestone → Option Stage
  | .parameters, .resolved => some .logFile
  | .logFile, .logAttached _ => some .source
  | .logFile, .opened _ => some .tuning
  | .source, .opened _ => some .tuning
  | .tuning, .closed _ => some .sourceless
  | .tuning, .deviceKept => some (if T.pidFile.isSome then .pidFile else .lists)
  | .pidFile, .created path _ => if T.pidFile = some path then some .pidFile else none
  | .pidFile, .completed path => if T.pidFile = some path then some .lists else none
  | .lists, .created path _ => if path ∈ T.lists then some .lists else none
  | .lists, .completed path => if path ∈ T.lists then some .lists else none
  | .lists, .listsAttempted => some .engine
  | .engine, .engineStarted => some .running
  | .running, m => if (Event.reached m).isWork then some .running else none
  | s, m => if m.isStaged then none else some s

/-- The stage that an event leads to before the end, if it is in order. An alarm is set for the
tuning, and by the engine. -/
def next (s : Stage) : Event → Option Stage
  | .alarm _ => if s = .tuning ∨ s = .running then some s else none
  | .reached m => T.pass s m
  | _ => some s

/-- The position that an event leads to, if it is in order. The end may begin in every stage, and
from then on things are only given back. -/
def step (p : Position) (e : Event) : Option Position :=
  if p.ended then
    if e.isStaged && !e.isRelease then none else some p
  else if e = .reached .closing then some { p with ended := true }
  else (T.next p.stage e).map ({ p with stage := · })

/-- The position that events lead to, if all are in order. -/
def walk (p : Position) (t : List Event) : Option Position := t.foldlM T.step p

/-- Whether events are in order and leave the position as it is. -/
def Stays (p : Position) (t : List Event) : Prop := T.walk p t = some p

variable {T} {p q : Position} {s t : List Event} {e : Event}

theorem next_of_unstaged (h : e.isStaged = false) (s : Stage) : T.next s e = some s := by
  cases e with
  | alarm => cases h
  | reached m =>
    cases m with
    | failed | joined => cases s <;> rfl
    | _ => cases h
  | _ => rfl

theorem step_of_unstaged (h : e.isStaged = false) (p : Position) : T.step p e = some p := by
  have hclosing : e ≠ .reached .closing := by
    rintro rfl
    cases h
  obtain ⟨stage, ended⟩ := p
  unfold step
  rw [h, next_of_unstaged h, if_neg hclosing]
  cases ended <;> rfl

theorem walk_append : T.walk p (s ++ t) = T.walk p s >>= fun q => T.walk q t :=
  List.foldlM_append

theorem walk_append_of_eq (h : T.walk p s = some q) : T.walk p (s ++ t) = T.walk q t := by
  rw [walk_append, h]
  rfl

theorem walk_cons : T.walk p (e :: t) = T.step p e >>= fun q => T.walk q t :=
  List.foldlM_cons

theorem step_closing {stage : Stage} :
    T.step ⟨stage, false⟩ (.reached .closing) = some ⟨stage, true⟩ :=
  rfl

theorem walk_singleton : T.walk p [e] = T.step p e := by
  rw [walk_cons]
  cases T.step p e <;> rfl

theorem stays_of_forall (h : ∀ e ∈ t, T.step p e = some p) : T.Stays p t := by
  induction t with
  | nil => rfl
  | cons e rest ih =>
    obtain ⟨he, hrest⟩ := List.forall_mem_cons.1 h
    rw [Stays, walk_cons, he]
    exact ih hrest

theorem walk_of_unstaged (h : Unstaged t) : T.walk p t = some p :=
  stays_of_forall fun e he => step_of_unstaged (h e he) p

/-- Once the end has begun, things are only given back. -/
theorem stays_of_ended (hp : p.ended = true)
    (h : ∀ e ∈ t, e.isStaged = true → e.isRelease = true) : T.Stays p t := by
  refine stays_of_forall fun e he => ?_
  unfold step
  rw [if_pos hp, if_neg]
  simpa using h e he

/-- While the engine has the source, it may do its work. -/
theorem stays_of_work (h : Work t) : T.Stays ⟨.running, false⟩ t := by
  refine stays_of_forall fun e he => ?_
  have hclosing : e ≠ .reached .closing := by
    rintro rfl
    cases h _ he
  have hnext : T.next .running e = some .running := by
    cases e with
    | reached => exact if_pos (h _ he)
    | _ => rfl
  unfold step
  rw [if_neg Bool.false_ne_true, if_neg hclosing, hnext]
  rfl

/-- While the lists are due, files may be produced at their paths. -/
theorem stays_of_producing (h : Producing T.lists t) : T.Stays ⟨.lists, false⟩ t := by
  refine stays_of_forall fun e he => ?_
  rcases h e he with hforeign | hroutine | ⟨path, hpath, ⟨id, rfl⟩ | rfl⟩
  · exact step_of_unstaged (e.isStaged_of_isForeign hforeign) _
  · exact step_of_unstaged (e.isStaged_of_isRoutine hroutine) _
  · exact congrArg (Option.map _) (if_pos hpath)
  · exact congrArg (Option.map _) (if_pos hpath)

instance : Additive (T.Stays p) where
  foreign _ h := walk_of_unstaged (Additive.foreign (P := Unstaged) _ h)
  append _ _ hs ht := (walk_append_of_eq hs).trans ht

/-! ### What the position tells of the events -/

/-- What a step in order does: the stage stays, or it is the one that the event leads to. -/
theorem step_cases (h : T.step p e = some q) :
    (p.ended = true ∧ (e.isStaged = true → e.isRelease = true) ∧ q = p) ∨
      (p.ended = false ∧ e = .reached .closing ∧ q = { p with ended := true }) ∨
      p.ended = false ∧ e ≠ .reached .closing ∧ q.ended = false ∧
        T.next p.stage e = some q.stage := by
  unfold step at h
  split at h
  · rename_i hended
    obtain ⟨hstaged, hsame⟩ := Option.ite_none_left_eq_some.1 h
    exact .inl ⟨hended, by simpa using hstaged, (Option.some.inj hsame).symm⟩
  · rename_i hended
    have hgoing := Bool.eq_false_iff.2 hended
    split at h
    · rename_i he
      exact .inr (.inl ⟨hgoing, he, (Option.some.inj h).symm⟩)
    · rename_i hne
      obtain ⟨stage, hnext, rfl⟩ := Option.map_eq_some_iff.1 h
      exact .inr (.inr ⟨hgoing, hne, hgoing, hnext⟩)

/-- The end begins exactly once on the way to a position after it, and never on the way to another
one. -/
theorem count_closing (h : T.walk p t = some q) :
    t.count (.reached .closing) + p.ended.toNat = q.ended.toNat := by
  induction t generalizing p with
  | nil =>
    cases h
    exact Nat.zero_add _
  | cons e rest ih =>
    rw [walk_cons] at h
    obtain ⟨mid, hmid, hrest⟩ := Option.bind_eq_some_iff.1 h
    have hcount := ih hrest
    rcases step_cases hmid with ⟨hended, hstaged, rfl⟩ | ⟨hended, rfl, rfl⟩ | ⟨hended, hne, hmid, -⟩
    · have hne : e ≠ .reached .closing := by
        rintro rfl
        cases hstaged rfl
      rw [List.count_cons_of_ne hne]
      exact hcount
    · rw [List.count_cons_self, hended]
      exact hcount
    · rw [List.count_cons_of_ne hne, hended, ← hmid]
      exact hcount

/-- No event leads back to an earlier stage. -/
theorem rank_next {stage stage' : Stage} (h : T.next stage e = some stage') :
    stage.rank ≤ stage'.rank := by
  unfold next at h
  split at h
  · obtain ⟨-, hsame⟩ := Option.ite_none_right_eq_some.1 h
    exact Nat.le_of_eq (congrArg Stage.rank (Option.some.inj hsame))
  · unfold pass at h
    split at h
    all_goals grind [Stage.rank]
  · exact Nat.le_of_eq (congrArg Stage.rank (Option.some.inj h))

theorem rank_walk (h : T.walk p t = some q) : p.stage.rank ≤ q.stage.rank := by
  induction t generalizing p with
  | nil =>
    cases h
    exact Nat.le_refl _
  | cons e rest ih =>
    rw [walk_cons] at h
    obtain ⟨mid, hmid, hrest⟩ := Option.bind_eq_some_iff.1 h
    refine Nat.le_trans ?_ (ih hrest)
    rcases step_cases hmid with ⟨-, -, rfl⟩ | ⟨-, -, rfl⟩ | ⟨-, -, -, hnext⟩
    · exact Nat.le_refl _
    · exact Nat.le_refl _
    · exact rank_next hnext

/-- An event that leads to a stage, or to a later one, tells that it has been reached. -/
theorem rank_of_mem {n : Nat} (hstaged : e.isStaged = true) (hrelease : e.isRelease = false)
    (hclosing : e ≠ .reached .closing)
    (he : ∀ stage stage', T.next stage e = some stage' → n ≤ stage'.rank)
    (h : T.walk p t = some q) (hmem : e ∈ t) : n ≤ q.stage.rank := by
  obtain ⟨u, v, rfl⟩ := List.mem_iff_append.1 hmem
  rw [walk_append] at h
  obtain ⟨before, -, h⟩ := Option.bind_eq_some_iff.1 h
  rw [walk_cons] at h
  obtain ⟨after, hstep, h⟩ := Option.bind_eq_some_iff.1 h
  refine Nat.le_trans ?_ (rank_walk h)
  rcases step_cases hstep with ⟨-, hreleased, -⟩ | ⟨-, hend, -⟩ | ⟨-, -, -, hnext⟩
  · rw [hreleased hstaged] at hrelease
    cases hrelease
  · exact absurd hend hclosing
  · exact he _ _ hnext

/-- If the source is kept among the events, the run has a source at their end. -/
theorem hasSource_of_mem (h : T.walk p t = some q) (hmem : .reached .deviceKept ∈ t) :
    q.stage.hasSource = true := by
  refine Stage.hasSource_iff.2 (rank_of_mem rfl rfl (by simp) ?_ h hmem)
  intro stage stage' hnext
  cases stage with
  | tuning =>
    cases hnext
    split <;> decide
  | _ => cases hnext

/-- If the engine starts among the events, it has the source at their end. -/
theorem running_of_mem (h : T.walk p t = some q) (hmem : .reached .engineStarted ∈ t) :
    q.stage = .running := by
  refine Stage.eq_running_iff.2 (rank_of_mem rfl rfl (by simp) ?_ h hmem)
  intro stage stage' hnext
  cases stage with
  | engine => cases hnext; decide
  | _ => cases hnext

/-- Before a source is opened there is nothing to tune. -/
theorem not_opened_of_walk (h : T.walk p t = some q) (hq : q.stage.hasOpened = false) :
    (∀ path, .reached (.opened path) ∉ t) ∧ ∀ seconds, .alarm seconds ∉ t := by
  have hrank : ¬3 ≤ q.stage.rank := fun hle => by
    rw [Stage.hasOpened_iff.2 hle] at hq
    cases hq
  refine ⟨fun path hmem => hrank (rank_of_mem rfl rfl (by simp) ?_ h hmem),
    fun seconds hmem => hrank (rank_of_mem rfl rfl (by simp) ?_ h hmem)⟩
  · intro stage stage' hnext
    cases stage with
    | logFile | source | running => cases hnext; decide
    | _ => cases hnext
  · intro stage stage' hnext
    obtain ⟨rfl | rfl, hsame⟩ := Option.ite_none_right_eq_some.1 hnext
    · cases hsame
      decide
    · cases hsame
      decide

/-- If no file is due before the engine starts, a file is only created while it runs. -/
theorem running_of_created (hpid : T.pidFile = none) (hlists : T.lists = [])
    (h : T.walk p t = some q) {path : String} {id : FileId}
    (hmem : .reached (.created path id) ∈ t) : q.stage = .running := by
  refine Stage.eq_running_iff.2 (rank_of_mem rfl rfl (by simp) ?_ h hmem)
  intro stage stage' hnext
  cases stage with
  | running => cases hnext; decide
  | pidFile => simp [next, pass, hpid] at hnext
  | lists => simp [next, pass, hlists] at hnext
  | _ => cases hnext

/-! ### Programs -/

variable (T)

/-- From one position the courses of a part of a run are in order. If it ends with a value, they
lead to a position that fits the value, and if it breaks down, to one with another property. -/
def Leads (p : Position) (m : Run α) (Q : α → Position → Prop) (B : Position → Prop) : Prop :=
  ∀ w, ∃ t q, Course w t (m.lastWorld w) ∧ T.walk p t = some q ∧
    (∀ a w', m w = .ok a w' → Q a q) ∧ ∀ o w', m w = .error o w' → B q

variable {T} {m : Run α} {f : α → Run β} {P Q : α → Position → Prop} {R : β → Position → Prop}
  {B B' : Position → Prop}

theorem Leads.ok {w w' : World} {a : α} (hm : T.Leads p m P B) (h : m w = .ok a w') :
    ∃ t q, Course w t w' ∧ T.walk p t = some q ∧ P a q := by
  obtain ⟨t, q, ht, hwalk, hvalue, -⟩ := hm w
  rw [lastWorld_of_ok h] at ht
  exact ⟨t, q, ht, hwalk, hvalue a w' h⟩

theorem Leads.error {w w' : World} {o : Tuner.Overflow} (hm : T.Leads p m P B)
    (h : m w = .error o w') : ∃ t q, Course w t w' ∧ T.walk p t = some q ∧ B q := by
  obtain ⟨t, q, ht, hwalk, -, hbroken⟩ := hm w
  rw [lastWorld_of_error h] at ht
  exact ⟨t, q, ht, hwalk, hbroken o w' h⟩

theorem leads_mono (hm : T.Leads p m P B) (hQ : ∀ a q, P a q → Q a q) (hB : ∀ q, B q → B' q) :
    T.Leads p m Q B' := by
  intro w
  obtain ⟨t, q, ht, hwalk, hvalue, hbroken⟩ := hm w
  exact ⟨t, q, ht, hwalk, fun a w' h => hQ a q (hvalue a w' h), fun o w' h => hB q (hbroken o w' h)⟩

theorem leads_pure {a : α} (h : Q a p) : T.Leads p (pure a : Run α) Q B := by
  refine fun w => ⟨[], p, .nil w, rfl, fun b w' hb => ?_, fun o w' ho => ?_⟩
  · cases hb
    exact h
  · cases ho

theorem leads_bind (hm : T.Leads p m P B) (hf : ∀ a q, P a q → T.Leads q (f a) R B) :
    T.Leads p (m >>= f) R B := by
  intro w
  obtain ⟨s, mid, hs, hwalk, hvalue, hbroken⟩ := hm w
  cases hmw : m w with
  | ok a w' =>
    obtain ⟨t, q, ht, hwalk', hvalue', hbroken'⟩ := hf a mid (hvalue a w' hmw) w'
    rw [lastWorld_of_ok hmw] at hs
    rw [lastWorld_bind_of_ok hmw, bind_of_ok hmw]
    exact ⟨s ++ t, q, hs.append ht, (walk_append_of_eq hwalk).trans hwalk', hvalue', hbroken'⟩
  | error o w' =>
    rw [lastWorld_bind_of_error hmw, bind_of_error hmw]
    refine ⟨s, mid, hs, hwalk, fun a w'' h => (by cases h), fun o' w'' h => ?_⟩
    exact hbroken o w' hmw

theorem gives_of_leads (h : T.Leads p m P B) : m.Gives AnyEvents := by
  intro w
  obtain ⟨t, q, ht, -⟩ := h w
  exact ⟨t, ht, trivial⟩

theorem yields_of_leads {V : α → Prop} (h : T.Leads p m P B) (hV : ∀ a q, P a q → V a) :
    m.Yields V := by
  intro w a w' ha
  obtain ⟨t, q, -, -, hvalue, -⟩ := h w
  exact hV a q (hvalue a w' ha)

/-- What a part of a run leads to where it breaks down does not matter if it never does. -/
theorem leads_of_returns (hm : m.Returns) (h : T.Leads p m P B) : T.Leads p m P B' := by
  intro w
  obtain ⟨t, q, ht, hwalk, hvalue, -⟩ := h w
  refine ⟨t, q, ht, hwalk, hvalue, fun o w' ho => ?_⟩
  obtain ⟨a, w'', ha⟩ := hm w
  rw [ha] at ho
  cases ho

theorem leads_ite {c : Prop} [Decidable c] {m' : Run α} (h : c → T.Leads p m Q B)
    (h' : ¬c → T.Leads p m' Q B) : T.Leads p (if c then m else m') Q B := by
  split
  · exact h ‹_›
  · exact h' ‹_›

/-- A part of a run that leaves the position as it is. -/
theorem leads_of_gives (hm : m.Gives (T.Stays p)) (hQ : ∀ a, Q a p) (hB : B p) :
    T.Leads p m Q B := by
  intro w
  obtain ⟨t, ht, hstays⟩ := hm w
  exact ⟨t, p, ht, hstays, fun a _ _ => hQ a, fun _ _ _ => hB⟩

theorem stays_of_unstaged (h : m.Gives Unstaged) : m.Gives (T.Stays p) :=
  gives_mono h fun _ => walk_of_unstaged

theorem stays_of_routine (h : m.Gives Routine) : m.Gives (T.Stays p) :=
  gives_mono h fun _ ht => walk_of_unstaged (unstaged_of_routine ht)

/-- After a part that leaves the position as it is, the rest goes on from there. -/
theorem leads_after (hm : m.Gives (T.Stays p)) (hB : B p)
    (hf : ∀ a, T.Leads p (f a) R B) : T.Leads p (m >>= f) R B :=
  leads_bind (leads_of_gives (Q := fun _ q => q = p) hm (fun _ => rfl) hB) fun a q hq => by
    rw [hq]
    exact hf a

theorem leads_reach {x : Milestone} {f : Unit → Run β} (hx : (Event.reached x).IsInert)
    (hstep : T.step p (.reached x) = some q) (hf : T.Leads q (f ()) R B) :
    T.Leads p (reach x >>= f) R B := by
  intro w
  obtain ⟨u, hu, hforeign⟩ := course_advance w
  have hcourse := hu.append (Move.course (.event w.advance hx))
  have hwalk : T.walk p (u ++ [.reached x]) = some q := by
    rw [walk_append_of_eq (walk_of_unstaged (Additive.foreign u hforeign)), walk_singleton, hstep]
  have hdone : reach x w = .ok () (w.advance.emit (.reached x)) := rfl
  obtain ⟨t, last, ht, hwalk', hvalue, hbroken⟩ := hf (w.advance.emit (.reached x))
  rw [lastWorld_bind_of_ok hdone, bind_of_ok hdone]
  exact ⟨_, last, hcourse.append ht, (walk_append_of_eq hwalk).trans hwalk', hvalue, hbroken⟩

/-! ### How far a run comes -/

/-- A part of a run is in order up to its end, which it comes to in some stage. The end has begun
exactly if the part does not break down. -/
def Ends (T : Timetable) (p : Position) (m : Run α) (w : World) (S : Stage → Prop) : Prop :=
  ∃ t q, Course w t (m.lastWorld w) ∧ T.walk p t = some q ∧ S q.stage ∧
    (q.ended = true ↔ ReturnsFrom m w)

/-- After some events, all in order, a part of a run goes on as another one. -/
structure Comes (T : Timetable) (p : Position) (m : Run α) (w : World) (u : List Event)
    (q : Position) (m' : Run α) (w' : World) : Prop where
  course : Course w u w'
  walk : T.walk p u = some q
  rest : m w = m' w'

variable {m' : Run α} {w w' : World} {u v : List Event} {S : Stage → Prop}

theorem Comes.lastWorld (h : T.Comes p m w u q m' w') : m.lastWorld w = m'.lastWorld w' := by
  rw [Run.lastWorld, Run.lastWorld, h.rest]

theorem Comes.returnsFrom_iff (h : T.Comes p m w u q m' w') :
    ReturnsFrom m w ↔ ReturnsFrom m' w' := by
  rw [ReturnsFrom, ReturnsFrom, h.rest]

theorem Comes.trans {m'' : Run α} {w'' : World} {r : Position} (h : T.Comes p m w u q m' w')
    (h' : T.Comes q m' w' v r m'' w'') : T.Comes p m w (u ++ v) r m'' w'' :=
  ⟨h.course.append h'.course, (walk_append_of_eq h.walk).trans h'.walk, h.rest.trans h'.rest⟩

theorem Comes.ends (h : T.Comes p m w u q m' w') (h' : T.Ends q m' w' S) : T.Ends p m w S := by
  obtain ⟨t, last, ht, hwalk, hS, hended⟩ := h'
  refine ⟨u ++ t, last, ?_, (walk_append_of_eq h.walk).trans hwalk, hS,
    hended.trans h.returnsFrom_iff.symm⟩
  rw [h.lastWorld]
  exact h.course.append ht

theorem comes_bind {a : α} (hm : m w = .ok a w') (hu : Course w u w')
    (hwalk : T.walk p u = some q) : T.Comes p (m >>= f) w u q (f a) w' :=
  ⟨hu, hwalk, bind_of_ok hm⟩

theorem ends_of_leads
    (h : T.Leads p m (fun _ q => q.ended = true ∧ S q.stage)
      (fun q => q.ended = false ∧ S q.stage)) (w : World) : T.Ends p m w S := by
  obtain ⟨t, q, ht, hwalk, hvalue, hbroken⟩ := h w
  cases hm : m w with
  | ok a w' =>
    obtain ⟨hended, hS⟩ := hvalue a w' hm
    exact ⟨t, q, ht, hwalk, hS, iff_of_true hended ⟨a, w', hm⟩⟩
  | error o w' =>
    obtain ⟨hended, hS⟩ := hbroken o w' hm
    refine ⟨t, q, ht, hwalk, hS, iff_of_false (by rw [hended]; decide) ?_⟩
    rintro ⟨a, w'', ha⟩
    rw [hm] at ha
    cases ha

/-- What breaks down before the end has begun has come to its end. -/
theorem ends_bind_of_error {o : Tuner.Overflow} (hm : m w = .error o w')
    (hu : Course w u w') (hwalk : T.walk p u = some q) (hended : q.ended = false)
    (hS : S q.stage) : T.Ends p (m >>= f) w S := by
  have hbroken : (m >>= f) w = .error o w' := bind_of_error hm
  refine ⟨u, q, ?_, hwalk, hS, iff_of_false (by rw [hended]; decide) ?_⟩
  · rw [Run.lastWorld, hbroken]
    exact hu
  · rintro ⟨a, w'', ha⟩
    rw [hbroken] at ha
    cases ha

theorem ends_bind (hm : T.Leads p m P B) (hf : ∀ a q, P a q → ∀ w, T.Ends q (f a) w S)
    (hB : ∀ q, B q → q.ended = false ∧ S q.stage) (w : World) : T.Ends p (m >>= f) w S := by
  obtain ⟨t, q, ht, hwalk, hvalue, hbroken⟩ := hm w
  cases hmw : m w with
  | ok a w' =>
    rw [lastWorld_of_ok hmw] at ht
    exact (comes_bind hmw ht hwalk).ends (hf a q (hvalue a w' hmw) w')
  | error o w' =>
    obtain ⟨hended, hS⟩ := hB q (hbroken o w' hmw)
    rw [lastWorld_of_error hmw] at ht
    exact ends_bind_of_error hmw ht hwalk hended hS

end Timetable

end Headend.Service
