import Headend.Proofs.StageOrder

/-!
# Open sources

Which sources are open can be told from the events: one is open from the moment in which it is
opened until it is closed. Acquiring a source leaves the one open that it leads to, and none if it
fails. Only the front-end can break it down, and those of the host do so only where the arithmetic
of the parameters does not fit.

Facts: `openAfter_of_unopened` and `openAfter_of_closed` (when nothing is open any more),
`Run.holdsOpen_bind` and `Run.breaksBy_bind` (how programs are put together),
`Tuner.holdsOpen_acquire` and `Tuner.breaksBy_acquire` (acquiring a source), `Tuner.breaks_hardware`
(the front-ends of the host).
-/

namespace Headend.Host

/-- The sources that are open after an event. -/
def Event.keepTrack (held : List String) : Event → List String
  | reached (.opened path) => path :: held
  | reached (.closed path) => held.erase path
  | _ => held

/-- The sources that are open after events. -/
def openAfter (held : List String) (t : List Event) : List String := t.foldl Event.keepTrack held

/-- Whether nothing is opened or closed by events. -/
def Untracked (t : List Event) : Prop := ∀ x ∈ t, ∀ held, Event.keepTrack held x = held

theorem untracked_of_unstaged {t : List Event} (h : Unstaged t) : Untracked t := by
  intro x hx held
  have hstaged := h x hx
  unfold Event.keepTrack
  split
  · cases hstaged
  · cases hstaged
  · rfl

instance : Additive Untracked where
  foreign t h := untracked_of_unstaged (Additive.foreign t h)
  append _ _ hs ht := List.forall_mem_append.2 ⟨hs, ht⟩

section

variable {held : List String} {s t : List Event}

theorem openAfter_append : openAfter held (s ++ t) = openAfter (openAfter held s) t :=
  List.foldl_append

theorem openAfter_of_untracked (h : Untracked t) : openAfter held t = held := by
  induction t with
  | nil => rfl
  | cons x rest ih =>
    obtain ⟨hx, hrest⟩ := List.forall_mem_cons.1 h
    rw [openAfter, List.foldl_cons, hx held]
    exact ih hrest

/-- If nothing is opened, no more is open than before. -/
theorem openAfter_sublist (h : ∀ path, .reached (.opened path) ∉ t) :
    (openAfter held t).Sublist held := by
  induction t generalizing held with
  | nil => exact List.Sublist.refl held
  | cons x rest ih =>
    have hfirst : (Event.keepTrack held x).Sublist held := by
      unfold Event.keepTrack
      split
      · rename_i path
        exact absurd List.mem_cons_self (h path)
      · exact List.erase_sublist
      · exact List.Sublist.refl held
    exact (ih fun path hmem => h path (List.mem_cons_of_mem _ hmem)).trans hfirst

/-- What was not open before and is not opened is not open. -/
theorem openAfter_of_unopened (h : ∀ path, .reached (.opened path) ∉ t) : openAfter [] t = [] :=
  List.sublist_nil.1 (openAfter_sublist h)

/-- If one source is open and it is closed, none is open any more. -/
theorem openAfter_of_closed {path : String} (h : ∀ path, .reached (.opened path) ∉ t)
    (hclosed : .reached (.closed path) ∈ t) : openAfter [path] t = [] := by
  obtain ⟨u, v, rfl⟩ := List.mem_iff_append.1 hclosed
  have hbefore : (openAfter [path] u).Sublist [path] :=
    openAfter_sublist fun path' hmem => h path' (List.mem_append_left _ hmem)
  have hnone : (openAfter [path] u).erase path = [] := by
    have hless := hbefore.erase path
    rw [List.erase_cons_head] at hless
    exact List.sublist_nil.1 hless
  rw [openAfter_append]
  change openAfter ((openAfter [path] u).erase path) v = []
  rw [hnone]
  exact openAfter_of_unopened fun path' hmem =>
    h path' (List.mem_append_right _ (List.mem_cons_of_mem _ hmem))

end

namespace Run

/-! ### What a part of a run leaves open -/

/-- Whenever a part of a run ends with a value, the value tells which sources are open. -/
def HoldsOpen (m : Run α) (held : List String) (kept : α → List String) : Prop :=
  ∀ w a w', m w = .ok a w' → ∃ t, Course w t w' ∧ openAfter held t = kept a

section

variable {m : Run α} {f : α → Run β} {held : List String} {kept : α → List String}
  {kept' : β → List String}

theorem holdsOpen_pure {a : α} (h : kept a = held) : (pure a : Run α).HoldsOpen held kept := by
  rintro w _ _ ⟨⟩
  exact ⟨[], .nil w, h.symm⟩

theorem holdsOpen_bind (hm : m.HoldsOpen held kept) (hf : ∀ a, (f a).HoldsOpen (kept a) kept') :
    (m >>= f).HoldsOpen held kept' := by
  intro w b w' h
  obtain ⟨a, mid, ha, hb⟩ := bind_ok h
  obtain ⟨s, hs, hheld⟩ := hm w a mid ha
  obtain ⟨t, ht, hkept⟩ := hf a mid b w' hb
  exact ⟨s ++ t, hs.append ht, by rw [openAfter_append, hheld, hkept]⟩

theorem holdsOpen_after (hm : m.Gives Untracked) (hf : ∀ a, (f a).HoldsOpen held kept') :
    (m >>= f).HoldsOpen held kept' := by
  have hsame : m.HoldsOpen held fun _ => held := by
    intro w a w' h
    obtain ⟨t, ht, huntracked⟩ := hm.ok h
    exact ⟨t, ht, openAfter_of_untracked huntracked⟩
  exact holdsOpen_bind hsame hf

theorem holdsOpen_reach {x : Milestone} {f : Unit → Run β} (hx : (Event.reached x).IsInert)
    (hf : (f ()).HoldsOpen (Event.keepTrack held (.reached x)) kept') :
    (reach x >>= f).HoldsOpen held kept' := by
  have htracked : (reach x).HoldsOpen held fun _ => Event.keepTrack held (.reached x) := by
    rintro w _ _ ⟨⟩
    obtain ⟨u, hu, hforeign⟩ := course_advance w
    refine ⟨_, hu.append (Move.course (.event w.advance hx)), ?_⟩
    rw [openAfter_append, openAfter_of_untracked (Additive.foreign u hforeign)]
    rfl
  exact holdsOpen_bind htracked fun _ => hf

theorem holdsOpen_ite {c : Prop} [Decidable c] {m' : Run α} (h : m.HoldsOpen held kept)
    (h' : m'.HoldsOpen held kept) : (if c then m else m').HoldsOpen held kept := by
  split
  · exact h
  · exact h'

end

/-! ### Where a part of a run breaks down -/

/-- How a part of a run breaks down, if it does. -/
def BreaksBy (m : Run α) (B : Tuner.Overflow → World → Prop) : Prop :=
  ∀ w b w', m w = .error b w' → B b w'

section

variable {m : Run α} {f : α → Run β} {B : Tuner.Overflow → World → Prop}

theorem breaksBy_of_returns (hm : m.Returns) : m.BreaksBy B := by
  intro w b w' h
  obtain ⟨a, w'', ha⟩ := hm w
  rw [ha] at h
  cases h

theorem breaksBy_arithmetic (r : Except Tuner.Overflow α) :
    (arithmetic r).BreaksBy fun b _ => r = .error b := by
  cases r with
  | ok a => exact breaksBy_of_returns (returns_pure a)
  | error o =>
    rintro w _ _ ⟨⟩
    rfl

theorem breaksBy_bind (hm : m.BreaksBy B) (hf : ∀ a, (f a).BreaksBy B) : (m >>= f).BreaksBy B := by
  intro w b w' h
  cases hmw : m w with
  | ok a mid =>
    rw [bind_of_ok hmw] at h
    exact hf a mid b w' h
  | error o mid =>
    rw [bind_of_error hmw] at h
    cases h
    exact hm w b w' hmw

/-- What does not break down may come first. -/
theorem breaksBy_after (hm : m.Returns) (hf : ∀ a, (f a).BreaksBy B) : (m >>= f).BreaksBy B :=
  breaksBy_bind (breaksBy_of_returns hm) hf

theorem breaksBy_ite {c : Prop} [Decidable c] {m' : Run α} (h : m.BreaksBy B)
    (h' : m'.BreaksBy B) : (if c then m else m').BreaksBy B := by
  split
  · exact h
  · exact h'

end

end Run

end Headend.Host

namespace Headend.Tuner

open Headend.Config (Tuning)
open Headend.Host
open Headend.Host.Run

/-! ### Acquiring a source -/

/-- The sources that are open when the steps have ended. -/
def Acquired.held (a : Acquired) : List String :=
  match a.result with
  | .ok source => [source.path]
  | .error _ => []

theorem untracked_acquisitionInfo (text : String) :
    (log .acquisition (.info text)).Gives Untracked :=
  gives_log (List.forall_mem_singleton.2 fun _ => rfl)

theorem holdsOpen_giveUp (e : TuneError) : (giveUp e).HoldsOpen [] Acquired.held := by
  have hreport := gives_mono (Service.unstaged_report .acquisition (.error e.message) .tuning)
    fun _ => untracked_of_unstaged
  rw [giveUp_eq]
  exact holdsOpen_after hreport fun _ => holdsOpen_pure rfl

theorem holdsOpen_succeed (source : Source) :
    (succeed source).HoldsOpen [source.path] Acquired.held :=
  holdsOpen_after gives_setTuned fun _ => holdsOpen_pure rfl

theorem holdsOpen_acquireRecording (path : String) :
    (acquireRecording path).HoldsOpen [] Acquired.held := by
  refine holdsOpen_after (gives_look _) fun r => ?_
  cases r with
  | error e => exact holdsOpen_giveUp _
  | ok _ =>
    refine holdsOpen_reach trivial ?_
    exact holdsOpen_after (untracked_acquisitionInfo _) fun _ => holdsOpen_succeed (.recording path)

section

variable {f : Frontend} (hf : f.Gives Unstaged) (t : Tuning)
include hf

theorem holdsOpen_acquireDevice (d : OpenDevice) :
    (acquireDevice f t d).HoldsOpen [d.path] Acquired.held := by
  have harm : (arm t.tuningTimeout).Gives Untracked :=
    gives_arm (List.forall_mem_singleton.2 fun _ => rfl)
  have htune := gives_mono (hf.tune d t) fun _ => untracked_of_unstaged
  refine holdsOpen_ite (holdsOpen_after harm fun _ => ?_) ?_
  all_goals
    refine holdsOpen_after htune fun r => ?_
    cases r with
    | error e =>
      refine holdsOpen_reach trivial ?_
      rw [Event.keepTrack, List.erase_cons_head]
      exact holdsOpen_giveUp e
    | ok _ =>
      exact holdsOpen_after (untracked_acquisitionInfo _) fun _ => holdsOpen_succeed (.device d)

/-- Acquiring a source leaves the one open that it leads to, and none if it leads to none. -/
theorem holdsOpen_acquire : (acquire f t).HoldsOpen [] Acquired.held := by
  have hopen := fun directory tuner =>
    gives_mono (hf.openDevice directory tuner) fun _ => untracked_of_unstaged
  unfold acquire
  split
  · exact holdsOpen_acquireRecording _
  · refine holdsOpen_after (hopen _ _) fun r => ?_
    cases r with
    | error e => exact holdsOpen_giveUp e
    | ok d =>
      refine holdsOpen_reach trivial (holdsOpen_after gives_isInterrupted fun stop => ?_)
      refine holdsOpen_ite ?_ (holdsOpen_acquireDevice hf t d)
      refine holdsOpen_after (untracked_acquisitionInfo _) fun _ => holdsOpen_reach trivial ?_
      rw [Event.keepTrack, Event.keepTrack, List.erase_cons_head]
      exact holdsOpen_pure rfl

end

/-! ### Breaking down -/

/-- Whether a front-end breaks down in a world while it is opened or tuned. -/
def Frontend.Breaks (f : Frontend) (t : Tuning) (b : Overflow) (w' : World) : Prop :=
  ∃ w, f.openDevice t.cardDevPath t.tuner w = .error b w' ∨ ∃ d, f.tune d t w = .error b w'

theorem returns_giveUp (e : TuneError) : (giveUp e).Returns := by
  rw [giveUp_eq]
  exact returns_bind (returns_report _ _ _) fun _ => returns_pure _

theorem returns_succeed (source : Source) : (succeed source).Returns :=
  returns_bind (returns_change _) fun _ => returns_pure _

theorem returns_acquireRecording (path : String) : (acquireRecording path).Returns := by
  refine returns_bind (returns_look _) fun r => ?_
  cases r with
  | error e => exact returns_giveUp _
  | ok _ =>
    exact returns_bind (returns_reach _) fun _ => returns_bind (returns_log _ _) fun _ =>
      returns_succeed _

section

variable (f : Frontend) (t : Tuning)

theorem breaksBy_acquireDevice (d : OpenDevice) : (acquireDevice f t d).BreaksBy (f.Breaks t) := by
  have htune : (f.tune d t).BreaksBy (f.Breaks t) := fun w _ _ h => ⟨w, .inr ⟨d, h⟩⟩
  refine breaksBy_ite (breaksBy_after (returns_change _) fun _ => ?_) ?_
  all_goals
    refine breaksBy_bind htune fun r => breaksBy_of_returns ?_
    cases r with
    | error e => exact returns_bind (returns_reach _) fun _ => returns_giveUp e
    | ok _ => exact returns_bind (returns_log _ _) fun _ => returns_succeed _

/-- Only the front-end can break down the steps to a source. -/
theorem breaksBy_acquire : (acquire f t).BreaksBy (f.Breaks t) := by
  unfold acquire
  split
  · exact breaksBy_of_returns (returns_acquireRecording _)
  · refine breaksBy_bind (fun w _ _ h => ⟨w, .inl h⟩) fun r => ?_
    cases r with
    | error e => exact breaksBy_of_returns (returns_giveUp e)
    | ok d =>
      refine breaksBy_after (returns_reach _) fun _ => ?_
      refine breaksBy_after (returns_look _) fun stop => ?_
      refine breaksBy_ite (breaksBy_of_returns ?_) (breaksBy_acquireDevice f t d)
      exact returns_bind (returns_log _ _) fun _ => returns_bind (returns_reach _) fun _ =>
        returns_pure _

end

/-! ### The front-ends of the host -/

theorem returns_openDevice (directory : String) (tuner : UInt32) :
    (openDevice directory tuner).Returns := by
  refine returns_bind (returns_look _) fun r => ?_
  cases r with
  | error e => exact returns_pure _
  | ok d => exact returns_bind (returns_log _ _) fun _ => returns_pure _

theorem returns_granted {d : OpenDevice} {r : Request} {e : Event}
    {next : Run (Except TuneError Unit)} (h : next.Returns) :
    (request d r e >>= fun answer => whenGranted answer next).Returns := by
  refine returns_bind (returns_step _) fun answer => ?_
  cases answer with
  | ok _ => exact h
  | error e => exact returns_pure _

theorem returns_setUpConverter (d : OpenDevice) (t : Tuning) : (setUpConverter d t).Returns := by
  have hsleep : (sleep settlingTime).Returns := returns_change _
  unfold setUpConverter
  split
  · exact returns_pure _
  · refine returns_granted (returns_granted (returns_bind hsleep fun _ => ?_))
    split
    · exact returns_granted (returns_bind hsleep fun _ => returns_granted (returns_pure _))
    · exact returns_granted (returns_pure _)

theorem returns_awaitLock (d : OpenDevice) (rounds : Nat) : (awaitLock d rounds).Returns := by
  induction rounds with
  | zero => exact returns_pure _
  | succ rounds ih =>
    refine returns_bind (returns_look _) fun stop => ?_
    cases stop with
    | true => exact returns_pure _
    | false =>
      refine returns_bind (returns_step _) fun status => ?_
      cases status with
      | error e => exact returns_pure _
      | ok status =>
        dsimp only
        split
        · exact returns_bind (returns_log _ _) fun _ => returns_pure _
        · exact returns_bind (returns_change _) fun _ => ih

theorem returns_program (d : OpenDevice) (p : Parameters) : (program d p).Returns := by
  have hlength : agendaLength.Returns := fun w => ⟨_, w, rfl⟩
  exact returns_granted (returns_bind hlength fun n => returns_awaitLock d (n + 2))

/-- Tuning breaks down only while the parameters are computed. -/
theorem breaksBy_tune (d : OpenDevice) (t : Tuning) :
    (tune d t).BreaksBy fun b _ => parameters t d.type = .error b := by
  refine breaksBy_bind (breaksBy_arithmetic _) fun p => breaksBy_of_returns ?_
  cases p with
  | error e => exact returns_pure _
  | ok p =>
    dsimp only
    split
    · refine returns_bind (returns_setUpConverter d t) fun r => ?_
      cases r with
      | error e => exact returns_pure _
      | ok _ => exact returns_program d p
    · exact returns_program d p

theorem breaks_hardware {t : Tuning} {b : Overflow} {w' : World}
    (h : Frontend.hardware.Breaks t b w') : ∃ type, parameters t type = .error b := by
  obtain ⟨w, hopen | ⟨d, htune⟩⟩ := h
  · exact breaksBy_of_returns (B := fun b _ => ∃ type, parameters t type = .error b)
      (returns_openDevice _ _) w b w' hopen
  · exact ⟨d.type, breaksBy_tune d t w b w' htune⟩

end Headend.Tuner
