import Headend.Proofs.Conduct

/-!
# The life of the process in its parts

A life is made of the stages up to the end of the engine and of what is left then: their error is
reported, everything is given back, and the status is told. What a life gives is up to the front-end
and the engine, but for two reports: that no source could be acquired, and that a generated file
could not be removed.

Facts: `start_eq`, `close_eq` and `finish_eq` (how a life falls into its parts), `gives_stages` and
`gives_giveBack` (what they give), `isOpen_stages` (nothing is given back by the stages),
`returns_giveBack` (giving back never breaks down), `reaches_start` (the end begins).
-/

namespace Headend.Service

open Headend.Config (Store)
open Headend.Host
open Headend.Host.Run
open Headend.Tuner (Frontend Source TuneError)

/-! ### The stages -/

theorem steady_offerLists (o : CommandLine.Options) (s : Store) (source : Source) (h : Holdings) :
    (offerLists o s source h).Gives Steady := by
  refine gives_bind (gives_mono (producing_createLists _ s) fun _ => steady_of_producing) ?_
  intro lists
  refine gives_bind (steady_reach ⟨trivial, rfl⟩) fun _ => gives_ite ?_ (gives_pure _)
  exact gives_bind (steady_log (by decide) _) fun _ => gives_pure _

theorem steady_equip (o : CommandLine.Options) (s : Store) (source : Source) (h : Holdings) :
    (equip o s source h).Gives Steady := by
  have hpid := gives_mono (producing_writePidFile s.options.pidFile) fun _ => steady_of_producing
  refine gives_ite (gives_bind hpid fun r => ?_) (steady_offerLists o s source h)
  cases r with
  | error e => exact gives_pure _
  | ok _ => exact steady_offerLists o s source _

theorem steady_keep (o : CommandLine.Options) (s : Store) (source : Source) :
    (keep o s source).Gives Steady := by
  refine gives_bind (steady_reach ⟨trivial, rfl⟩) fun _ => ?_
  refine gives_bind (gives_steady_of_routine routine_stopRequested) fun stop => ?_
  exact gives_ite (gives_pure _) (steady_equip o s source _)

theorem steady_giveUpTuning (e : TuneError) : (giveUpTuning e).Gives Steady := by
  refine gives_ite (gives_bind gives_isInterrupted fun stop => gives_ite ?_ ?_) (gives_pure _)
  · exact gives_bind (steady_log (by decide) _) fun _ => gives_pure _
  · exact gives_pure _

/-- The stages up to the end of the engine, with what they led to and what has to be given back. -/
def stages (o : CommandLine.Options) (f : Frontend) (e : Engine) :
    Run (Except StageError Unit × Holdings) := do
  let p ← prepare o f
  match p.result with
  | .error err => return (.error err, p.holdings)
  | .ok none => return (.ok (), p.holdings)
  | .ok (some handoff) => runEngine e handoff p.holdings

section

variable {P : List Event → Prop} [Additive P] (hsteady : ∀ t, Steady t → P t)
include hsteady

theorem gives_runEngine {e : Engine} (he : e.Gives P) (handoff : Handoff) (h : Holdings) :
    (runEngine e handoff h).Gives P := by
  refine gives_bind (gives_mono (steady_reach ⟨trivial, rfl⟩) hsteady) fun _ => ?_
  refine gives_bind (he handoff) fun r => ?_
  cases r with
  | error _ => exact gives_pure _
  | ok _ => exact gives_pure _

variable (hreport : ∀ (e : TuneError) (v : List Event), (∀ x ∈ v, x.IsForeign) →
  P (.log .acquisition (.error e.message) :: (v ++ [.reached (.failed .tuning)])))
include hreport

theorem gives_prepareWith {f : Frontend} (hf : f.Gives P) (o : CommandLine.Options) (s : Store) :
    (prepareWith o f s).Gives P := by
  have hplain : ∀ t, Plain t → P t := fun t ht => hsteady t (steady_of_plain ht)
  have hstop : stopRequested.Gives P :=
    gives_mono (gives_steady_of_routine routine_stopRequested) hsteady
  refine gives_bind (gives_mono (steady_reach ⟨trivial, rfl⟩) hsteady) fun _ => ?_
  refine gives_bind (gives_mono (plain_openLog s) hplain) fun _ => ?_
  refine gives_bind (gives_mono (steady_log (by decide) _) hsteady) fun _ => ?_
  refine gives_bind hstop fun stop => gives_ite (gives_pure _) ?_
  refine gives_bind (Tuner.gives_acquire hplain hreport hf s.tuning) fun a => ?_
  cases a.result with
  | error e => exact gives_mono (steady_giveUpTuning e) hsteady
  | ok source => exact gives_mono (steady_keep o s source) hsteady

/-- What the stages give is up to the front-end and the engine, but for the report of a failure to
acquire the source. -/
theorem gives_stages {f : Frontend} (hf : f.Gives P) {e : Engine} (he : e.Gives P)
    (o : CommandLine.Options) : (stages o f e).Gives P := by
  have hprepare : (prepare o f).Gives P := by
    refine gives_bind (gives_mono (gives_steady_of_routine (routine_load o)) hsteady) ?_
    rintro (err | s)
    · exact gives_pure _
    · exact gives_prepareWith hsteady hreport hf o s
  refine gives_bind hprepare fun p => ?_
  cases p.result with
  | error err => exact gives_pure _
  | ok handoff =>
    cases handoff with
    | none => exact gives_pure _
    | some handoff => exact gives_runEngine hsteady he handoff _

end

/-- What is left when the stages are over: their error is reported, and everything is given back. -/
def finish (result : Except StageError Unit) (h : Holdings) : Run Int := do
  if let .error err := result then
    report .startup (.error err.message) err.exitCode
  return (← close h).1

theorem start_eq (o : CommandLine.Options) (f : Frontend) (e : Engine) :
    start o f e = stages o f e >>= fun r => finish r.1 r.2 := by
  unfold start stages
  rw [bind_assoc]
  refine bind_congr fun p => ?_
  unfold conclude
  cases p.result with
  | error err => rfl
  | ok handoff =>
    cases handoff with
    | none => rfl
    | some handoff =>
      refine bind_congr fun r => ?_
      obtain ⟨result, h⟩ := r
      cases result <;> rfl

/-! ### Nothing has been given back before the end -/

theorem isOpen_offerLists (o : CommandLine.Options) (s : Store) (source : Source) {h : Holdings}
    (ho : h.status = none) :
    (offerLists o s source h).Yields fun p => p.holdings.status = none := by
  refine yields_after fun lists => yields_after fun _ => ?_
  refine yields_ite (yields_after fun _ => ?_) ?_ <;> exact yields_pure ho

theorem isOpen_keep (o : CommandLine.Options) (s : Store) (source : Source) :
    (keep o s source).Yields fun p => p.holdings.status = none := by
  refine yields_after fun _ => yields_after fun stop => ?_
  refine yields_ite (yields_pure rfl) (yields_ite (yields_after fun r => ?_) ?_)
  · cases r with
    | error e => exact yields_pure rfl
    | ok _ => exact isOpen_offerLists o s source rfl
  · exact isOpen_offerLists o s source rfl

theorem isOpen_prepare (o : CommandLine.Options) (f : Frontend) :
    (prepare o f).Yields fun p => p.holdings.status = none := by
  refine yields_after fun r => ?_
  cases r with
  | error e => exact yields_pure rfl
  | ok s =>
    refine yields_after fun _ => yields_after fun _ => ?_
    refine yields_after fun _ => yields_after fun stop => ?_
    refine yields_ite (yields_pure rfl) (yields_after fun a => ?_)
    cases a.result with
    | error e =>
      refine yields_ite (yields_after fun stop => yields_ite ?_ ?_) ?_
      · exact yields_after fun _ => yields_pure rfl
      · exact yields_pure rfl
      · exact yields_pure rfl
    | ok source => exact isOpen_keep o s source

theorem isOpen_stages (o : CommandLine.Options) (f : Frontend) (e : Engine) :
    (stages o f e).Yields fun r => r.2.status = none := by
  refine yields_bind (isOpen_prepare o f) fun p hp => ?_
  cases p.result with
  | error err => exact yields_pure hp
  | ok handoff =>
    cases handoff with
    | none => exact yields_pure hp
    | some handoff =>
      refine yields_after fun _ => yields_after fun r => ?_
      cases r with
      | error _ => exact yields_pure hp
      | ok _ => exact yields_pure hp

/-! ### Giving back -/

/-- Everything is given back. -/
def giveBack (h : Holdings) : Run Unit := do
  reach .closing
  joinWorkers h.workers
  if let some s := h.source then reach (.closed s.path)
  removeAll h.removals

/-- The status is told, and nothing is left to be given back. -/
def takeLeave : Run (Int × Holdings) := do
  let cause ← interrupted
  log .shutdown (farewell cause)
  return (exitStatus cause, { status := some (exitStatus cause) })

theorem close_eq {h : Holdings} (ho : h.status = none) :
    close h = giveBack h >>= fun _ => takeLeave := by
  unfold close giveBack
  simp only [ho, bind_assoc]
  cases h.source <;> rfl

/-- The steps of a removal that fails: it is reported, unless the file is gone already. -/
theorem removeGenerated_eq (path : String) :
    removeGenerated path = removeFile path >>= fun r =>
      match r with
      | .ok () => pure ()
      | .error e =>
        if e = .missing then pure ()
        else report .shutdown (.error s!"{path}: {e.message}") .removeFile := by
  refine bind_congr fun r => ?_
  cases r with
  | ok _ => rfl
  | error e => cases e <;> rfl

section

variable {P : List Event → Prop} [Additive P] (hsteady : ∀ t, Steady t → P t)
include hsteady

section

variable (hremoval : ∀ (path : String) (e : Failure) (r : Record) (u v : List Event),
  e ≠ .missing → (∀ x ∈ u, x.IsForeign) → (∀ x ∈ v, x.IsForeign) →
    P (.reached (.notRemoved path e) ::
      (u ++ .log .shutdown r :: (v ++ [.reached (.failed .removeFile)]))))
include hremoval

theorem gives_removeGenerated (path : String) : (removeGenerated path).Gives P := by
  intro w
  have hsingle : ∀ {u : List Event} {x : Event}, (∀ y ∈ u, y.IsForeign) → x.IsSteady →
      P (u ++ [x]) := fun hu hx =>
    Additive.append _ _ (Additive.foreign _ hu) (hsteady _ (steady_singleton hx))
  rw [removeGenerated_eq]
  obtain ⟨u, mid, hu, ⟨id, hmid, hcourse⟩ | ⟨e, hmid, hcourse⟩⟩ := removeFile_course path w
  · rw [lastWorld_bind_of_ok hmid]
    exact ⟨_, hcourse, hsingle hu ⟨trivial, rfl⟩⟩
  · rw [lastWorld_bind_of_ok hmid]
    dsimp only
    split
    · rename_i hmissing
      exact ⟨_, hcourse, hsingle hu ⟨trivial, if_pos hmissing⟩⟩
    · rename_i hmissing
      obtain ⟨v, v', w', hreport, hv, hv', hreported⟩ := course_report .shutdown
        (.error s!"{path}: {e.message}") .removeFile mid
      rw [lastWorld_of_ok hreport]
      refine ⟨_, hcourse.append hreported, ?_⟩
      rw [List.append_assoc]
      exact Additive.append u _ (Additive.foreign u hu) (hremoval path e _ v v' hmissing hv hv')

theorem gives_removeAll (paths : List String) : (removeAll paths).Gives P := by
  induction paths with
  | nil => exact gives_pure _
  | cons path rest ih => exact gives_bind (gives_removeGenerated hsteady hremoval path) fun _ => ih

theorem gives_giveBack (h : Holdings) : (giveBack h).Gives P := by
  have hreach : ∀ {x : Milestone}, (Event.reached x).IsSteady → (reach x).Gives P := fun hx =>
    gives_reach hx.isInert (hsteady _ (steady_singleton hx))
  refine gives_bind (hreach ⟨trivial, rfl⟩) fun _ => ?_
  refine gives_bind (gives_mono (gives_steady_of_routine (routine_joinWorkers _)) hsteady) ?_
  intro _
  cases h.source with
  | none => exact gives_removeAll hsteady hremoval _
  | some s =>
    exact gives_bind (hreach ⟨trivial, rfl⟩) fun _ => gives_removeAll hsteady hremoval _

end

theorem gives_takeLeave : takeLeave.Gives P :=
  gives_bind (gives_look _) fun _ =>
    gives_bind (gives_log (hsteady _ (steady_singleton ⟨trivial, rfl⟩))) fun _ => gives_pure _

end

/-- If the stages led to an error, it is reported. -/
def announce : Except StageError Unit → Run Unit
  | .error err => report .startup (.error err.message) err.exitCode
  | .ok _ => pure ()

/-- The steps that are left when the stages are over. -/
theorem finish_eq (result : Except StageError Unit) {h : Holdings} (ho : h.status = none) :
    finish result h = announce result >>= fun _ => giveBack h >>= fun _ =>
      takeLeave >>= fun r => pure r.1 := by
  unfold finish announce
  cases result with
  | error err => simp only [close_eq ho, bind_assoc]
  | ok _ => simp only [close_eq ho, bind_assoc, pure_bind]

/-! ### Giving back never breaks down -/

theorem returns_joinWorkers (ws : List Worker) : (joinWorkers ws).Returns := by
  induction ws with
  | nil => exact returns_pure _
  | cons worker rest ih =>
    refine returns_bind (returns_bind (returns_waitFor _) fun _ => ?_) fun _ => ih
    refine returns_bind (returns_reach _) fun _ => ?_
    split
    · exact returns_log _ _
    · exact returns_pure _

theorem returns_removeAll (paths : List String) : (removeAll paths).Returns := by
  induction paths with
  | nil => exact returns_pure ()
  | cons path rest ih =>
    refine returns_bind ?_ fun _ => ih
    rw [removeGenerated_eq]
    refine returns_bind (returns_step _) fun r => ?_
    cases r with
    | ok _ => exact returns_pure ()
    | error e =>
      dsimp only
      split
      · exact returns_pure ()
      · exact returns_report _ _ _

theorem returns_giveBack (h : Holdings) : (giveBack h).Returns := by
  refine returns_bind (returns_reach _) fun _ => returns_bind (returns_joinWorkers _) fun _ => ?_
  cases h.source with
  | none => exact returns_removeAll _
  | some s => exact returns_bind (returns_reach _) fun _ => returns_removeAll _

/-! ### The end begins -/

theorem anyEvents_removeAll (paths : List String) : (removeAll paths).Gives AnyEvents :=
  gives_removeAll (P := AnyEvents) (fun _ _ => trivial) (fun _ _ _ _ _ _ _ _ => trivial) paths

theorem reaches_giveBack (h : Holdings) : (giveBack h).Reaches (.reached .closing) := by
  refine reaches_before (reaches_emit trivial) fun _ => ?_
  refine gives_bind (anyEvents_of_gives (routine_joinWorkers h.workers)) fun _ => ?_
  cases h.source with
  | none => exact anyEvents_removeAll _
  | some s => exact gives_bind (gives_reach trivial trivial) fun _ => anyEvents_removeAll _

theorem anyEvents_takeLeave : takeLeave.Gives AnyEvents :=
  gives_takeLeave (P := AnyEvents) fun _ _ => trivial

theorem anyEvents_announce (result : Except StageError Unit) :
    (announce result).Gives AnyEvents := by
  cases result with
  | error err => exact gives_report fun _ _ => trivial
  | ok _ => exact gives_pure _

theorem reaches_finish (result : Except StageError Unit) {h : Holdings} (ho : h.status = none) :
    (finish result h).Reaches (.reached .closing) := by
  rw [finish_eq result ho]
  refine reaches_after (anyEvents_announce result) (fun _ _ _ _ => trivial) fun _ (_ : True) => ?_
  refine reaches_before (reaches_giveBack h) fun _ => ?_
  exact gives_bind anyEvents_takeLeave fun _ => gives_pure _

/-- In every life that does not break down, the end begins. -/
theorem reaches_start {f : Frontend} (hf : f.Gives AnyEvents) {e : Engine} (he : e.Gives AnyEvents)
    (o : CommandLine.Options) : (start o f e).Reaches (.reached .closing) := by
  rw [start_eq]
  have hstages : (stages o f e).Gives AnyEvents :=
    gives_stages (P := AnyEvents) (fun _ _ => trivial) (fun _ _ _ => trivial) hf he o
  exact reaches_after hstages (isOpen_stages o f e) fun r hr => reaches_finish r.1 hr

end Headend.Service
