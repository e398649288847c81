import Headend.Proofs.FileMarks

/-!
# What becomes of the generated files

The process creates files when it starts and when it is asked to write its lists again, and it
removes files at the end. It tries to remove exactly those paths at which it has written a file in
full before the engine started. So a file outlives the process, though nobody tried to remove it, if
it was created but not completed at the start, or if it could only be created later.

Facts: `marks_prepare` (what is held at the end of the start was written in full), `marks_close`
(the end tries each path that is held, in order), `marks_start` (the marks of a whole run),
`filesReturned_iff` (when no file is left).
-/

namespace Headend.Host

namespace Milestone

/-- Whether a milestone tells that a file has been created or written. -/
def IsWriting : Milestone → Prop
  | created .. | completed _ => True
  | _ => False

/-- The path of a file that holds all that it should. -/
def completed? : Milestone → Option String
  | completed path => some path
  | _ => none

/-- The path at which the process tried to remove a file. -/
def attempt? : Milestone → Option String
  | removed path _ | notRemoved path _ => some path
  | _ => none

theorem mem_of_attempt? {x : Milestone} {path : String} (h : x.attempt? = some path) :
    (∃ id, x = .removed path id) ∨ ∃ e, x = .notRemoved path e := by
  cases x <;> cases h
  · exact .inl ⟨_, rfl⟩
  · exact .inr ⟨_, rfl⟩

end Milestone

/-- The paths of the files that hold all that they should. -/
def completedPaths (ms : List Milestone) : List String := ms.filterMap Milestone.completed?

theorem completedPaths_append (ms ms' : List Milestone) :
    completedPaths (ms ++ ms') = completedPaths ms ++ completedPaths ms' :=
  List.filterMap_append

/-- Marks of writing files, of which those at some paths came to their end. -/
structure Writes (paths : List String) (ms : List Milestone) : Prop where
  writing : ∀ x ∈ ms, x.IsWriting
  completed : completedPaths ms = paths

theorem Writes.nil : Writes [] [] := ⟨List.forall_mem_nil _, rfl⟩

theorem Writes.append {paths paths' : List String} {ms ms' : List Milestone}
    (h : Writes paths ms) (h' : Writes paths' ms') : Writes (paths ++ paths') (ms ++ ms') := by
  refine ⟨List.forall_mem_append.2 ⟨h.writing, h'.writing⟩, ?_⟩
  rw [completedPaths_append, h.completed, h'.completed]

end Headend.Host

namespace Headend.Service

open Headend.Config
open Headend.Host
open Headend.Host.Run
open Headend.Tuner (Frontend Source TuneError)

/-! ### Writing files -/

/-- The path of a file, if it could be written. -/
def writtenPath (path : String) (r : Except Failure Unit) : List String :=
  if r.isOk then [path] else []

theorem quiet_writeLines (id : FileId) (lines : List String) : (writeLines id lines).Quiet := by
  induction lines with
  | nil => exact quiet_pure _
  | cons line rest ih =>
    refine quiet_bind (quiet_writeText id line) fun r => ?_
    cases r with
    | error e => exact quiet_pure _
    | ok _ => exact ih

theorem marks_createFile (path : String) :
    (createFile path).Marks fun r ms =>
      (∃ id, r = .ok id ∧ ms = [.created path id]) ∨ (∃ e, r = .error e) ∧ ms = [] := by
  refine leaves_createFile (fun id u hu => .inl ⟨id, rfl, ?_⟩) fun e u hu => .inr ⟨⟨e, rfl⟩, ?_⟩
  · exact marks_foreign_append hu
  · exact marks_of_foreign hu

theorem marks_writeList (path : String) (lines : List String) :
    (writeList path lines).Marks fun r ms => Writes (writtenPath path r) ms := by
  refine marks_bind (marks_createFile path) ?_
  rintro _ ms (⟨id, rfl, rfl⟩ | ⟨⟨e, rfl⟩, rfl⟩)
  · have hcreated : Writes [] [.created path id] :=
      ⟨List.forall_mem_singleton.2 trivial, rfl⟩
    refine marks_bind_quiet (quiet_writeLines id lines) fun r => ?_
    cases r with
    | error e => exact marks_pure (hcreated.append .nil)
    | ok _ =>
      refine marks_bind (marks_reach (P := fun _ ms => ms = [.completed path]) ?_ rfl) ?_
      · exact fun _ _ h => by cases h
      · rintro _ ms rfl
        have hwriting : ∀ x ∈ [Milestone.created path id, .completed path], x.IsWriting :=
          List.forall_mem_cons.2 ⟨trivial, List.forall_mem_singleton.2 trivial⟩
        exact marks_pure ⟨hwriting, rfl⟩
  · exact marks_pure Writes.nil

theorem marks_settle (path : String) (created : List String) (r : Except Failure Unit) :
    (settle path created r).Marks fun created' ms =>
      created' = created ++ writtenPath path r ∧ ms = [] := by
  cases r with
  | ok _ => exact marks_pure ⟨rfl, rfl⟩
  | error e =>
    refine marks_bind_quiet (quiet_log _ _) fun _ => marks_pure ⟨?_, rfl⟩
    exact (List.append_nil created).symm

theorem marks_createLists (paths : ListPaths) (s : Store) :
    (createLists paths s).Marks fun lists ms => Writes lists.created ms := by
  refine marks_bind (marks_writeList paths.streamed _) fun streamed ms hs => ?_
  refine marks_bind (marks_writeList paths.notStreamed _) fun notStreamed ms' hn => ?_
  refine marks_bind (marks_settle paths.streamed [] streamed) ?_
  rintro _ _ ⟨rfl, rfl⟩
  refine marks_bind (marks_settle paths.notStreamed _ notStreamed) ?_
  rintro _ _ ⟨rfl, rfl⟩
  have hboth := hs.append hn
  dsimp only
  split
  · exact marks_pure (by simpa using hboth)
  · rename_i path _
    refine marks_bind (marks_writeList path []) fun cam ms'' hc => ?_
    refine marks_bind (marks_settle path _ cam) ?_
    rintro _ _ ⟨rfl, rfl⟩
    exact marks_pure (by simpa using hboth.append hc)

theorem marks_writePidFile (path : String) :
    (writePidFile path).Marks fun r ms => Writes (writtenPath path r) ms :=
  marks_bind_quiet (quiet_look _) fun _ => marks_writeList path _

/-! ### The stages before the engine -/

/-- What is held has not been given back, and its files are those that the marks complete. -/
structure Stocked (h : Holdings) (ms : List Milestone) : Prop where
  isOpen : h.status = none
  writing : ∀ x ∈ ms, x.IsWriting
  completed : (completedPaths ms).Perm h.removals

theorem stocked_nil {h : Holdings} (ho : h.status = none) (hr : h.removals = []) :
    Stocked h [] :=
  ⟨ho, List.forall_mem_nil _, by rw [hr]; exact List.Perm.refl []⟩

theorem marks_offerLists (o : CommandLine.Options) (s : Store) (source : Source) (h : Holdings) :
    (offerLists o s source h).Marks fun p ms =>
      ∃ paths, Writes paths ms ∧ p.holdings = h.keepFiles paths := by
  refine marks_bind (marks_createLists _ s) fun lists ms hms => ?_
  have hdone : ∀ p : Prepared, p.holdings = h.keepFiles lists.created →
      (pure p : Run Prepared).Marks fun p ms' =>
        ∃ paths, Writes paths (ms ++ ms') ∧ p.holdings = h.keepFiles paths := fun p hp =>
    marks_pure ⟨lists.created, by rw [List.append_nil]; exact hms, hp⟩
  refine marks_bind_quiet (quiet_reach rfl) fun _ => ?_
  dsimp only
  split
  · exact marks_bind_quiet (quiet_log _ _) fun _ => hdone _ rfl
  · exact hdone _ rfl

theorem marks_equip (o : CommandLine.Options) (s : Store) (source : Source) :
    (equip o s source (.keepSource {} source)).Marks fun p ms => Stocked p.holdings ms := by
  have hlists : ∀ h : Holdings, h.status = none → h.files = [] →
      (offerLists o s source h).Marks fun p ms => p.holdings.status = none ∧
        (∀ x ∈ ms, x.IsWriting) ∧
        (h.pidFile.toList ++ completedPaths ms).Perm p.holdings.removals := fun h ho hf =>
    marks_mono (marks_offerLists o s source h) fun p ms hp => by
      obtain ⟨paths, hw, hp⟩ := hp
      refine ⟨by rw [hp]; exact ho, hw.writing, ?_⟩
      rw [hw.completed, hp, Holdings.removals, Holdings.keepFiles, hf, List.nil_append]
      exact List.perm_append_comm
  unfold equip
  split
  · refine marks_bind (marks_writePidFile _) fun r ms hms => ?_
    cases r with
    | error e =>
      refine marks_pure ⟨rfl, ?_, ?_⟩
      · rw [List.append_nil]
        exact hms.writing
      · rw [List.append_nil, hms.completed]
        exact List.Perm.refl []
    | ok _ =>
      refine marks_mono (hlists (.keepPidFile (.keepSource {} source) _) rfl rfl) ?_
      rintro p ms' ⟨ho, hw, hperm⟩
      refine ⟨ho, List.forall_mem_append.2 ⟨hms.writing, hw⟩, ?_⟩
      rw [completedPaths_append, hms.completed]
      exact hperm
  · refine marks_mono (hlists (.keepSource {} source) rfl rfl) ?_
    rintro p ms ⟨ho, hw, hperm⟩
    exact ⟨ho, hw, hperm⟩

theorem marks_keep (o : CommandLine.Options) (s : Store) (source : Source) :
    (keep o s source).Marks fun p ms => Stocked p.holdings ms := by
  refine marks_bind_quiet (quiet_reach rfl) fun _ => ?_
  refine marks_bind_quiet quiet_stopRequested fun stop => ?_
  cases stop with
  | true => exact marks_pure (stocked_nil rfl rfl)
  | false => exact marks_equip o s source

theorem marks_giveUpTuning (e : TuneError) :
    (giveUpTuning e).Marks fun p ms => Stocked p.holdings ms := by
  have hnothing : ∀ result, (pure ⟨result, {}⟩ : Run Prepared).Marks fun p ms =>
      Stocked p.holdings ms := fun result => marks_pure (stocked_nil rfl rfl)
  unfold giveUpTuning
  split
  · refine marks_bind_quiet quiet_isInterrupted fun stop => ?_
    cases stop with
    | true => exact marks_bind_quiet (quiet_log _ _) fun _ => hnothing _
    | false => exact hnothing _
  · exact hnothing _

theorem marks_prepareWith {f : Frontend} (hf : f.Quiet) (o : CommandLine.Options) (s : Store) :
    (prepareWith o f s).Marks fun p ms => Stocked p.holdings ms := by
  refine marks_bind_quiet (quiet_reach rfl) fun _ => ?_
  refine marks_bind_quiet (quiet_openLog s) fun _ => ?_
  refine marks_bind_quiet (quiet_log _ _) fun _ => ?_
  refine marks_bind_quiet quiet_stopRequested fun stop => ?_
  cases stop with
  | true => exact marks_pure (stocked_nil rfl rfl)
  | false =>
    refine marks_bind_quiet (Tuner.quiet_acquire hf s.tuning) fun acquired => ?_
    cases acquired.result with
    | error e => exact marks_giveUpTuning e
    | ok source => exact marks_keep o s source

/-- What is held before the engine starts are the files that have been written in full. -/
theorem marks_prepare {f : Frontend} (hf : f.Quiet) (o : CommandLine.Options) :
    (prepare o f).Marks fun p ms => Stocked p.holdings ms := by
  refine marks_bind_quiet (quiet_load o) fun r => ?_
  cases r with
  | error e => exact marks_pure (stocked_nil rfl rfl)
  | ok s => exact marks_prepareWith hf o s

/-! ### The engine -/

theorem marks_answer (h : Handoff) (n : Int) :
    (answer h n).Marks fun _ ms => ∀ x ∈ ms, x.IsWriting := by
  have hquiet : ∀ {m : Run Unit}, m.Quiet → m.Marks fun _ ms => ∀ x ∈ ms, x.IsWriting :=
    fun hm => marks_mono hm fun _ ms hms x hx => by rw [hms] at hx; cases hx
  unfold answer
  split
  · exact hquiet (quiet_reportStatus h.source)
  · split
    · refine marks_bind_quiet (quiet_logAll _ _) fun _ => ?_
      split
      · refine marks_bind (marks_createLists h.paths h.store) fun lists ms hms => marks_pure ?_
        rw [List.append_nil]
        exact hms.writing
      · exact hquiet (quiet_pure _)
    · split
      · refine hquiet (quiet_bind (quiet_log _ _) fun _ => quiet_bind quiet_reopenLog fun r => ?_)
        cases r with
        | error e => exact quiet_log _ _
        | ok _ => exact quiet_pure _
      · exact hquiet (quiet_pure _)

/-- Whatever signals come, the engine only writes files. -/
theorem marks_poll (h : Handoff) (rounds : Nat) :
    (poll h rounds).Marks fun _ ms => ∀ x ∈ ms, x.IsWriting := by
  have hnil : ∀ x ∈ ([] : List Milestone), x.IsWriting := List.forall_mem_nil _
  induction rounds with
  | zero => exact marks_pure hnil
  | succ rounds ih =>
    refine marks_bind_quiet quiet_isInterrupted fun stop => ?_
    cases stop with
    | true => exact marks_pure hnil
    | false =>
      refine marks_bind_quiet quiet_takeSignal fun n => ?_
      cases n with
      | none => exact marks_bind_quiet (quiet_sleep _) fun _ => ih
      | some n =>
        refine marks_bind (marks_answer h n) fun _ ms hms => ?_
        refine marks_bind_quiet (quiet_sleep _) fun _ => marks_mono ih fun _ ms' hms' => ?_
        exact List.forall_mem_append.2 ⟨hms, hms'⟩

theorem marks_hold (exitAfterTune showSignal : Bool) (h : Handoff) :
    (hold exitAfterTune showSignal h).Marks fun _ ms => ∀ x ∈ ms, x.IsWriting := by
  have hpure : ∀ r : Except EngineError (List Worker),
      (pure r : Run _).Marks fun _ ms => ∀ x ∈ ms, x.IsWriting :=
    fun r => marks_pure (List.forall_mem_nil _)
  have hpoll : ∀ workers : List Worker,
      (agendaLength >>= fun n => poll h (n + 2) >>= fun _ =>
        (pure (.ok workers) : Run (Except EngineError (List Worker)))).Marks
          fun _ ms => ∀ x ∈ ms, x.IsWriting := by
    refine fun workers => marks_bind_quiet quiet_agendaLength fun n => ?_
    refine marks_bind (marks_poll h (n + 2)) fun _ ms hms => marks_pure ?_
    rw [List.append_nil]
    exact hms
  unfold hold
  split
  · exact marks_bind_quiet (quiet_log _ _) fun _ => hpure _
  · refine marks_bind_quiet (quiet_startWorkers showSignal) fun r => ?_
    cases r with
    | error e => exact hpure _
    | ok workers =>
      refine marks_bind_quiet (quiet_log _ _) fun _ => ?_
      dsimp only
      split
      · exact marks_bind_quiet (quiet_log _ _) fun _ => hpoll workers
      · exact hpoll workers

theorem marks_runEngine (exitAfterTune showSignal : Bool) (handoff : Handoff) (h : Holdings) :
    (runEngine (.holding exitAfterTune showSignal) handoff h).Marks fun r ms =>
      r.2.status = h.status ∧ r.2.removals = h.removals ∧
        ∃ ms', ms = .engineStarted :: ms' ∧ ∀ x ∈ ms', x.IsWriting := by
  refine marks_bind (marks_reach (P := fun _ ms => ms = [.engineStarted]) ?_ rfl) ?_
  · exact fun _ _ h => by cases h
  · rintro _ _ rfl
    refine marks_bind (marks_hold exitAfterTune showSignal handoff) fun r ms hms => ?_
    cases r with
    | error e => exact marks_pure ⟨rfl, rfl, ms, by rw [List.append_nil]; rfl, hms⟩
    | ok workers => exact marks_pure ⟨rfl, rfl, ms, by rw [List.append_nil]; rfl, hms⟩

/-! ### The end -/

theorem marks_removeFile (path : String) :
    (removeFile path).Marks fun _ ms => ms.map Milestone.attempt? = [some path] := by
  refine leaves_removeFile (fun id u hu => ?_) fun e u hu => ?_
  · rw [marks_foreign_append hu]
    rfl
  · rw [marks_foreign_append hu]
    rfl

theorem marks_removeGenerated (path : String) :
    (removeGenerated path).Marks fun _ ms => ms.map Milestone.attempt? = [some path] := by
  refine marks_bind (marks_removeFile path) fun r ms hms => ?_
  have hquiet : ∀ {m : Run Unit}, m.Quiet →
      m.Marks fun _ ms' => (ms ++ ms').map Milestone.attempt? = [some path] := fun hm =>
    marks_mono hm fun _ ms' hms' => by rw [hms', List.append_nil]; exact hms
  split
  · exact hquiet (quiet_pure _)
  · exact hquiet (quiet_pure _)
  · exact hquiet (quiet_bind (quiet_log _ _) fun _ => quiet_interrupt _)

theorem marks_removeAll (paths : List String) :
    (removeAll paths).Marks fun _ ms => ms.map Milestone.attempt? = paths.map some := by
  induction paths with
  | nil => exact marks_pure rfl
  | cons path rest ih =>
    refine marks_bind (marks_removeGenerated path) fun _ ms hms => ?_
    refine marks_mono ih fun _ ms' hms' => ?_
    rw [List.map_append, hms, hms']
    rfl

/-- The end tries to remove each file that is held, in order. -/
theorem marks_close {h : Holdings} (ho : h.status = none) :
    (close h).Marks fun _ ms =>
      ∃ ms', ms = .closing :: ms' ∧ ms'.map Milestone.attempt? = h.removals.map some := by
  have hfiles : (do
      removeAll h.removals
      let cause ← Run.interrupted
      Run.log .shutdown (farewell cause)
      return ((exitStatus cause, { status := some (exitStatus cause) }) : Int × Holdings)).Marks
        fun _ ms => ms.map Milestone.attempt? = h.removals.map some := by
    refine marks_bind (marks_removeAll h.removals) fun _ ms hms => ?_
    refine marks_mono (P := fun _ ms' => ms' = []) ?_ fun _ ms' hms' => ?_
    · refine quiet_bind (quiet_look _) fun cause => ?_
      exact quiet_bind (quiet_log _ _) fun _ => quiet_pure _
    · rw [hms', List.append_nil]
      exact hms
  have hend : ∀ {m : Run (Int × Holdings)},
      (m.Marks fun _ ms => ms.map Milestone.attempt? = h.removals.map some) →
      m.Marks fun _ ms => ∃ ms', [.closing] ++ ms = .closing :: ms' ∧
        ms'.map Milestone.attempt? = h.removals.map some := fun hm =>
    marks_mono hm fun _ ms hms => ⟨ms, rfl, hms⟩
  unfold close
  rw [ho]
  refine marks_bind (marks_reach (P := fun _ ms => ms = [.closing]) ?_ rfl) ?_
  · exact fun _ _ h => by cases h
  · rintro _ _ rfl
    refine hend (marks_bind_quiet (quiet_joinWorkers _) fun _ => ?_)
    dsimp only
    split
    · exact marks_bind_quiet (quiet_reach rfl) fun _ => hfiles
    · exact hfiles

/-! ### A whole run -/

/-- Marks of the engine, if it ran at all. -/
def EngineMarks (ms : List Milestone) : Prop :=
  ms = [] ∨ ∃ rest, ms = .engineStarted :: rest ∧ ∀ x ∈ rest, x.IsWriting

theorem marks_conclude (exitAfterTune showSignal : Bool) {p : Prepared}
    (ho : p.holdings.status = none) :
    (conclude (.holding exitAfterTune showSignal) p).Marks fun _ ms =>
      ∃ during after, ms = during ++ .closing :: after ∧ EngineMarks during ∧
        after.map Milestone.attempt? = p.holdings.removals.map some := by
  have hend : ∀ {h : Holdings} {during : List Milestone}, h.status = none →
      h.removals = p.holdings.removals → EngineMarks during →
      (close h >>= fun r => pure r.1).Marks fun _ ms =>
        ∃ during' after, during ++ ms = during' ++ .closing :: after ∧ EngineMarks during' ∧
          after.map Milestone.attempt? = p.holdings.removals.map some := by
    intro h during ho hr hduring
    refine marks_bind (marks_close ho) ?_
    rintro r _ ⟨after, rfl, hafter⟩
    refine marks_pure ⟨during, after, by rw [List.append_nil], hduring, ?_⟩
    rw [hafter, hr]
  have herror : ∀ {h : Holdings} {during : List Milestone} (e : StageError), h.status = none →
      h.removals = p.holdings.removals → EngineMarks during →
      (Run.log .startup (.error e.message) >>= fun _ => Run.interrupt e.exitCode >>= fun _ =>
        close h >>= fun r => pure r.1).Marks fun _ ms =>
          ∃ during' after, during ++ ms = during' ++ .closing :: after ∧ EngineMarks during' ∧
            after.map Milestone.attempt? = p.holdings.removals.map some := fun e ho hr hduring =>
    marks_bind_quiet (quiet_log _ _) fun _ =>
      marks_bind_quiet (quiet_interrupt _) fun _ => hend ho hr hduring
  unfold conclude
  dsimp only
  split
  · exact herror _ ho rfl (.inl rfl)
  · exact hend ho rfl (.inl rfl)
  · rename_i handoff _
    refine marks_bind (marks_runEngine exitAfterTune showSignal handoff p.holdings) ?_
    rintro ⟨result, h⟩ during ⟨hs, hr, hduring⟩
    cases result with
    | ok _ => exact hend (hs.trans ho) hr (.inr hduring)
    | error e => exact herror e (hs.trans ho) hr (.inr hduring)

/-- The marks of a whole run. The end tries the paths at which a file was completed before the
engine started, each once. -/
theorem marks_start {f : Frontend} (hf : f.Quiet) (o : CommandLine.Options)
    (exitAfterTune showSignal : Bool) :
    (start o f (.holding exitAfterTune showSignal)).Marks fun _ ms =>
      ∃ before during after, ms = before ++ during ++ .closing :: after ∧
        (∀ x ∈ before, x.IsWriting) ∧ EngineMarks during ∧
        (after.map Milestone.attempt?).Perm ((completedPaths before).map some) := by
  refine marks_bind (marks_prepare hf o) fun p before hp => ?_
  refine marks_mono (marks_conclude exitAfterTune showSignal hp.isOpen) ?_
  rintro status _ ⟨during, after, rfl, hduring, hafter⟩
  refine ⟨before, during, after, by rw [List.append_assoc], hp.writing, hduring, ?_⟩
  rw [hafter]
  exact hp.completed.symm.map some

/-- The paths at which a file was written in full before the engine started. -/
def writtenAtStart (t : List Event) : List String :=
  completedPaths (marks (t.takeWhile (· != .reached .engineStarted)))

/-- The events of the end. -/
def ending (t : List Event) : List Event := t.dropWhile (· != .reached .closing)

/-- The end tried to remove a file at its path and could not: nothing was removed there, or it was
another file. -/
def RemovalFailed (t : List Event) (path : String) (id : FileId) : Prop :=
  (∃ e, .reached (.notRemoved path e) ∈ ending t) ∨
    ∃ id', id' ≠ id ∧ .reached (.removed path id') ∈ ending t

/-- Of the files that the process created at their paths, none is still there, but for those that
the end could not remove. -/
def FilesReturned (t : List Event) (fs : FileSystem) : Prop :=
  ∀ path id, .reached (.created path id) ∈ t → fs.find path = .ok (.file id) →
    RemovalFailed t path id

section
variable {x : Milestone} (hx : x.isMark = true)
include hx

theorem marks_cons_reached (t : List Event) : marks (.reached x :: t) = x :: marks t :=
  List.filterMap_cons_some (if_pos hx)

theorem mark_ne_of_ne {e : Event} {y : Milestone} (he : e ≠ .reached x)
    (hy : e.mark? = some y) : y ≠ x := by
  rintro rfl
  cases e with
  | reached m =>
    obtain ⟨-, hm⟩ := Option.ite_none_right_eq_some.1 hy
    exact he (congrArg Event.reached (Option.some.inj hm))
  | _ => cases hy

theorem marks_takeWhile (t : List Event) :
    marks (t.takeWhile (· != .reached x)) = (marks t).takeWhile (· != x) := by
  induction t with
  | nil => rfl
  | cons e t ih =>
    by_cases he : e = .reached x
    · subst he
      rw [List.takeWhile_cons_of_neg (by simp), marks_cons_reached hx,
        List.takeWhile_cons_of_neg (by simp)]
      rfl
    · rw [List.takeWhile_cons_of_pos (by simpa using he)]
      cases hm : e.mark? with
      | none =>
        have hcons : ∀ t, marks (e :: t) = marks t := fun t => List.filterMap_cons_none hm
        rw [hcons, hcons, ih]
      | some y =>
        have hcons : ∀ t, marks (e :: t) = y :: marks t := fun t => List.filterMap_cons_some hm
        rw [hcons, hcons, ih, List.takeWhile_cons_of_pos (by simpa using mark_ne_of_ne hx he hm)]

theorem marks_dropWhile (t : List Event) :
    marks (t.dropWhile (· != .reached x)) = (marks t).dropWhile (· != x) := by
  induction t with
  | nil => rfl
  | cons e t ih =>
    by_cases he : e = .reached x
    · subst he
      rw [List.dropWhile_cons_of_neg (by simp), marks_cons_reached hx,
        List.dropWhile_cons_of_neg (by simp)]
    · rw [List.dropWhile_cons_of_pos (by simpa using he), ih]
      cases hm : e.mark? with
      | none => rw [show marks (e :: t) = marks t from List.filterMap_cons_none hm]
      | some y =>
        rw [show marks (e :: t) = y :: marks t from List.filterMap_cons_some hm,
          List.dropWhile_cons_of_pos (by simpa using mark_ne_of_ne hx he hm)]

end

/-! ### What is left -/

theorem bne_of_writing {ms : List Milestone} {x : Milestone} (hx : ¬x.IsWriting)
    (h : ∀ y ∈ ms, y.IsWriting) : ∀ y ∈ ms, (y != x) = true := by
  intro y hy
  rw [bne_iff_ne]
  rintro rfl
  exact hx (h y hy)

theorem bne_closing_of_engineMarks {during : List Milestone} (h : EngineMarks during) :
    ∀ y ∈ during, (y != .closing) = true := by
  rcases h with rfl | ⟨rest, rfl, hrest⟩
  · exact List.forall_mem_nil _
  · exact List.forall_mem_cons.2 ⟨rfl, bne_of_writing (x := .closing) (fun h => h) hrest⟩

/-- Nothing is completed between the start of the engine and the end, as far as the marks up to the
engine tell. -/
theorem completedPaths_takeWhile {during after : List Milestone} (hduring : EngineMarks during)
    (hafter : ∀ x ∈ after, ∃ path, x.attempt? = some path) :
    completedPaths ((during ++ .closing :: after).takeWhile (· != .engineStarted)) = [] := by
  rcases hduring with rfl | ⟨rest, rfl, -⟩
  · refine List.filterMap_eq_nil_iff.2 fun x hx => ?_
    rcases List.mem_cons.1 ((List.takeWhile_sublist _).subset hx) with rfl | hx
    · rfl
    · obtain ⟨path, hpath⟩ := hafter x hx
      rcases Milestone.mem_of_attempt? hpath with ⟨id, rfl⟩ | ⟨e, rfl⟩ <;> rfl
  · rw [List.cons_append, List.takeWhile_cons_of_neg (by simp)]
    rfl

/-- The end tries exactly the paths at which a file was written in full before the engine
started. -/
theorem mem_writtenAtStart_iff {f : Frontend} (hf : f.Quiet) {o : CommandLine.Options}
    {exitAfterTune showSignal : Bool} {w w' : World} {status : Int}
    (h : start o f (.holding exitAfterTune showSignal) w = .ok status w') :
    ∃ t, Ledger w t w' ∧
      ∀ path, path ∈ writtenAtStart t ↔ ∃ x ∈ marks (ending t), x.attempt? = some path := by
  obtain ⟨t, ht, before, during, after, hms, hbefore, hduring, hafter⟩ :=
    marks_start hf o exitAfterTune showSignal w status w' h
  refine ⟨t, ht, fun path => ?_⟩
  have hattempts : ∀ x ∈ after, ∃ path, x.attempt? = some path := by
    intro x hx
    obtain ⟨path, -, hpath⟩ := List.mem_map.1 (hafter.mem_iff.1 (List.mem_map_of_mem hx))
    exact ⟨path, hpath.symm⟩
  have hstart : writtenAtStart t = completedPaths before := by
    have hskip : ∀ y ∈ before, (y != .engineStarted) = true :=
      bne_of_writing (x := .engineStarted) (fun h => h) hbefore
    rw [writtenAtStart, marks_takeWhile rfl, hms, List.append_assoc,
      List.takeWhile_append_of_pos hskip, completedPaths_append,
      completedPaths_takeWhile hduring hattempts, List.append_nil]
  have hending : marks (ending t) = .closing :: after := by
    have hskip : ∀ y ∈ before ++ during, (y != .closing) = true :=
      List.forall_mem_append.2 ⟨bne_of_writing (x := .closing) (fun h => h) hbefore,
        bne_closing_of_engineMarks hduring⟩
    rw [ending, marks_dropWhile rfl, hms, List.dropWhile_append_of_pos hskip,
      List.dropWhile_cons_of_neg (by simp)]
  rw [hstart, hending]
  constructor
  · intro hpath
    obtain ⟨x, hx, he⟩ := List.mem_map.1 (hafter.mem_iff.2 (List.mem_map_of_mem hpath))
    exact ⟨x, List.mem_cons_of_mem _ hx, he⟩
  · rintro ⟨x, hx, he⟩
    rcases List.mem_cons.1 hx with rfl | hx
    · cases he
    · have hmem := hafter.mem_iff.1 (List.mem_map.2 ⟨x, hx, he⟩)
      obtain ⟨path', hpath', he'⟩ := List.mem_map.1 hmem
      rw [← Option.some.inj he']
      exact hpath'

/-- When a run has come to its end, no file that the process created is left, but for those that
could not be removed, exactly if each file that is left had been written in full before the engine
started. One that could only be created or completed later is not removed, and one that could not
be completed is not either. -/
theorem filesReturned_iff {f : Frontend} (hf : f.Quiet) {o : CommandLine.Options}
    {exitAfterTune showSignal : Bool} {w w' : World} {status : Int} (hs : w.files.Sound)
    (h : start o f (.holding exitAfterTune showSignal) w = .ok status w') :
    ∃ t, w'.trace = w.trace ++ t ∧
      (FilesReturned t w'.files ↔
        ∀ path id, .reached (.created path id) ∈ t → w'.files.find path = .ok (.file id) →
          path ∈ writtenAtStart t) := by
  obtain ⟨t, ht, hwritten⟩ := mem_writtenAtStart_iff hf h
  refine ⟨t, ht.trace, ?_⟩
  constructor
  · intro hreturned path id hcreated hfind
    rw [hwritten]
    rcases hreturned path id hcreated hfind with ⟨e, he⟩ | ⟨id', -, he⟩
    · exact ⟨_, (mem_marks rfl).2 he, rfl⟩
    · exact ⟨_, (mem_marks rfl).2 he, rfl⟩
  · intro hall path id hcreated hfind
    obtain ⟨x, hx, hpath⟩ := (hwritten path).1 (hall path id hcreated hfind)
    rcases Milestone.mem_of_attempt? hpath with ⟨id', rfl⟩ | ⟨e, rfl⟩
    · have hremoved := (mem_marks rfl).1 hx
      refine .inr ⟨id', ?_, hremoved⟩
      rintro rfl
      have hgone := ht.gone hs path id' ((List.dropWhile_sublist _).subset hremoved)
      exact FileSystem.find_ne_of_gone hgone path hfind
    · exact .inl ⟨e, (mem_marks rfl).1 hx⟩

/-- A world with a recording. -/
def recorded : World where
  files := { nodes := [(["r.ts"], .file 0)], contents := [[]] }

/-- The options of a run that opens the recording and ends. -/
def once : CommandLine.Options :=
  { recording := some "r.ts", givenRunDir := some ".", exitAfterTune := true }

theorem filesReturned_iff_recorded :
    Frontend.hardware.Quiet ∧ recorded.files.Sound ∧
      ∃ status w', start once .hardware (.holding true false) recorded = .ok status w' ∧
        ∃ t, w'.trace = recorded.trace ++ t ∧
          (FilesReturned t w'.files ↔
            ∀ path id, .reached (.created path id) ∈ t → w'.files.find path = .ok (.file id) →
              path ∈ writtenAtStart t) := by
  have hs : recorded.files.Sound := ⟨by decide, by decide⟩
  obtain ⟨status, w', hrun, -⟩ :=
    exists_of_endsIn (show (start once .hardware (.holding true false)).endsIn recorded
      (fun status _ => status == 0) = true by decide +kernel)
  exact ⟨Tuner.quiet_hardware, hs, status, w', hrun,
    filesReturned_iff Tuner.quiet_hardware hs hrun⟩

/-! ### A file that came too late -/

/-- The path of the file for the hardware module of the first adapter. -/
def camInfoPath : String := "run/caminfo_adapter0_tuner0"

/-- A world in which a directory stands where the file for the hardware module should be, until
someone removes it and asks for the lists. -/
def obstructed : World where
  files :=
    { nodes := [(["d.conf"], .file 0), (["r.ts"], .file 1), (["run"], .directory),
        (["run", "caminfo_adapter0_tuner0"], .directory)]
      contents := [Text.octets "cam_support = 1\n", []] }
  agenda := [[.removeTree camInfoPath, .signal Signal.user2]]

/-- The options of a run that holds a recording. -/
def replay : CommandLine.Options :=
  { config := some "d.conf", recording := some "r.ts", givenRunDir := some "run" }

/-- In the obstructed world the second attempt creates the file, and the end leaves it alone. -/
theorem start_obstructed :
    ∃ status w', start replay .hardware (.holding false false) obstructed = .ok status w' ∧
      .reached (.created camInfoPath 4) ∈ w'.trace ∧
      (w'.files.find camInfoPath).toOption = some (.file 4) ∧
      ∀ x ∈ marks (ending w'.trace), x.attempt? ≠ some camInfoPath := by
  obtain ⟨status, w', hrun, hfacts⟩ :=
    exists_of_endsIn (show (start replay .hardware (.holding false false)).endsIn obstructed
      (fun _ w' => decide (.reached (.created camInfoPath 4) ∈ w'.trace ∧
        (w'.files.find camInfoPath).toOption = some (.file 4) ∧
        ∀ x ∈ marks (ending w'.trace), x.attempt? ≠ some camInfoPath)) = true by decide +kernel)
  exact ⟨status, w', hrun, of_decide_eq_true hfacts⟩

/-- Not every run gives back the files that it has created. -/
theorem not_filesReturned :
    ¬∀ (o : CommandLine.Options) (f : Frontend) (exitAfterTune showSignal : Bool) (w w' : World)
      (status : Int) (t : List Event), f.Quiet → w.files.Sound →
      start o f (.holding exitAfterTune showSignal) w = .ok status w' →
      w'.trace = w.trace ++ t → FilesReturned t w'.files := by
  intro h
  have hs : obstructed.files.Sound := ⟨by decide, by decide⟩
  obtain ⟨status, w', hrun, hcreated, hfind, hleft⟩ := start_obstructed
  have hthere : w'.files.find camInfoPath = .ok (.file 4) := by
    cases hf : w'.files.find camInfoPath with
    | error e => rw [hf] at hfind; cases hfind
    | ok node => rw [hf] at hfind; rw [Option.some.inj hfind]
  have hreturned := h replay .hardware false false obstructed w' status w'.trace
    Tuner.quiet_hardware hs hrun (List.nil_append _).symm
  rcases hreturned camInfoPath 4 hcreated hthere with ⟨e, he⟩ | ⟨id, -, he⟩
  · exact hleft _ ((mem_marks rfl).2 he) rfl
  · exact hleft _ ((mem_marks rfl).2 he) rfl

end Headend.Service
