import Headend.Proofs.FirstCause
import Headend.Proofs.GeneratedFiles
import Headend.Proofs.EndCause

/-!
# Everything is given back once

Whatever is registered for the end is given back in one order: the workers are waited for, the
source is closed, and each file is tried once, in the order in which they came, with the file of the
process id last. What the host answers to one attempt decides about the record and the failure of
that attempt and about nothing else. The status is told from the cause that is set after all that,
and closing again only tells it again.

Facts: `joinedAll_joinWorkers` (each worker is waited for until it is over),
`attempted_removeGenerated` (one attempt), `attemptedAll_removeAll` (each file is tried),
`Passage.interrupted` (the first cause counts), `removals_registerAll` (the order of the files),
`close_once`.
-/

namespace Headend.Host

open Headend.Signal (Cause)

/-! ### Events of the process itself -/

/-- The events that others did not bring about. -/
def own (t : List Event) : List Event :=
  t.filter fun
    | .signal .. | .listed .. => false
    | _ => true

theorem own_append (s t : List Event) : own (s ++ t) = own s ++ own t := List.filter_append ..

theorem own_of_foreign {u : List Event} (hu : ∀ e ∈ u, e.IsForeign) : own u = [] := by
  refine List.filter_eq_nil_iff.2 fun e he => ?_
  have := hu e he
  cases e with
  | signal n d => exact Bool.false_ne_true
  | listed names => exact Bool.false_ne_true
  | _ => exact this.elim

theorem own_foreign_append {u : List Event} (hu : ∀ e ∈ u, e.IsForeign) (t : List Event) :
    own (u ++ t) = own t := by
  rw [own_append, own_of_foreign hu, List.nil_append]

/-! ### Passages -/

/-- The way from one world to another: its events, with what they mean for the signal state and for
the files. -/
structure Passage (w : World) (t : List Event) (w' : World) : Prop where
  course : Course w t w'
  ledger : Ledger w t w'

section

variable {w w' w'' : World} {s t : List Event}

theorem Passage.nil (w : World) : Passage w [] w := ⟨.nil w, .nil w⟩

theorem Passage.append (h : Passage w s w') (h' : Passage w' t w'') : Passage w (s ++ t) w'' :=
  ⟨h.course.append h'.course, h.ledger.append h'.ledger⟩

/-- A course of a part of a run is a passage, since the part leaves the same events. -/
theorem passage_of_leaves {m : Run α} {Q : α → List Event → Prop} (hm : m.Leaves Q) {a : α}
    (h : m w = .ok a w') (hc : Course w t w') : Passage w t w' := by
  obtain ⟨u, hu, -⟩ := hm w a w' h
  obtain rfl : t = u := List.append_cancel_left (hc.trace.symm.trans hu.trace)
  exact ⟨hc, hu⟩

theorem passage_advance (w : World) : ∃ u, Passage w u w.advance ∧ ∀ e ∈ u, e.IsForeign := by
  obtain ⟨u, hu, hforeign⟩ := course_advance w
  obtain ⟨v, hv, -⟩ := ledger_advance w
  obtain rfl : u = v := List.append_cancel_left (hu.trace.symm.trans hv.trace)
  exact ⟨u, ⟨hu, hv⟩, hforeign⟩

/-- A cause that is set stays, and otherwise the first one that comes is set. -/
theorem Passage.interrupted (h : Passage w t w')
    (hn : ∀ n d, .signal n d ∈ t → Signal.IsNumber n) :
    w'.signals.interrupted = w.signals.interrupted.or (causes t).head? := by
  by_cases hz : w.signals.cause = 0
  · have hnone : w.signals.interrupted = none := (Cause.decode_eq_none_iff _).2 hz
    rw [h.course.interrupted hz hn, hnone, Option.none_or]
  · have hset : w'.signals.interrupted = w.signals.interrupted := by
      unfold Signal.State.interrupted
      rw [h.course.cause_of_ne_zero hz]
    obtain ⟨c, hc⟩ := Option.ne_none_iff_exists'.1 fun hnone =>
      hz ((Cause.decode_eq_none_iff w.signals.cause).1 hnone)
    have hcause : w.signals.interrupted = some c := hc
    rw [hset, hcause, Option.some_or]

end

namespace Run

/-- A part of a run ends with a value, on a passage with certain events of the process itself. -/
def Does (m : Run α) (w : World) (a : α) (es t : List Event) (w' : World) : Prop :=
  m w = .ok a w' ∧ Passage w t w' ∧ own t = es

variable {w w' w'' : World} {es es' s t : List Event}

theorem Does.bind {m : Run α} {f : α → Run β} {a : α} {b : β} (h : m.Does w a es s w')
    (h' : (f a).Does w' b es' t w'') : (m >>= f).Does w b (es ++ es') (s ++ t) w'' := by
  obtain ⟨hm, hs, hes⟩ := h
  obtain ⟨hf, ht, hes'⟩ := h'
  exact ⟨(bind_of_ok hm).trans hf, hs.append ht, by rw [own_append, hes, hes']⟩

theorem does_pure (a : α) (w : World) : (pure a : Run α).Does w a [] [] w := ⟨rfl, .nil w, rfl⟩

theorem does_reach (x : Milestone) (hx : (Event.reached x).IsInert)
    (hremoved : ∀ path id, x ≠ .removed path id) (w : World) :
    ∃ t w', (reach x).Does w () [.reached x] t w' := by
  obtain ⟨u, hu, hforeign⟩ := passage_advance w
  have hown : own [.reached x] = [.reached x] := rfl
  have hemit : Passage w.advance [.reached x] (w.advance.emit (.reached x)) :=
    ⟨Move.course (.event _ hx),
      ledger_emit _ fun path id he => hremoved path id (Event.reached.inj he)⟩
  exact ⟨_, _, rfl, hu.append hemit, (own_foreign_append hforeign _).trans hown⟩

theorem does_log (a : Area) (r : Record) (w : World) :
    ∃ t w', (log a r).Does w () [.log a r] t w' := by
  obtain ⟨u, hu, hforeign⟩ := passage_advance w
  have hrecord : Passage w.advance [.log a r] (w.advance.record a r) :=
    ⟨course_record _ a r, ledger_record _ a r⟩
  exact ⟨_, _, rfl, hu.append hrecord, own_foreign_append hforeign _⟩

/-- While steps pass the process does nothing. -/
theorem does_idle (steps : Nat) (w : World) :
    ∃ t w', (idle steps).Does w () [] t w' ∧ w'.clock = w.clock + steps := by
  induction steps generalizing w with
  | zero => exact ⟨_, _, does_pure () w, rfl⟩
  | succ steps ih =>
    obtain ⟨u, hu, hforeign⟩ := passage_advance w
    have hlook : (look fun _ => ()).Does w () [] u w.advance := ⟨rfl, hu, own_of_foreign hforeign⟩
    obtain ⟨t, w', ht, hclock⟩ := ih w.advance
    refine ⟨_, _, hlook.bind ht, hclock.trans ?_⟩
    rw [show w.advance.clock = w.clock + 1 from rfl]
    omega

theorem does_waitFor (moment : Nat) (w : World) :
    ∃ t w', (waitFor moment).Does w () [] t w' ∧ moment ≤ w'.clock := by
  obtain ⟨t, w', ht, hclock⟩ := does_idle (moment - w.clock) w
  exact ⟨t, w', ht, by omega⟩

theorem does_report (a : Area) (r : Record) (code : ExitCode) (w : World) :
    ∃ t w', (report a r code).Does w () [.log a r, .reached (.failed code)] t w' := by
  obtain ⟨s, mid, hs⟩ := does_log a r w
  obtain ⟨u, hu, hforeign⟩ := passage_advance mid
  have hfailed : Passage mid.advance [.reached (.failed code)] _ :=
    ⟨Move.course (.failure mid.advance code), ledger_single rfl (.refl _) fun _ _ he => by cases he⟩
  have hinterrupt : (interrupt code).Does mid () [.reached (.failed code)] _ _ :=
    ⟨rfl, hu.append hfailed, own_foreign_append hforeign _⟩
  exact ⟨_, _, hs.bind hinterrupt⟩

end Run

end Headend.Host

namespace Headend.Service

open Headend.Host
open Headend.Host.Run
open Headend.Signal (Cause)
open Headend.Tuner (Source)

/-! ### One attempt to remove a file -/

/-- What the host answers to the next attempt to remove a file. -/
def removalAnswer (w : World) (path : String) : Except Failure FileId :=
  (w.advance.attempt (·.removeFile path)).1

/-- The events of an attempt to remove a file, by the answer of the host. A file that is gone
already is passed over in silence, and any other failure is logged and found to be a cause of the
end. -/
def attemptEvents (path : String) : Except Failure FileId → List Event
  | .ok id => [.reached (.removed path id)]
  | .error e =>
    if e = .missing then [.reached (.notRemoved path e)]
    else [.reached (.notRemoved path e), .log .shutdown (.error s!"{path}: {e.message}"),
      .reached (.failed .removeFile)]

/-- Files are tried one after the other, and each attempt has the events of its answer. -/
inductive AttemptedAll : List String → World → List Event → World → Prop
  | nil (w : World) : AttemptedAll [] w [] w
  | cons {path : String} {rest : List String} {w mid w' : World} {s t : List Event}
      (h : Passage w s mid) (hown : own s = attemptEvents path (removalAnswer w path))
      (h' : AttemptedAll rest mid t w') : AttemptedAll (path :: rest) w (s ++ t) w'

theorem AttemptedAll.passage {paths : List String} {w w' : World} {t : List Event}
    (h : AttemptedAll paths w t w') : Passage w t w' := by
  induction h with
  | nil w => exact .nil w
  | cons h _ _ ih => exact h.append ih

theorem does_removeFile (path : String) (w : World) :
    ∃ t w', (removeFile path).Does w ((removalAnswer w path).map fun _ => ())
      [match removalAnswer w path with
        | .ok id => .reached (.removed path id)
        | .error e => .reached (.notRemoved path e)] t w' := by
  obtain ⟨u, hu, hforeign⟩ := passage_advance w
  unfold removalAnswer
  cases hr : w.advance.attempt (·.removeFile path) with
  | mk result mid =>
    have hmid := hu.course.append (course_attempt hr)
    rw [List.append_nil] at hmid
    cases result with
    | ok id =>
      have hrun : removeFile path w = .ok (.ok ()) (mid.emit (.reached (.removed path id))) := by
        simp only [removeFile, step, hr]
      have hc := hmid.append (Move.course (.event mid (e := .reached (.removed path id)) trivial))
      exact ⟨_, _, hrun, passage_of_leaves (marks_removeFile path) hrun hc,
        own_foreign_append hforeign _⟩
    | error e =>
      have hrun : removeFile path w =
          .ok (.error e) (mid.emit (.reached (.notRemoved path e))) := by
        simp only [removeFile, step, hr]
      have hc := hmid.append (Move.course (.event mid (e := .reached (.notRemoved path e)) trivial))
      exact ⟨_, _, hrun, passage_of_leaves (marks_removeFile path) hrun hc,
        own_foreign_append hforeign _⟩

theorem attempted_removeGenerated (path : String) (w : World) :
    ∃ t w', (removeGenerated path).Does w () (attemptEvents path (removalAnswer w path)) t w' := by
  obtain ⟨s, mid, hs⟩ := does_removeFile path w
  rw [removeGenerated_eq]
  cases ha : removalAnswer w path with
  | ok id =>
    rw [ha] at hs
    exact ⟨_, _, hs.bind (does_pure () mid)⟩
  | error e =>
    rw [ha] at hs
    obtain ⟨es, t, w', hevents, ht⟩ : ∃ es t w',
        attemptEvents path (.error e) = .reached (.notRemoved path e) :: es ∧
          (if e = .missing then pure ()
            else report .shutdown (.error s!"{path}: {e.message}") .removeFile).Does mid () es t
              w' := by
      unfold attemptEvents
      by_cases he : e = .missing
      · rw [if_pos he]
        exact ⟨[], [], mid, if_pos he, does_pure () mid⟩
      · rw [if_neg he]
        obtain ⟨t, w', ht⟩ := does_report .shutdown (.error s!"{path}: {e.message}") .removeFile mid
        exact ⟨_, t, w', if_neg he, ht⟩
    rw [hevents]
    exact ⟨_, _, hs.bind ht⟩

/-- Each file is tried, whatever became of those before. -/
theorem attemptedAll_removeAll (paths : List String) (w : World) :
    ∃ t w', removeAll paths w = .ok () w' ∧ AttemptedAll paths w t w' := by
  induction paths generalizing w with
  | nil => exact ⟨_, _, rfl, .nil w⟩
  | cons path rest ih =>
    obtain ⟨s, mid, hrun, hs, hown⟩ := attempted_removeGenerated path w
    obtain ⟨t, w', hrest, ht⟩ := ih mid
    exact ⟨_, _, (bind_of_ok hrun).trans hrest, .cons hs hown ht⟩

/-! ### Waiting for the workers -/

/-- The events of having waited for a worker: one that broke down is reported. -/
def Worker.joinEvents (worker : Worker) : List Event :=
  .reached (.joined worker.name) ::
    if worker.breaksDown then [.log .shutdown worker.breakdown] else []

/-- Workers are waited for, one after the other: nothing is done until the worker is over. -/
inductive JoinedAll : List Worker → World → List Event → World → Prop
  | nil (w : World) : JoinedAll [] w [] w
  | cons {worker : Worker} {rest : List Worker} {w ended mid w' : World} {r s t : List Event}
      (hwait : Passage w r ended) (hidle : own r = []) (hends : worker.endsAt ≤ ended.clock)
      (hjoin : Passage ended s mid) (hown : own s = worker.joinEvents)
      (h' : JoinedAll rest mid t w') : JoinedAll (worker :: rest) w (r ++ (s ++ t)) w'

theorem JoinedAll.passage {ws : List Worker} {w w' : World} {t : List Event}
    (h : JoinedAll ws w t w') : Passage w t w' := by
  induction h with
  | nil w => exact .nil w
  | cons hwait _ _ hjoin _ _ ih => exact hwait.append (hjoin.append ih)

theorem does_joined (worker : Worker) (w : World) :
    ∃ t w', (reach (.joined worker.name) >>= fun _ =>
      if worker.breaksDown then log .shutdown worker.breakdown else pure ()).Does w ()
        worker.joinEvents t w' := by
  obtain ⟨s, mid, hs⟩ := does_reach (.joined worker.name) trivial (fun _ _ h => by cases h) w
  unfold Worker.joinEvents
  cases worker.breaksDown with
  | false => exact ⟨_, _, hs.bind (does_pure () mid)⟩
  | true =>
    obtain ⟨t, w', ht⟩ := does_log .shutdown worker.breakdown mid
    exact ⟨_, _, hs.bind ht⟩

/-- Each worker is waited for, however long it takes. -/
theorem joinedAll_joinWorkers (ws : List Worker) (w : World) :
    ∃ t w', joinWorkers ws w = .ok () w' ∧ JoinedAll ws w t w' := by
  induction ws generalizing w with
  | nil => exact ⟨_, _, rfl, .nil w⟩
  | cons worker rest ih =>
    obtain ⟨r, ended, ⟨hwait, hr, hidle⟩, hends⟩ := does_waitFor worker.endsAt w
    obtain ⟨s, mid, hjoin, hs, hown⟩ := does_joined worker ended
    obtain ⟨t, w', hrest, ht⟩ := ih mid
    have hworker : joinWorker worker w = .ok () mid := (bind_of_ok hwait).trans hjoin
    exact ⟨_, _, (bind_of_ok hworker).trans hrest, .cons hr hidle hends hs hown ht⟩

/-! ### What is registered -/

/-- Something that is registered to be given back at the end. -/
inductive Registration where
  | source (s : Source)
  | files (paths : List String)
  | pidFile (path : String)
  | workers (ws : List Worker)

namespace Registration

/-- The source that is registered. -/
def source? : Registration → Option Source
  | source s => some s
  | _ => none

/-- The generated files that are registered. -/
def paths : Registration → List String
  | files paths => paths
  | _ => []

/-- The file with the process id that is registered. -/
def pidPath? : Registration → Option String
  | pidFile path => some path
  | _ => none

/-- The workers that are registered. -/
def threads : Registration → List Worker
  | workers ws => ws
  | _ => []

end Registration

/-- What is held when something more is registered. -/
def Holdings.register (h : Holdings) : Registration → Holdings
  | .source s => h.keepSource s
  | .files paths => h.keepFiles paths
  | .pidFile path => h.keepPidFile path
  | .workers ws => h.keepWorkers ws

/-- What is held when more things are registered, one after the other. -/
def Holdings.registerAll (h : Holdings) (rs : List Registration) : Holdings :=
  rs.foldl Holdings.register h

section

variable (rs : List Registration)

/-- The source to close: the one that was registered last. -/
def lastSource : Option Source := (rs.filterMap Registration.source?).getLast?

/-- The files to remove: all in the order in which they were registered, and the file with the
process id last. -/
def filesInOrder : List String :=
  rs.flatMap Registration.paths ++ (rs.filterMap Registration.pidPath?).getLast?.toList

/-- The workers to wait for, in the order in which they were registered. -/
def workersInOrder : List Worker := rs.flatMap Registration.threads

end

/-- All that is registered is held. -/
theorem registerAll_eq (rs : List Registration) :
    Holdings.registerAll {} rs =
      { source := lastSource rs
        files := rs.flatMap Registration.paths
        pidFile := (rs.filterMap Registration.pidPath?).getLast?
        workers := rs.flatMap Registration.threads } := by
  induction rs using List.reverseRecOn with
  | nil => rfl
  | append_singleton rs r ih =>
    have hstep : Holdings.registerAll {} (rs ++ [r]) = (Holdings.registerAll {} rs).register r := by
      unfold Holdings.registerAll
      rw [List.foldl_append]
      rfl
    rw [hstep, ih]
    unfold lastSource
    simp only [List.filterMap_append, List.flatMap_append, List.getLast?_append]
    cases r with
    | source s => simp [Holdings.register, Holdings.keepSource, Registration.source?,
        Registration.paths, Registration.pidPath?, Registration.threads]
    | files paths => simp [Holdings.register, Holdings.keepFiles, Registration.source?,
        Registration.paths, Registration.pidPath?, Registration.threads]
    | pidFile path => simp [Holdings.register, Holdings.keepPidFile, Registration.source?,
        Registration.paths, Registration.pidPath?, Registration.threads]
    | workers ws => simp [Holdings.register, Holdings.keepWorkers, Registration.source?,
        Registration.paths, Registration.pidPath?, Registration.threads]

theorem removals_registerAll (rs : List Registration) :
    (Holdings.registerAll {} rs).removals = filesInOrder rs := by
  rw [registerAll_eq]
  rfl

theorem status_registerAll (h : Holdings) (rs : List Registration) :
    (h.registerAll rs).status = h.status := by
  unfold Holdings.registerAll
  induction rs generalizing h with
  | nil => rfl
  | cons r rest ih =>
    rw [List.foldl_cons, ih]
    cases r <;> rfl

/-! ### Closing -/

/-- Everything that was registered is given back between two worlds: each worker is waited for until
it is over, the source is closed, each file is tried in order, and then, in the world `told`, the
status is found by the cause that is set, which is the first one there was. -/
structure Release (rs : List Registration) (w told w' : World) : Prop where
  given : ∃ entered joined begun removed q r s t u v,
    (Passage w q entered ∧ own q = [.reached .closing]) ∧
    JoinedAll (workersInOrder rs) entered r joined ∧
    (Passage joined s begun ∧
      own s = (lastSource rs).toList.map fun source => .reached (.closed source.path)) ∧
    AttemptedAll (filesInOrder rs) begun t removed ∧
    (Passage removed u told ∧ own u = []) ∧
    (Passage told v w' ∧ own v = [.log .shutdown (farewell told.signals.interrupted)]) ∧
    ((∀ n d, .signal n d ∈ q ++ (r ++ (s ++ (t ++ u))) → Signal.IsNumber n) →
      told.signals.interrupted =
        w.signals.interrupted.or (causes (q ++ (r ++ (s ++ (t ++ u))))).head?)

theorem does_closeSource (source : Option Source) (w : World) :
    ∃ t w', (match source with
        | some s => reach (.closed s.path)
        | none => pure () : Run Unit).Does w ()
      (source.toList.map fun s => .reached (.closed s.path)) t w' := by
  cases source with
  | none => exact ⟨_, _, does_pure () w⟩
  | some s => exact does_reach (.closed s.path) trivial (fun _ _ h => by cases h) w

theorem giveBack_eq (h : Holdings) :
    giveBack h = reach .closing >>= fun _ => joinWorkers h.workers >>= fun _ =>
      (match h.source with
        | some s => reach (.closed s.path)
        | none => pure ()) >>= fun _ => removeAll h.removals := by
  unfold giveBack
  cases h.source <;> rfl

/-- Closing gives back all that is held, and the status is found afterwards. -/
theorem release_close (rs : List Registration) (w : World) :
    ∃ told w', Release rs w told w' ∧
      close (Holdings.registerAll {} rs) w =
        .ok (exitStatus told.signals.interrupted,
          { status := some (exitStatus told.signals.interrupted) }) w' := by
  obtain ⟨q, entered, hreach, hq, hownq⟩ :=
    does_reach .closing trivial (fun _ _ h => by cases h) w
  obtain ⟨r, joined, hjoin, hr⟩ := joinedAll_joinWorkers (workersInOrder rs) entered
  obtain ⟨s, begun, hclosed, hs, howns⟩ := does_closeSource (lastSource rs) joined
  obtain ⟨t, removed, hremove, ht⟩ := attemptedAll_removeAll (filesInOrder rs) begun
  obtain ⟨u, hu, hforeign⟩ := passage_advance removed
  obtain ⟨v, w', hlog, hv, hownv⟩ :=
    does_log .shutdown (farewell removed.advance.signals.interrupted) removed.advance
  have hpassage := hq.append (hr.passage.append (hs.append (ht.passage.append hu)))
  refine ⟨removed.advance, w', ⟨entered, joined, begun, removed, q, r, s, t, u, v, ⟨hq, hownq⟩, hr,
    ⟨hs, howns⟩, ht, ⟨hu, own_of_foreign hforeign⟩, ⟨hv, hownv⟩, hpassage.interrupted⟩, ?_⟩
  have hopen : (Holdings.registerAll {} rs).status = none := status_registerAll {} rs
  have hwhole : (Holdings.registerAll {} rs).workers = workersInOrder rs ∧
      (Holdings.registerAll {} rs).source = lastSource rs := by
    rw [registerAll_eq]
    exact ⟨rfl, rfl⟩
  have hback : giveBack (Holdings.registerAll {} rs) w = .ok () removed := by
    rw [giveBack_eq, removals_registerAll, hwhole.1, hwhole.2, bind_of_ok hreach,
      bind_of_ok hjoin, bind_of_ok hclosed, hremove]
  have hlook : interrupted removed =
      .ok removed.advance.signals.interrupted removed.advance := rfl
  rw [close_eq hopen, bind_of_ok hback]
  unfold takeLeave
  rw [bind_of_ok hlook, bind_of_ok hlog]
  rfl

/-- A thread that runs on for a while is waited for. A file that is gone and one that cannot be
removed are both passed, and the failure gives the status although a signal comes at the last
moment. -/
example : (close (Holdings.registerAll {}
      [.files ["gone", "full", "kept"], .pidFile "pid",
        .workers [{ endsAt := 5, breaksDown := true }]])).endsIn
    { files := { nodes := [(["full"], .directory), (["kept"], .file 0), (["pid"], .file 1)],
                 contents := [[], []] }
      schedule := fun n => if n = 13 then [.signal Signal.terminate] else [] }
    (fun r w' => r.1 == 6 && w'.files.nodes == [(["full"], Node.directory)]) = true := by
  decide +kernel

end Headend.Service
