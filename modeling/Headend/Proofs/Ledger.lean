import Headend.Host.World
import Headend.Proofs.FileIdentity

/-!
# What a run leaves behind

A run adds events to the trace and leads to a later tree, in which the files that it says it removed
are gone (`Ledger`). This holds of each step, of what others do before a step, and of one part of a
run after another, so a program is described by the events that it adds (`Run.Leaves`).

Facts: `ledger_advance` (what others do), `Run.leaves_bind` and `Run.leaves_step` (how a description
is put together), `Run.leaves_createFile`, `Run.leaves_removeFile` and the like (the steps).
-/

namespace Headend.Host

/-- An event that is brought about by others. -/
def Event.IsForeign : Event → Prop
  | signal .. | listed .. => True
  | _ => False

/-- Between two worlds the events happened, and the files that were removed stay gone. -/
structure Ledger (w : World) (t : List Event) (w' : World) : Prop where
  trace : w'.trace = w.trace ++ t
  later : w.files.Later w'.files
  gone : w.files.Sound → ∀ path id, .reached (.removed path id) ∈ t → w'.files.Gone id

variable {w w' w'' : World} {s t : List Event} {e : Event}

theorem Ledger.nil (w : World) : Ledger w [] w :=
  ⟨(List.append_nil _).symm, .refl _, fun _ _ _ h => absurd h List.not_mem_nil⟩

theorem Ledger.append (h : Ledger w s w') (h' : Ledger w' t w'') : Ledger w (s ++ t) w'' := by
  refine ⟨?_, h.later.trans h'.later, fun hs path id hmem => ?_⟩
  · rw [h'.trace, h.trace, List.append_assoc]
  · rcases List.mem_append.1 hmem with hmem | hmem
    · exact (h.gone hs path id hmem).later h'.later
    · exact h'.gone (h.later.sound hs) path id hmem

theorem ledger_of_later (ht : w'.trace = w.trace ++ t) (hl : w.files.Later w'.files)
    (hn : ∀ path id, .reached (.removed path id) ∉ t) : Ledger w t w' :=
  ⟨ht, hl, fun _ path id hmem => absurd hmem (hn path id)⟩

theorem ledger_silent (ht : w'.trace = w.trace) (hl : w.files.Later w'.files) : Ledger w [] w' :=
  ledger_of_later (ht.trans (List.append_nil _).symm) hl fun _ _ => List.not_mem_nil

theorem ledger_single (ht : w'.trace = w.trace ++ [e]) (hl : w.files.Later w'.files)
    (hn : ∀ path id, e ≠ .reached (.removed path id)) : Ledger w [e] w' :=
  ledger_of_later ht hl fun path id hmem => hn path id (List.mem_singleton.1 hmem).symm

theorem ledger_emit (w : World) (hn : ∀ path id, e ≠ .reached (.removed path id)) :
    Ledger w [e] (w.emit e) :=
  ledger_single rfl (.refl _) hn

/-! ### What others do -/

theorem ledger_deliver (w : World) (n : Int) :
    Ledger w [.signal n (w.signals.handle n).1] (w.deliver n) :=
  ledger_single rfl (.refl _) fun _ _ h => by cases h

theorem ledger_meddle (w : World) (i : Interference) :
    ∃ t, Ledger w t (w.meddle i) ∧ ∀ e ∈ t, e.IsForeign := by
  have hsilent : ∀ files, w.files.Later files →
      ∃ t, Ledger w t { w with files } ∧ ∀ e ∈ t, e.IsForeign := fun files hl =>
    ⟨[], ledger_silent rfl hl, List.forall_mem_nil _⟩
  have hsingle : ∀ {e w'}, Ledger w [e] w' → e.IsForeign →
      ∃ t, Ledger w t w' ∧ ∀ e ∈ t, e.IsForeign := fun hl he =>
    ⟨_, hl, List.forall_mem_singleton.2 he⟩
  cases i with
  | signal n => exact hsingle (ledger_deliver w n) trivial
  | rename a b => exact hsilent _ (FileSystem.later_rename w.files a b)
  | remove path =>
    unfold World.meddle
    dsimp only
    split
    · rename_i id files h
      exact hsilent files (FileSystem.later_removeFile h)
    · exact hsilent w.files (.refl _)
  | removeTree path => exact hsilent _ (FileSystem.later_removeTree w.files path)
  | makeDirectory path => exact hsilent _ (FileSystem.later_makeDirectory w.files path)
  | write path content => exact hsilent _ (FileSystem.later_writeFile w.files path content)
  | list => exact hsingle (ledger_emit w fun _ _ h => by cases h) trivial

theorem ledger_meddleAll (is : List Interference) (w : World) :
    ∃ t, Ledger w t (w.meddleAll is) ∧ ∀ e ∈ t, e.IsForeign := by
  induction is generalizing w with
  | nil => exact ⟨[], .nil w, List.forall_mem_nil _⟩
  | cons i rest ih =>
    obtain ⟨s, hs, hforeign⟩ := ledger_meddle w i
    obtain ⟨t, ht, hforeign'⟩ := ih (w.meddle i)
    exact ⟨s ++ t, hs.append ht, List.forall_mem_append.2 ⟨hforeign, hforeign'⟩⟩

theorem ledger_advance (w : World) : ∃ t, Ledger w t w.advance ∧ ∀ e ∈ t, e.IsForeign := by
  obtain ⟨t, ht, hforeign⟩ := ledger_meddleAll (w.schedule w.clock) w
  exact ⟨t, ⟨ht.trace, ht.later, ht.gone⟩, hforeign⟩

theorem ledger_slept (w : World) (n : Nat) :
    ∃ t, Ledger w (.sleep n :: t) (w.slept n) ∧ ∀ e ∈ t, e.IsForeign := by
  have hsleep : Ledger w [.sleep n] (w.emit (.sleep n)) := ledger_emit w fun _ _ h => by cases h
  unfold World.slept
  dsimp only
  split
  · rename_i entry rest h
    obtain ⟨t, ht, hforeign⟩ :=
      ledger_meddleAll entry { w.emit (.sleep n) with agenda := rest }
    exact ⟨t, hsleep.append ⟨ht.trace, ht.later, ht.gone⟩, hforeign⟩
  · split
    · refine ⟨_, hsleep.append (ledger_deliver _ Signal.terminate), ?_⟩
      exact List.forall_mem_singleton.2 trivial
    · exact ⟨[], hsleep, List.forall_mem_nil _⟩

/-! ### Steps of the process -/

theorem ledger_record (w : World) (a : Area) (r : Record) :
    Ledger w [.log a r] (w.record a r) := by
  have hlog : Ledger w [.log a r] (w.emit (.log a r)) := ledger_emit w fun _ _ h => by cases h
  unfold World.record
  dsimp only
  split
  · refine ledger_single rfl ?_ fun _ _ h => by cases h
    unfold LogSink.write
    split
    · exact FileSystem.later_append _ _ _
    · exact .refl _
  · exact hlog

theorem later_attach (sink : LogSink) (fs : FileSystem) (path : String) :
    fs.Later (sink.attach fs path).files := by
  unfold LogSink.attach
  split
  · rename_i id fs' h
    exact FileSystem.later_openForWriting h
  · exact .refl _

theorem later_reopen (sink : LogSink) (fs : FileSystem) : fs.Later (sink.reopen fs).files := by
  unfold LogSink.reopen
  split
  · split
    · rename_i id fs' h
      exact FileSystem.later_openForWriting h
    · exact .refl _
  · exact .refl _

/-! ### Parts of a run -/

namespace Run

/-- Whether a part of a run ends with a value and in a world that pass a test. -/
def endsIn (m : Run α) (w : World) (test : α → World → Bool) : Bool :=
  match m w with
  | .ok a w' => test a w'
  | .error _ _ => false

theorem exists_of_endsIn {m : Run α} {w : World} {test : α → World → Bool}
    (h : m.endsIn w test = true) : ∃ a w', m w = .ok a w' ∧ test a w' = true := by
  unfold endsIn at h
  split at h
  · rename_i a w' hw
    exact ⟨a, w', hw, h⟩
  · cases h

/-- Whenever a part of a run ends with a value, the events that it added fit the value. -/
def Leaves (m : Run α) (Q : α → List Event → Prop) : Prop :=
  ∀ w a w', m w = .ok a w' → ∃ t, Ledger w t w' ∧ Q a t

variable {m : Run α} {P : α → List Event → Prop} {Q : β → List Event → Prop}

theorem leaves_mono {P' : α → List Event → Prop} (hm : m.Leaves P) (h : ∀ a t, P a t → P' a t) :
    m.Leaves P' := by
  intro w a w' hw
  obtain ⟨t, ht, hp⟩ := hm w a w' hw
  exact ⟨t, ht, h a t hp⟩

theorem leaves_pure {a : α} (h : P a []) : (pure a : Run α).Leaves P := by
  intro w b w' hw
  cases hw
  exact ⟨[], .nil w, h⟩

theorem leaves_bind {f : α → Run β} (hm : m.Leaves P)
    (hf : ∀ a s, P a s → (f a).Leaves fun b t => Q b (s ++ t)) : (m >>= f).Leaves Q := by
  intro w b w' hw
  change EStateM.bind m f w = .ok b w' at hw
  unfold EStateM.bind at hw
  split at hw
  · rename_i a mid hmid
    obtain ⟨s, hs, hp⟩ := hm w a mid hmid
    obtain ⟨t, ht, hq⟩ := hf a s hp mid b w' hw
    exact ⟨s ++ t, hs.append ht, hq⟩
  · cases hw

theorem leaves_arithmetic {r : Except Tuner.Overflow α} (h : ∀ a, r = .ok a → P a []) :
    (arithmetic r).Leaves P := by
  cases r with
  | ok a => exact leaves_pure (h a rfl)
  | error o => intro w a w' hw; cases hw

theorem leaves_agendaLength {P : Nat → List Event → Prop} (h : ∀ n, P n []) :
    agendaLength.Leaves P := by
  intro w n w' hw
  cases hw
  exact ⟨[], .nil w, h _⟩

/-- A step adds what others brought about before it, and then its own events. -/
theorem leaves_step {f : World → α × World}
    (h : ∀ w u, (∀ e ∈ u, e.IsForeign) → ∃ t, Ledger w t (f w).2 ∧ P (f w).1 (u ++ t)) :
    (step f).Leaves P := by
  intro w a w' hw
  obtain ⟨u, hu, hforeign⟩ := ledger_advance w
  obtain ⟨t, ht, hp⟩ := h w.advance u hforeign
  cases hw
  exact ⟨u ++ t, hu.append ht, hp⟩

theorem leaves_look {f : World → α} (h : ∀ a u, (∀ e ∈ u, e.IsForeign) → P a u) :
    (look f).Leaves P :=
  leaves_step fun w u hu => ⟨[], .nil w, by rw [List.append_nil]; exact h _ u hu⟩

section
variable {P : Unit → List Event → Prop}

theorem leaves_change {f : World → World}
    (h : ∀ w u, (∀ e ∈ u, e.IsForeign) → ∃ t, Ledger w t (f w) ∧ P () (u ++ t)) :
    (change f).Leaves P :=
  leaves_step h

theorem leaves_log {a : Area} {r : Record}
    (h : ∀ u, (∀ e ∈ u, e.IsForeign) → P () (u ++ [.log a r])) : (log a r).Leaves P := by
  refine leaves_change fun w u hu => ⟨[.log a r], ?_, h u hu⟩
  exact ledger_record w a r

theorem leaves_reach {x : Milestone} (hx : ∀ path id, x ≠ .removed path id)
    (h : ∀ u, (∀ e ∈ u, e.IsForeign) → P () (u ++ [.reached x])) : (reach x).Leaves P := by
  refine leaves_change fun w u hu => ⟨[.reached x], ?_, h u hu⟩
  exact ledger_emit w fun path id he => hx path id (Event.reached.inj he)

theorem leaves_interrupt {code : ExitCode}
    (h : ∀ u, (∀ e ∈ u, e.IsForeign) → P () (u ++ [.reached (.failed code)])) :
    (interrupt code).Leaves P := by
  refine leaves_change fun w u hu => ⟨[.reached (.failed code)], ?_, h u hu⟩
  exact ledger_single rfl (.refl _) fun _ _ he => by cases he

theorem leaves_arm {seconds : UInt32}
    (h : ∀ u, (∀ e ∈ u, e.IsForeign) → P () (u ++ [.alarm seconds])) : (arm seconds).Leaves P := by
  refine leaves_change fun w u hu => ⟨[.alarm seconds], ?_, h u hu⟩
  exact ledger_emit w fun _ _ he => by cases he

theorem leaves_setTuned {tuned : Bool} (h : ∀ u, (∀ e ∈ u, e.IsForeign) → P () u) :
    (setTuned tuned).Leaves P := by
  refine leaves_change fun w u hu => ⟨[], ledger_silent rfl (.refl _), ?_⟩
  rw [List.append_nil]
  exact h u hu

theorem leaves_sleep {n : Nat}
    (h : ∀ u v, (∀ e ∈ u, e.IsForeign) → (∀ e ∈ v, e.IsForeign) → P () (u ++ .sleep n :: v)) :
    (sleep n).Leaves P := by
  refine leaves_change fun w u hu => ?_
  obtain ⟨v, hv, hforeign⟩ := ledger_slept w n
  exact ⟨_, hv, h u v hu hforeign⟩

end

theorem leaves_takeSignal {P : Option Int → List Event → Prop}
    (h : ∀ n u, (∀ e ∈ u, e.IsForeign) → P n u) : takeSignal.Leaves P :=
  leaves_step fun w u hu =>
    ⟨[], ledger_silent rfl (.refl _), by rw [List.append_nil]; exact h _ u hu⟩

/-! ### Files -/

theorem attempt_ok {w w' : World} {a : α}
    {request : FileSystem → Except Failure (α × FileSystem)}
    (h : w.attempt request = (.ok a, w')) :
    ∃ files, request w.files = .ok (a, files) ∧ w' = { w with files } := by
  unfold World.attempt at h
  split at h
  · cases h
  · split at h
    · rename_i a' files hr
      obtain ⟨ha, hw⟩ := Prod.mk.inj h
      cases ha
      exact ⟨files, hr, hw.symm⟩
    · cases h

theorem attempt_error {w w' : World} {e : Failure}
    {request : FileSystem → Except Failure (α × FileSystem)}
    (h : w.attempt request = (.error e, w')) : w' = w := by
  unfold World.attempt at h
  split at h
  · exact (Prod.mk.inj h).2.symm
  · split at h
    · cases h
    · exact (Prod.mk.inj h).2.symm

theorem leaves_createFile {path : String} {P : Except Failure FileId → List Event → Prop}
    (hok : ∀ id u, (∀ e ∈ u, e.IsForeign) → P (.ok id) (u ++ [.reached (.created path id)]))
    (herror : ∀ e u, (∀ e ∈ u, e.IsForeign) → P (.error e) u) : (createFile path).Leaves P := by
  refine leaves_step fun w u hu => ?_
  cases hr : w.attempt (·.openForWriting path true) with
  | mk result w' =>
    cases result with
    | ok id =>
      obtain ⟨files, hf, rfl⟩ := attempt_ok hr
      refine ⟨_, ?_, hok id u hu⟩
      exact ledger_single rfl (FileSystem.later_openForWriting hf) fun _ _ h => by cases h
    | error e =>
      obtain rfl := attempt_error hr
      exact ⟨[], .nil _, by rw [List.append_nil]; exact herror e u hu⟩

theorem leaves_writeText {id : FileId} {text : String} {P : Except Failure Unit → List Event → Prop}
    (h : ∀ r u, (∀ e ∈ u, e.IsForeign) → P r u) : (writeText id text).Leaves P := by
  refine leaves_step fun w u hu => ⟨[], ?_, by rw [List.append_nil]; exact h _ u hu⟩
  split
  · exact ledger_silent rfl (FileSystem.later_append _ _ _)
  · exact ledger_silent rfl (FileSystem.later_append _ _ _)

theorem leaves_removeFile {path : String} {P : Except Failure Unit → List Event → Prop}
    (hok : ∀ id u, (∀ e ∈ u, e.IsForeign) → P (.ok ()) (u ++ [.reached (.removed path id)]))
    (herror : ∀ e u, (∀ e ∈ u, e.IsForeign) →
      P (.error e) (u ++ [.reached (.notRemoved path e)])) : (removeFile path).Leaves P := by
  refine leaves_step fun w u hu => ?_
  cases hr : w.attempt (·.removeFile path) with
  | mk result w' =>
    cases result with
    | ok id =>
      obtain ⟨files, hf, rfl⟩ := attempt_ok hr
      refine ⟨[.reached (.removed path id)], ⟨rfl, ?_, fun hs path' id' hmem => ?_⟩, hok id u hu⟩
      · exact FileSystem.later_removeFile hf
      · cases List.mem_singleton.1 hmem
        exact FileSystem.gone_of_removeFile hs hf
    | error e =>
      obtain rfl := attempt_error hr
      exact ⟨_, ledger_emit _ (fun _ _ h => by cases h), herror e u hu⟩

theorem leaves_readNode {node : Node} {P : Except Failure Text.Octets → List Event → Prop}
    (h : ∀ r u, (∀ e ∈ u, e.IsForeign) → P r u) : (readNode node).Leaves P := by
  cases node with
  | directory => exact leaves_look h
  | file id => exact leaves_look h

theorem leaves_attachLog {path : String} {P : Except Failure Unit → List Event → Prop}
    (hok : ∀ u, (∀ e ∈ u, e.IsForeign) → P (.ok ()) (u ++ [.reached (.logAttached path)]))
    (herror : ∀ e u, (∀ e ∈ u, e.IsForeign) → P (.error e) u) : (attachLog path).Leaves P := by
  refine leaves_step fun w u hu => ?_
  have hl := later_attach w.sink w.files path
  dsimp only
  cases (w.sink.attach w.files path).result with
  | ok _ =>
    exact ⟨_, ledger_single rfl hl (fun _ _ h => by cases h), hok u hu⟩
  | error e =>
    refine ⟨[], ledger_silent rfl hl, ?_⟩
    rw [List.append_nil]
    exact herror e u hu

theorem leaves_reopenLog {P : Except Failure Unit → List Event → Prop}
    (h : ∀ r u, (∀ e ∈ u, e.IsForeign) → P r u) : reopenLog.Leaves P :=
  leaves_step fun w u hu =>
    ⟨[], ledger_silent rfl (later_reopen w.sink w.files),
      by rw [List.append_nil]; exact h _ u hu⟩

end Run

end Headend.Host
