import Headend.Config.Reader
import Headend.Text.Utf8

/-!
# Recognizers

A section takes a line by a program that works on a context: the configuration in the making, what
is left of the line, and the records. The program is given the keyword. It reads values from the
line and changes the configuration in place, in any order; one that fails leaves the context as it
is at that point.
-/

namespace Headend.Config

/-- A configuration in the making: the store, and the index of the channel that is open. -/
structure Draft where
  store : Store := {}
  current : Option Nat := none
deriving DecidableEq

/-- The channel that is open, with its index. -/
def Draft.openedChannel (d : Draft) : Option (Nat × Channel) :=
  match d.current with
  | some i => (d.store.channels.entries[i]?).map (i, ·)
  | none => none

theorem openedChannel_eq_some {draft : Draft} {i : Nat} {ch : Channel}
    (h : draft.openedChannel = some (i, ch)) :
    draft.current = some i ∧ draft.store.channels.entries[i]? = some ch := by
  unfold Draft.openedChannel at h
  split at h
  · rename_i j hj
    obtain ⟨ch', hch, he⟩ := Option.map_eq_some_iff.1 h
    obtain ⟨rfl, rfl⟩ := Prod.mk.inj he
    exact ⟨hj, hch⟩
  · cases h

/-- What a section sees and changes while it takes a line. -/
structure Context where
  draft : Draft
  /-- What is left of the line. -/
  left : Cursor
  records : List Record := []

/-- A program on a context, for a keyword. -/
abbrev Recognizer := ReaderT String (EStateM ConfigError Context)

/-- What a section that does not fail answers. -/
inductive Recognized where
  /-- The keyword belongs to another section. -/
  | notMine
  | handled
deriving DecidableEq

namespace Recognizer

/-- Runs a program for a keyword on a context. -/
def run (r : Recognizer α) (keyword : String) (ctx : Context) :
    EStateM.Result ConfigError Context α :=
  r keyword ctx

/-- The keyword of the line. -/
def keyword : Recognizer String := read

/-- The store as it is. -/
def store : Recognizer Store := return (← get).draft.store

/-- Leaves records. -/
def say (records : List Record) : Recognizer Unit :=
  modify fun ctx => { ctx with records := ctx.records ++ records }

/-- Reads from what is left of the line. -/
def ofReader (r : Reader α) : Recognizer α := fun keyword ctx =>
  match r.run ⟨keyword, ctx.draft.current.getD 0⟩ ctx.left with
  | .ok v left => .ok v { ctx with left }
  | .error e left => .error e { ctx with left }

/-! ### Changes -/

/-- Replaces the store. -/
def changeStore (f : Store → Store) : Recognizer Unit :=
  modify fun ctx => { ctx with draft.store := f ctx.draft.store }

/-- Changes a part of the store. -/
def change (p : Part) (f : p.Params → p.Params) : Recognizer Unit :=
  changeStore fun s => s.setPart p (f (s.part p))

/-- The index of the channel that is open; it is an error if there is none. -/
def openedIndex : Recognizer Nat := do
  match (← get).draft.openedChannel with
  | some (i, _) => return i
  | none => throw (.noChannel (← keyword))

/-- Changes the channel at an index. -/
def changeChannel (i : Nat) (f : Channel → Channel) : Recognizer Unit :=
  changeStore fun s => { s with channels.entries := s.channels.entries.modify i f }

/-- Opens a channel at the end of the table, and tells its index. -/
def openChannel : Recognizer Nat := do
  match (← store).channels.openChannel with
  | .ok (i, table) =>
    modify fun ctx =>
      { ctx with
        draft := { store := { ctx.draft.store with channels := table }, current := some i } }
    return i
  | .error e => throw e

/-! ### Assignments -/

instance : MonadLift Reader Recognizer := ⟨ofReader⟩

/-- Reads a value and assigns it to a part of the store. -/
def assign (p : Part) (r : Reader α) (put : α → p.Params → p.Params) : Recognizer Unit := do
  let v ← r
  change p (put v)

/-- Reads a value and assigns it to the channel at an index. -/
def assignEntry (i : Nat) (r : Reader α) (put : α → Channel → Channel) : Recognizer Unit := do
  let v ← r
  changeChannel i (put v)

/-- Looks the open channel up, reads a value and assigns it to the channel. -/
def assignChannel (r : Reader α) (put : α → Channel → Channel) : Recognizer Unit := do
  assignEntry (← openedIndex) r put

/-- The size in octets from which a path is too long. -/
def pathLimit : Nat := 255

/-- The record of a path that is too long. -/
def pathRecord (keyword : String) : Record := .warn s!"{keyword} too long, ignored"

/-- Reads a path and assigns it to a part of the store; one that is too long is passed over. -/
def assignPath (p : Part) (put : String → p.Params → p.Params) : Recognizer Unit := do
  let raw ← Reader.word
  if pathLimit ≤ Text.size raw.toList then say [pathRecord (← keyword)]
  else change p (put raw)

/-! ### Runs of programs -/

section

variable (keyword : String) (ctx : Context)

@[simp] theorem run_bind (r : Recognizer α) (f : α → Recognizer β) :
    (r >>= f).run keyword ctx =
      match r.run keyword ctx with
      | .ok v ctx => (f v).run keyword ctx
      | .error e ctx => .error e ctx := by
  change EStateM.bind (r.run keyword) (fun v => (f v).run keyword) ctx = _
  unfold EStateM.bind
  cases r.run keyword ctx <;> rfl

@[simp] theorem run_pure (v : α) : (pure v : Recognizer α).run keyword ctx = .ok v ctx := rfl

@[simp] theorem run_keyword : Recognizer.keyword.run keyword ctx = .ok keyword ctx := rfl

@[simp] theorem run_store : store.run keyword ctx = .ok ctx.draft.store ctx := rfl

@[simp] theorem run_say (records : List Record) :
    (say records).run keyword ctx = .ok () { ctx with records := ctx.records ++ records } := rfl

@[simp] theorem run_change (p : Part) (f : p.Params → p.Params) :
    (change p f).run keyword ctx =
      .ok () { ctx with draft.store := ctx.draft.store.setPart p (f (ctx.draft.store.part p)) } :=
  rfl

@[simp] theorem run_changeChannel (i : Nat) (f : Channel → Channel) :
    (changeChannel i f).run keyword ctx =
      .ok ()
        { ctx with
          draft.store.channels.entries := ctx.draft.store.channels.entries.modify i f } :=
  rfl

@[simp] theorem run_openedIndex :
    openedIndex.run keyword ctx =
      match ctx.draft.openedChannel with
      | some (i, _) => .ok i ctx
      | none => .error (.noChannel keyword) ctx := by
  change Recognizer.run (match ctx.draft.openedChannel with
    | some (i, _) => pure i
    | none => Recognizer.keyword >>= fun keyword => throw (.noChannel keyword)) keyword ctx = _
  cases ctx.draft.openedChannel <;> rfl

@[simp] theorem run_openChannel :
    openChannel.run keyword ctx =
      match ctx.draft.store.channels.openChannel with
      | .ok (i, table) =>
        .ok i
          { ctx with
            draft := { store := { ctx.draft.store with channels := table }, current := some i } }
      | .error e => .error e ctx := by
  simp only [openChannel, run_bind, run_store]
  cases ctx.draft.store.channels.openChannel <;> rfl

theorem run_lift (r : Reader α) :
    (liftM r : Recognizer α).run keyword ctx =
      match r.run ⟨keyword, ctx.draft.current.getD 0⟩ ctx.left with
      | .ok v left => .ok v { ctx with left }
      | .error e left => .error e { ctx with left } := rfl

end

end Recognizer

end Headend.Config
