import Headend.Config.Dispatch
import Mathlib.Data.List.Basic

/-!
# Directives

What a keyword stands for: it opens a channel, changes the channel that is open, or changes one part
of the store. A directive reads its value first and changes afterwards, so one that fails changes
nothing. A program of a section is a directive if it does not change before it has read everything,
whatever it does in between.

Facts: what each kind of directive has done when it succeeds (`apply_openChannel`,
`apply_channel`, `apply_parameter`), `read_parameter` and `read_channel` (programs that read first
are directives).
-/

namespace Headend.Config

/-- A change to a value, with the records that it leaves. -/
abbrev Change (α : Type) := α → α × List Record

namespace Reader

/-- Sets what was read. -/
def set (read : Reader v) (put : v → α → α) : Reader (Change α) := do
  let v ← read
  return fun a => (put v a, [])

/-- Sets what was read, and leaves the records that belong to the value. -/
def setSaying (read : Reader v) (put : v → α → α) (said : v → List Record) :
    Reader (Change α) := do
  let v ← read
  return fun a => (put v a, said v)

/-- Sets a path; one that is too long is passed over with a warning. -/
def setPath (put : String → α → α) : Reader (Change α) := do
  let keyword := (← read).keyword
  let raw ← word
  if Recognizer.pathLimit ≤ Text.size raw.toList then
    return fun a => (a, [Recognizer.pathRecord keyword])
  return fun a => (put raw a, [])

end Reader

/-- What a keyword stands for. -/
inductive Directive where
  /-- Opens a channel. -/
  | openChannel
  /-- Changes the open channel; some records are left before anything is read. -/
  | channel (first : List Record) (read : Reader (Change Channel))
  /-- Changes a part of the store. -/
  | parameter (part : Part) (read : Reader (Change part.Params))

/-- What a directive did: the draft it leaves or why it failed, the records, and what is left of
the line. -/
structure Applied where
  result : Except ConfigError Draft
  records : List Record
  left : Cursor

namespace Directive

/-- Applies a change that was read, or passes the failure on. -/
def finish (first : List Record) (change : α → Draft) :
    EStateM.Result ConfigError Cursor (α × List Record) → Applied
  | .ok (v, records) left => ⟨.ok (change v), first ++ records, left⟩
  | .error e left => ⟨.error e, first, left⟩

/-- Reads a change to a value and carries it out. -/
def readChange (read : Reader (Change α)) (site : Site) (c : Cursor) (v : α) :
    EStateM.Result ConfigError Cursor (α × List Record) :=
  match read.run site c with
  | .ok change left => .ok (change v) left
  | .error e left => .error e left

/-- Carries out the directive of a keyword on a draft, with the line after the keyword. -/
def apply (d : Directive) (keyword : String) (draft : Draft) (c : Cursor) : Applied :=
  match d with
  | openChannel =>
    match draft.store.channels.openChannel with
    | .ok (i, table) =>
      ⟨.ok { store := { draft.store with channels := table }, current := some i },
        [.info s!"New channel, current number {i}"], c⟩
    | .error e => ⟨.error e, [], c⟩
  | channel first read =>
    match draft.openedChannel with
    | some (i, ch) =>
      finish first
        (fun ch' =>
          { draft with store := { draft.store with channels := draft.store.channels.set i ch' } })
        (readChange read ⟨keyword, i⟩ c ch)
    | none => ⟨.error (.noChannel keyword), first, c⟩
  | parameter part read =>
    finish [] (fun v => { draft with store := draft.store.setPart part v })
      (readChange read ⟨keyword, draft.current.getD 0⟩ c (draft.store.part part))

/-! ### What a directive that succeeds has done -/

theorem readChange_ok {read : Reader (Change α)} {site : Site} {c left : Cursor} {v : α}
    {r : α × List Record} (h : readChange read site c v = .ok r left) :
    ∃ change, read.run site c = .ok change left ∧ change v = r := by
  unfold readChange at h
  split at h
  · rename_i change left' hr
    cases h
    exact ⟨change, hr, rfl⟩
  · cases h

theorem finish_ok {first : List Record} {change : α → Draft} {draft' : Draft}
    {r : EStateM.Result ConfigError Cursor (α × List Record)}
    (h : (finish first change r).result = .ok draft') :
    ∃ v records left, r = .ok (v, records) left ∧ draft' = change v := by
  unfold finish at h
  split at h
  · rename_i v records left
    exact ⟨v, records, left, rfl, (Except.ok.inj h).symm⟩
  · cases h

theorem apply_openChannel {keyword : String} {draft draft' : Draft} {c : Cursor}
    (h : (apply .openChannel keyword draft c).result = .ok draft') :
    draft.store.channels.length < maxChannels ∧
      draft' =
        { store :=
            { draft.store with
              channels.entries := draft.store.channels.entries ++ [{ readiness := .almostReady }] }
          current := some draft.store.channels.length } := by
  simp only [apply] at h
  split at h
  · rename_i i table ho
    cases h
    unfold ChannelTable.openChannel at ho
    split at ho
    · rename_i hl
      cases ho
      exact ⟨hl, rfl⟩
    · cases ho
  · cases h

theorem apply_channel {first : List Record} {read : Reader (Change Channel)} {keyword : String}
    {draft draft' : Draft} {c : Cursor}
    (h : (apply (.channel first read) keyword draft c).result = .ok draft') :
    ∃ i ch change left, draft.openedChannel = some (i, ch) ∧
      read.run ⟨keyword, i⟩ c = .ok change left ∧
      draft' =
        { draft with
          store :=
            { draft.store with channels := draft.store.channels.set i (change ch).1 } } := by
  simp only [apply] at h
  split at h
  · rename_i i ch ho
    obtain ⟨v, records, left, hr, rfl⟩ := finish_ok h
    obtain ⟨change, hc, hv⟩ := readChange_ok hr
    exact ⟨i, ch, change, left, ho, hc, by rw [hv]⟩
  · cases h

theorem apply_parameter {p : Part} {read : Reader (Change p.Params)} {keyword : String}
    {draft draft' : Draft} {c : Cursor}
    (h : (apply (.parameter p read) keyword draft c).result = .ok draft') :
    ∃ change left, read.run ⟨keyword, draft.current.getD 0⟩ c = .ok change left ∧
      draft' =
        { draft with store := draft.store.setPart p (change (draft.store.part p)).1 } := by
  obtain ⟨v, records, left, hr, rfl⟩ := finish_ok h
  obtain ⟨change, hc, hv⟩ := readChange_ok hr
  exact ⟨change, left, hc, by rw [hv]⟩

end Directive

/-! ### Directives as programs -/

open Recognizer

/-- Carries a directive out, or fails and changes nothing. -/
def Directive.recognize (d : Directive) : Recognizer Recognized := fun keyword ctx =>
  let done := d.apply keyword ctx.draft ctx.left
  match done.result with
  | .ok draft => .ok .handled { draft, left := done.left, records := ctx.records ++ done.records }
  | .error e =>
    .error e { draft := ctx.draft, left := done.left, records := ctx.records ++ done.records }

theorem Directive.recognize_ne_notMine (d : Directive) (k : String) (ctx ctx' : Context) :
    d.recognize.run k ctx ≠ .ok .notMine ctx' := by
  simp only [Recognizer.run, recognize]
  cases (d.apply k ctx.draft ctx.left).result <;> simp

theorem read_parameter {p : Part} {r : Reader α} {body : α → Recognizer Recognized}
    {made : α → Change p.Params}
    (h : ∀ v keyword ctx, (body v).run keyword ctx =
      .ok .handled
        { ctx with
          draft.store := ctx.draft.store.setPart p (made v (ctx.draft.store.part p)).1
          records := ctx.records ++ (made v (ctx.draft.store.part p)).2 }) :
    (do let v ← r; body v) =
      (Directive.parameter p (do let v ← r; return made v)).recognize := by
  funext keyword ctx
  change Recognizer.run (liftM r >>= body) keyword ctx = _
  simp only [run_bind, run_lift, Directive.recognize, Directive.apply, Directive.readChange,
    Reader.run_bind]
  cases r.run ⟨keyword, ctx.draft.current.getD 0⟩ ctx.left with
  | error e left => simp only [Directive.finish, List.append_nil]
  | ok v left => simp only [Directive.finish, Reader.run_pure, h, List.nil_append]

theorem read_channel {r : Reader α} {body : Nat → α → Recognizer Recognized}
    {made : α → Change Channel}
    (h : ∀ i v ch keyword ctx, ctx.draft.store.channels.entries[i]? = some ch →
      (body i v).run keyword ctx =
        .ok .handled
          { ctx with
            draft.store.channels := ctx.draft.store.channels.set i (made v ch).1
            records := ctx.records ++ (made v ch).2 }) :
    (do let i ← openedIndex; let v ← r; body i v) =
      (Directive.channel [] (do let v ← r; return made v)).recognize := by
  funext keyword ctx
  change Recognizer.run (openedIndex >>= fun i => liftM r >>= body i) keyword ctx = _
  simp only [run_bind, run_openedIndex, Directive.recognize, Directive.apply]
  cases ho : ctx.draft.openedChannel with
  | none => simp only [List.append_nil]
  | some opened =>
    obtain ⟨i, ch⟩ := opened
    obtain ⟨hc, hi⟩ := openedChannel_eq_some ho
    simp only [run_lift, hc, Option.getD_some, Directive.readChange, Reader.run_bind]
    cases r.run ⟨keyword, i⟩ ctx.left with
    | error e left => simp only [Directive.finish, List.append_nil]
    | ok v left =>
      simp only [Directive.finish, Reader.run_pure, List.nil_append, ← hc]
      exact h i v ch keyword _ hi

theorem say_channel (first : List Record) (r : Reader (Change Channel)) :
    (do say first; (Directive.channel [] r).recognize) = (Directive.channel first r).recognize := by
  funext keyword ctx
  change (Directive.channel [] r).recognize keyword { ctx with records := ctx.records ++ first } = _
  simp only [Directive.recognize, Directive.apply]
  cases ctx.draft.openedChannel with
  | none => simp only [List.append_nil]
  | some opened =>
    obtain ⟨i, ch⟩ := opened
    dsimp only
    cases Directive.readChange r ⟨keyword, i⟩ ctx.left ch with
    | ok v left => simp only [Directive.finish, List.append_assoc, List.nil_append]
    | error e left => simp only [Directive.finish, List.append_nil]

/-! ### Assignments as directives -/

theorem assign_handled (p : Part) (r : Reader α) (put : α → p.Params → p.Params) :
    (do assign p r put; return .handled) = (Directive.parameter p (r.set put)).recognize := by
  simp only [assign, bind_assoc]
  exact read_parameter fun v keyword ctx => by
    simp only [run_bind, run_change, run_pure, List.append_nil]

/-- A second change to the same part belongs to the assignment. -/
theorem assign_change_handled (p : Part) (r : Reader α) (put : α → p.Params → p.Params)
    (f : p.Params → p.Params) :
    (do assign p r put; change p f; return .handled) =
      (Directive.parameter p (r.set fun v a => f (put v a))).recognize := by
  simp only [assign, bind_assoc]
  exact read_parameter fun v keyword ctx => by
    simp only [run_bind, run_change, run_pure, List.append_nil, Store.part_setPart,
      Store.setPart_setPart]

/-- Records that are told by what the store has become belong to the value that was assigned. -/
theorem assign_say_handled {p : Part} {r : Reader α} {put : α → p.Params → p.Params}
    {said : Store → List Record} {saidOf : α → List Record}
    (h : ∀ (s : Store) v, said (s.setPart p (put v (s.part p))) = saidOf v) :
    (do assign p r put; say (said (← store)); return .handled) =
      (Directive.parameter p (r.setSaying put saidOf)).recognize := by
  simp only [assign, bind_assoc]
  exact read_parameter fun v keyword ctx => by
    simp only [run_bind, run_change, run_store, run_say, run_pure, h]

theorem assignPath_handled (p : Part) (put : String → p.Params → p.Params) :
    (do assignPath p put; return .handled) =
      (Directive.parameter p (Reader.setPath put)).recognize := by
  funext keyword ctx
  change Recognizer.run (assignPath p put >>= fun _ => pure Recognized.handled) keyword ctx = _
  simp only [assignPath, run_bind, run_lift, Directive.recognize, Directive.apply,
    Directive.readChange, Reader.setPath, Reader.run_bind, Reader.run_read]
  cases Reader.word.run ⟨keyword, ctx.draft.current.getD 0⟩ ctx.left with
  | error e left => simp only [Directive.finish, List.append_nil]
  | ok raw left =>
    by_cases hlong : pathLimit ≤ Text.size raw.toList
    · simp only [hlong, if_true, run_bind, run_keyword, run_say, run_pure, Reader.run_pure,
        Directive.finish, List.nil_append, Store.setPart_part]
    · simp only [hlong, if_false, run_change, run_pure, Reader.run_pure, Directive.finish,
        List.append_nil]

/-- A value may be reported before it is assigned. -/
theorem say_change_handled (p : Part) (r : Reader α) (put : α → p.Params → p.Params)
    (said : α → List Record) :
    (do let v ← r; say (said v); change p (put v); return .handled) =
      (Directive.parameter p (r.setSaying put said)).recognize :=
  read_parameter fun v keyword ctx => by
    simp only [run_bind, run_say, run_change, run_pure]

/-- Two changes to one part are one. -/
theorem change_change (p : Part) (f g : p.Params → p.Params) (r : Recognizer α) :
    (do change p f; change p g; r) = (do change p fun a => g (f a); r) := by
  funext keyword ctx
  change Recognizer.run (do change p f; change p g; r) keyword ctx =
    Recognizer.run (do change p fun a => g (f a); r) keyword ctx
  simp only [run_bind, run_change, Store.part_setPart, Store.setPart_setPart]

theorem modify_entries {t : ChannelTable} {i : Nat} {ch : Channel}
    (h : t.entries[i]? = some ch) (f : Channel → Channel) :
    t.entries.modify i f = t.entries.set i (f ch) := by
  have hset := List.modify_eq_set_getElem? f i t.entries
  rwa [h] at hset

theorem assignEntry_handled (r : Reader α) (put : α → Channel → Channel) :
    (do let i ← openedIndex; assignEntry i r put; return .handled) =
      (Directive.channel [] (r.set put)).recognize := by
  simp only [assignEntry, bind_assoc]
  exact read_channel fun i v ch keyword ctx hi => by
    simp only [run_bind, run_changeChannel, run_pure, modify_entries hi, ChannelTable.set,
      List.append_nil]

theorem assignChannel_handled (r : Reader α) (put : α → Channel → Channel) :
    (do assignChannel r put; return .handled) =
      (Directive.channel [] (r.set put)).recognize := by
  simp only [assignChannel, bind_assoc, assignEntry_handled]

/-- A value may be reported before it is assigned to the channel. -/
theorem say_changeChannel_handled (r : Reader α) (put : α → Channel → Channel)
    (said : α → List Record) :
    (do let i ← openedIndex; let v ← r; say (said v); changeChannel i (put v); return .handled) =
      (Directive.channel [] (r.setSaying put said)).recognize :=
  read_channel fun i v ch keyword ctx hi => by
    simp only [run_bind, run_say, run_changeChannel, run_pure, modify_entries hi,
      ChannelTable.set]

theorem openChannel_handled :
    (do
      let i ← openChannel
      say [.info s!"New channel, current number {i}"]
      return .handled) = Directive.openChannel.recognize := by
  funext keyword ctx
  change Recognizer.run (openChannel >>= fun i =>
    say [.info s!"New channel, current number {i}"] >>= fun _ => pure Recognized.handled)
    keyword ctx = _
  simp only [run_bind, run_openChannel, run_say, run_pure, Directive.recognize, Directive.apply]
  cases ctx.draft.store.channels.openChannel with
  | ok opened => rfl
  | error e => simp only [List.append_nil]

end Headend.Config
