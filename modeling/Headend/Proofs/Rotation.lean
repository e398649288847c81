import Headend.Host.LogSink
import Headend.Proofs.Openings
import Mathlib.Data.List.Induction

/-!
# Rotating the log file

The log file is attached and opened again, written to, and moved about by others, in any order. What
is written goes to the file that was opened last, wherever it stands by now, until an opening
succeeds again. An opening that fails changes nothing.

Facts: `rotates_after` (what one step does), `run_sink` (the sink knows the last opening),
`contentOf_run` (what each file holds in the end), `file_run_eq_none_iff` (no file is open as long
as no path was attached), `rotation_kept`.
-/

namespace Headend.Host

open Headend.Text (Octets)

/-! ### What others do -/

/-- What others do to the tree around the log file. No file is written. -/
inductive Rearrangement where
  | rename (a b : String)
  | remove (path : String)
  | removeTree (path : String)
  | makeDirectory (path : String)

namespace FileSystem

/-- The tree as others leave it. What cannot be removed stays. -/
def rearrange (fs : FileSystem) : Rearrangement → FileSystem
  | .rename a b => fs.rename a b
  | .remove path =>
    match fs.removeFile path with
    | .ok (_, fs) => fs
    | .error _ => fs
  | .removeTree path => fs.removeTree path
  | .makeDirectory path => fs.makeDirectory path

theorem later_rearrange (fs : FileSystem) (r : Rearrangement) : Later fs (fs.rearrange r) := by
  cases r with
  | rename a b => exact later_rename fs a b
  | remove path =>
    unfold rearrange
    dsimp only
    split
    · exact later_removeFile ‹_›
    · exact Later.refl fs
  | removeTree path => exact later_removeTree fs path
  | makeDirectory path => exact later_makeDirectory fs path

theorem contents_rename (fs : FileSystem) (a b : String) :
    (fs.rename a b).contents = fs.contents := by
  unfold rename
  split
  · split
    · rfl
    · split
      · split <;> rfl
      · split <;> rfl
      · split <;> rfl
      · split <;> rfl
      · rfl
  · rfl

theorem contents_makeFrom (names : List String) :
    ∀ (fs : FileSystem) (p : Place), (fs.makeFrom p names).contents = fs.contents := by
  induction names with
  | nil => exact fun _ _ => rfl
  | cons name rest ih =>
    intro fs p
    rw [makeFrom]
    split
    · exact ih fs _
    · exact ih _ _
    · rfl

/-- Moving entries about and removing them leaves the contents as they are. -/
theorem contents_rearrange (fs : FileSystem) (r : Rearrangement) :
    (fs.rearrange r).contents = fs.contents := by
  cases r with
  | rename a b => exact contents_rename fs a b
  | remove path =>
    unfold rearrange
    dsimp only
    split
    · obtain ⟨p, -, hfs⟩ := removeFile_ok ‹_›
      rw [hfs]
      rfl
    · rfl
  | removeTree path =>
    unfold rearrange removeTree
    dsimp only
    split
    · split <;> rfl
    · rfl
    · rfl
  | makeDirectory path =>
    unfold rearrange makeDirectory
    dsimp only
    split
    · exact contents_makeFrom _ fs _
    · rfl

end FileSystem

/-! ### Openings of the sink -/

namespace LogSink

variable {s : LogSink} {fs fs' : FileSystem} {path : String} {id : FileId} {e : Failure}

theorem attach_of_ok (h : fs.openForWriting path false = .ok (id, fs')) :
    s.attach fs path = ⟨.ok (), ⟨some path, some id⟩, fs'⟩ := by
  unfold attach
  rw [h]

theorem attach_of_error (h : fs.openForWriting path false = .error e) :
    s.attach fs path = ⟨.error e, s, fs⟩ := by
  unfold attach
  rw [h]

theorem reopen_of_no_path (fs : FileSystem) (hp : s.path = none) :
    s.reopen fs = ⟨.ok (), s, fs⟩ := by
  unfold reopen
  rw [hp]

theorem reopen_of_ok (hp : s.path = some path)
    (h : fs.openForWriting path false = .ok (id, fs')) :
    s.reopen fs = ⟨.ok (), ⟨some path, some id⟩, fs'⟩ := by
  unfold reopen
  rw [hp]
  dsimp only
  rw [h]

theorem reopen_of_error (hp : s.path = some path)
    (h : fs.openForWriting path false = .error e) : s.reopen fs = ⟨.error e, s, fs⟩ := by
  unfold reopen
  rw [hp]
  dsimp only
  rw [h]

end LogSink

/-! ### Steps of the log -/

/-- The sink of the log and the files around it. -/
structure Log where
  sink : LogSink := {}
  files : FileSystem

namespace Log

/-- A step in the life of the log. -/
inductive Step where
  | attach (path : String)
  | reopen
  | write (bs : Octets)
  | rearrange (r : Rearrangement)

/-- How a step ends. -/
inductive Outcome where
  /-- A path was opened, and the file that it led to. -/
  | opened (path : String) (id : FileId)
  | failed (e : Failure)
  | written (bs : Octets)
  /-- There was nothing to open, or others were at work. -/
  | idle

/-- The log after a step. -/
def after (l : Log) : Step → Log
  | .attach path => ⟨(l.sink.attach l.files path).sink, (l.sink.attach l.files path).files⟩
  | .reopen => ⟨(l.sink.reopen l.files).sink, (l.sink.reopen l.files).files⟩
  | .write bs => { l with files := l.sink.write l.files bs }
  | .rearrange r => { l with files := l.files.rearrange r }

/-- How opening a path ends. -/
def opening (l : Log) (path : String) : Outcome :=
  match l.files.openForWriting path false with
  | .ok (id, _) => .opened path id
  | .error e => .failed e

/-- How a step ends. -/
def outcome (l : Log) : Step → Outcome
  | .attach path => l.opening path
  | .reopen => l.sink.path.elim .idle l.opening
  | .write bs => .written bs
  | .rearrange _ => .idle

/-- The log after a number of steps. -/
def run (l : Log) (steps : List Step) : Log := steps.foldl after l

/-- How each of a number of steps ends. -/
def history (l : Log) : List Step → List Outcome
  | [] => []
  | s :: rest => l.outcome s :: (l.after s).history rest

theorem run_concat (l : Log) (steps : List Step) (s : Step) :
    l.run (steps ++ [s]) = (l.run steps).after s := by
  unfold run
  rw [List.foldl_append]
  rfl

theorem history_concat (l : Log) (steps : List Step) (s : Step) :
    l.history (steps ++ [s]) = l.history steps ++ [(l.run steps).outcome s] := by
  induction steps generalizing l with
  | nil => rfl
  | cons first rest ih => exact congrArg (l.outcome first :: ·) (ih (l.after first))

/-! ### What a step does -/

/-- A path leads to a file that is open. The file is the one that stood there, with what it held, or
one that was made because nothing stood there; it is new and empty. -/
structure Leads (fs : FileSystem) (path : String) (id : FileId) (fs' : FileSystem) : Prop where
  find : fs'.find path = .ok (.file id)
  contentOf : ∀ other, fs'.contentOf other = fs.contentOf other
  file : fs.find path = .ok (.file id) ∧ fs' = fs ∨
    fs.find path = .error .missing ∧ id = fs.contents.length ∧ fs'.contentOf id = []

/-- What a step does, and how it ends. -/
inductive Rotates (l : Log) : Step → Outcome → Log → Prop where
  | attached {path : String} {id : FileId} {files : FileSystem}
      (h : (l.sink.attach l.files path).result = .ok ()) (hl : Leads l.files path id files) :
    Rotates l (.attach path) (.opened path id) ⟨⟨some path, some id⟩, files⟩
  | attachFailed {path : String} {e : Failure}
      (h : (l.sink.attach l.files path).result = .error e) :
    Rotates l (.attach path) (.failed e) l
  | reopened {path : String} {id : FileId} {files : FileSystem} (hp : l.sink.path = some path)
      (h : (l.sink.reopen l.files).result = .ok ()) (hl : Leads l.files path id files) :
    Rotates l .reopen (.opened path id) ⟨⟨some path, some id⟩, files⟩
  | reopenFailed {e : Failure} (h : (l.sink.reopen l.files).result = .error e) :
    Rotates l .reopen (.failed e) l
  | nothingToReopen (hp : l.sink.path = none) (h : (l.sink.reopen l.files).result = .ok ()) :
    Rotates l .reopen .idle l
  | written {bs : Octets} {id : FileId} {files : FileSystem} (hf : l.sink.file = some id)
      (hn : files.nodes = l.files.nodes) (h : files.contentOf id = l.files.contentOf id ++ bs)
      (hne : ∀ other, other ≠ id → files.contentOf other = l.files.contentOf other) :
    Rotates l (.write bs) (.written bs) { l with files }
  | dropped {bs : Octets} (hf : l.sink.file = none) : Rotates l (.write bs) (.written bs) l
  | rearranged {r : Rearrangement} (h : (l.files.rearrange r).contents = l.files.contents) :
    Rotates l (.rearrange r) .idle { l with files := l.files.rearrange r }

/-- The file that is open has a content to write after. -/
structure IsSound (l : Log) : Prop where
  files : l.files.Sound
  file : ∀ id, l.sink.file = some id → id < l.files.contents.length

section Step

variable {l : Log} {fs fs' : FileSystem} {path : String} {id : FileId}

theorem leads_of_openForWriting (h : fs.openForWriting path false = .ok (id, fs')) :
    Leads fs path id fs' := by
  have hopened := FileSystem.opened_of_openForWriting h
  refine ⟨hopened.find, hopened.contentOf_of_kept, ?_⟩
  cases hopened with
  | found hf => exact .inl ⟨hf, rfl⟩
  | made ht hp => exact .inr ⟨FileSystem.find_eq_missing ht hp, rfl, by simp [FileSystem.contentOf]⟩

theorem rotates_after (hl : l.IsSound) (s : Step) : Rotates l s (l.outcome s) (l.after s) := by
  cases s with
  | attach path =>
    unfold after outcome opening
    cases ho : l.files.openForWriting path false with
    | error e =>
      have h := LogSink.attach_of_error (s := l.sink) ho
      dsimp only
      rw [h, ho]
      exact .attachFailed (by rw [h])
    | ok opened =>
      have h := LogSink.attach_of_ok (s := l.sink) ho
      dsimp only
      rw [h, ho]
      exact .attached (by rw [h]) (leads_of_openForWriting ho)
  | reopen =>
    unfold after outcome opening
    cases hp : l.sink.path with
    | none =>
      have h := LogSink.reopen_of_no_path l.files hp
      dsimp only
      rw [h]
      exact .nothingToReopen hp (by rw [h])
    | some path =>
      rw [Option.elim_some]
      cases ho : l.files.openForWriting path false with
      | error e =>
        have h := LogSink.reopen_of_error hp ho
        dsimp only
        rw [h]
        exact .reopenFailed (by rw [h])
      | ok opened =>
        have h := LogSink.reopen_of_ok hp ho
        dsimp only
        rw [h]
        exact .reopened hp (by rw [h]) (leads_of_openForWriting ho)
  | write bs =>
    unfold after LogSink.write
    dsimp only
    cases hf : l.sink.file with
    | none => exact .dropped hf
    | some id =>
      refine .written hf rfl ?_ fun other hne => ?_
      · exact FileSystem.contentOf_append l.files (hl.file id hf) bs
      · exact FileSystem.contentOf_append_of_ne l.files hne.symm bs
  | rearrange r => exact .rearranged (FileSystem.contents_rearrange l.files r)

end Step

theorem IsSound.opened {l : Log} {path : String} {id : FileId} {files : FileSystem} (hl : l.IsSound)
    (ho : l.files.openForWriting path false = .ok (id, files)) :
    IsSound ⟨⟨some path, some id⟩, files⟩ := by
  have hsound := (FileSystem.later_openForWriting ho).sound hl.files
  have hfind := (FileSystem.opened_of_openForWriting ho).find
  refine ⟨hsound, fun id' h => ?_⟩
  rw [← Option.some.inj h]
  exact hsound.lt id (FileSystem.mem_ids_of_find hfind)

theorem IsSound.later {l : Log} {files : FileSystem} (hl : l.IsSound)
    (h : FileSystem.Later l.files files) : IsSound { l with files } :=
  ⟨h.sound hl.files, fun id hid => Nat.lt_of_lt_of_le (hl.file id hid) h.length⟩

theorem IsSound.after {l : Log} (hl : l.IsSound) (s : Step) : (l.after s).IsSound := by
  cases s with
  | attach path =>
    unfold Log.after
    cases ho : l.files.openForWriting path false with
    | error e =>
      dsimp only
      rw [LogSink.attach_of_error ho]
      exact hl
    | ok opened =>
      dsimp only
      rw [LogSink.attach_of_ok ho]
      exact hl.opened ho
  | reopen =>
    unfold Log.after
    cases hp : l.sink.path with
    | none =>
      dsimp only
      rw [LogSink.reopen_of_no_path _ hp]
      exact hl
    | some path =>
      cases ho : l.files.openForWriting path false with
      | error e =>
        dsimp only
        rw [LogSink.reopen_of_error hp ho]
        exact hl
      | ok opened =>
        dsimp only
        rw [LogSink.reopen_of_ok hp ho]
        exact hl.opened ho
  | write bs =>
    refine hl.later ?_
    unfold LogSink.write
    split
    · exact FileSystem.later_append l.files _ bs
    · exact FileSystem.Later.refl l.files
  | rearrange r => exact hl.later (FileSystem.later_rearrange l.files r)

theorem IsSound.run {l : Log} (hl : l.IsSound) (steps : List Step) : (l.run steps).IsSound := by
  induction steps generalizing l with
  | nil => exact hl
  | cons s rest ih => exact ih (hl.after s)

theorem isSound_start {fs : FileSystem} (hs : fs.Sound) : IsSound { files := fs } :=
  ⟨hs, fun id h => by cases h⟩

/-! ### The account -/

/-- The path and the file of an opening. -/
def Outcome.opening? : Outcome → Option (String × FileId)
  | .opened path id => some (path, id)
  | _ => none

/-- The last opening of a history. -/
def lastOpening (h : List Outcome) : Option (String × FileId) :=
  (h.filterMap Outcome.opening?).getLast?

/-- The sink that remembers an opening, if there was one. -/
def sinkOf : Option (String × FileId) → LogSink
  | some (path, id) => ⟨some path, some id⟩
  | none => {}

/-- What is written to a file over a history: all that is written while it is the file that was
opened last. -/
def writtenTo (id : FileId) (last : Option FileId) : List Outcome → Octets
  | [] => []
  | .opened _ id' :: rest => writtenTo id (some id') rest
  | .written bs :: rest => (if last = some id then bs else []) ++ writtenTo id last rest
  | .failed _ :: rest => writtenTo id last rest
  | .idle :: rest => writtenTo id last rest

theorem lastOpening_concat (h : List Outcome) (o : Outcome) :
    lastOpening (h ++ [o]) = o.opening?.or (lastOpening h) := by
  unfold lastOpening
  rw [List.filterMap_append, List.getLast?_append]
  cases ho : o.opening? with
  | none => rw [List.filterMap_cons_none ho]; rfl
  | some x => rw [List.filterMap_cons_some ho]; rfl

theorem Rotates.sink {l l' : Log} {s : Step} {o : Outcome} (h : Rotates l s o l') :
    l'.sink = o.opening?.elim l.sink fun x => sinkOf (some x) := by
  cases h <;> rfl

/-- The sink remembers the last opening, and nothing before there was one. -/
theorem run_sink {fs : FileSystem} (hs : fs.Sound) (steps : List Step) :
    (run { files := fs } steps).sink = sinkOf (lastOpening (history { files := fs } steps)) := by
  induction steps using List.reverseRecOn with
  | nil => rfl
  | append_singleton steps s ih =>
    have hstep := rotates_after ((isSound_start hs).run steps) s
    rw [run_concat, history_concat, lastOpening_concat, hstep.sink, ih]
    cases ((run { files := fs } steps).outcome s).opening? <;> rfl

/-- Each file holds in the end what it held and what was written while it was the open one. -/
theorem contentOf_run {l : Log} (hl : l.IsSound) (steps : List Step) (id : FileId) :
    (l.run steps).files.contentOf id =
      l.files.contentOf id ++ writtenTo id l.sink.file (l.history steps) := by
  induction steps generalizing l with
  | nil => exact (List.append_nil _).symm
  | cons s rest ih =>
    have hstep := rotates_after hl s
    change ((l.after s).run rest).files.contentOf id =
      _ ++ writtenTo id l.sink.file (l.outcome s :: (l.after s).history rest)
    rw [ih (hl.after s)]
    generalize l.outcome s = o at hstep ⊢
    generalize l.after s = l' at hstep ⊢
    generalize l'.history rest = later
    cases hstep with
    | attached _ hleads =>
      rw [hleads.contentOf]
      rfl
    | reopened _ _ hleads =>
      rw [hleads.contentOf]
      rfl
    | attachFailed => rfl
    | reopenFailed => rfl
    | nothingToReopen => rfl
    | @written bs open? files hf _ hcontent hne =>
      rw [writtenTo, hf, ← List.append_assoc]
      by_cases he : id = open?
      · subst he
        rw [hcontent, if_pos rfl]
      · rw [hne id he, if_neg fun h => he (Option.some.inj h).symm, List.append_nil]
    | dropped hf =>
      rw [writtenTo, hf, if_neg (Option.some_ne_none id).symm, List.nil_append]
    | rearranged hcontents =>
      unfold FileSystem.contentOf
      rw [hcontents]
      rfl

/-- A step that does not attach a path: another one, or one that fails. -/
def AttachesNothing (l : Log) (s : Step) : Prop :=
  ∀ path, s = .attach path → ∃ e, (l.sink.attach l.files path).result = .error e

/-- A step leaves no file open exactly if none was open and nothing is attached. Without a path
there is nothing to open again. -/
theorem Rotates.file_eq_none_iff {l l' : Log} {s : Step} {o : Outcome} (h : Rotates l s o l')
    {x : Option (String × FileId)} (hx : l.sink = sinkOf x) :
    l'.sink.file = none ↔ l.sink.file = none ∧ l.AttachesNothing s := by
  have hkeep : (∀ path, s ≠ .attach path) → l.AttachesNothing s := fun hne path hs =>
    absurd hs (hne path)
  cases h with
  | attached h =>
    constructor
    · intro hfile
      cases hfile
    · rintro ⟨-, hnothing⟩
      obtain ⟨e, he⟩ := hnothing _ rfl
      rw [h] at he
      cases he
  | attachFailed h =>
    refine ⟨fun hfile => ⟨hfile, fun path hs => ?_⟩, fun hfile => hfile.1⟩
    cases hs
    exact ⟨_, h⟩
  | reopened hp =>
    constructor
    · intro hfile
      cases hfile
    · rintro ⟨hfile, -⟩
      rw [hx] at hp hfile
      cases x with
      | none => cases hp
      | some x => cases hfile
  | reopenFailed => exact ⟨fun hf => ⟨hf, hkeep fun _ hs => by cases hs⟩, fun hf => hf.1⟩
  | nothingToReopen => exact ⟨fun hf => ⟨hf, hkeep fun _ hs => by cases hs⟩, fun hf => hf.1⟩
  | written => exact ⟨fun hf => ⟨hf, hkeep fun _ hs => by cases hs⟩, fun hf => hf.1⟩
  | dropped => exact ⟨fun hf => ⟨hf, hkeep fun _ hs => by cases hs⟩, fun hf => hf.1⟩
  | rearranged => exact ⟨fun hf => ⟨hf, hkeep fun _ hs => by cases hs⟩, fun hf => hf.1⟩

/-- No file is open as long as no path was attached, and only so long. -/
theorem file_run_eq_none_iff {fs : FileSystem} (hs : fs.Sound) (steps : List Step) :
    (run { files := fs } steps).sink.file = none ↔
      ∀ before s rest, steps = before ++ s :: rest →
        (run { files := fs } before).AttachesNothing s := by
  induction steps using List.reverseRecOn with
  | nil =>
    refine ⟨fun _ before s rest h => ?_, fun _ => rfl⟩
    simp at h
  | append_singleton steps s ih =>
    have hstep := rotates_after ((isSound_start hs).run steps) s
    rw [run_concat, hstep.file_eq_none_iff (run_sink hs steps), ih]
    constructor
    · rintro ⟨hbefore, hlast⟩ before s' rest h
      -- the step is the last one, or one of those before it
      rcases List.eq_nil_or_concat' rest with rfl | ⟨rest', last, rfl⟩
      · obtain ⟨rfl, hs⟩ := List.append_inj' h rfl
        cases hs
        exact hlast
      · rw [← List.cons_append, ← List.append_assoc] at h
        obtain ⟨rfl, -⟩ := List.append_inj' h rfl
        exact hbefore before s' rest' rfl
    · intro hall
      refine ⟨fun before s' rest h => ?_, hall steps s [] rfl⟩
      exact hall before s' (rest ++ [s]) (by rw [h, List.append_assoc, List.cons_append])

/-! ### The life of a log -/

/-- The life of a log that starts without a file, over any steps. -/
structure IsKept (fs : FileSystem) (steps : List Step) : Prop where
  /-- Each step does what it is there for. -/
  each : ∀ before s rest, steps = before ++ s :: rest →
    Rotates (run { files := fs } before) s ((run { files := fs } before).outcome s)
      (run { files := fs } (before ++ [s]))
  /-- The sink has the path and the file of the last opening. -/
  sink : (run { files := fs } steps).sink = sinkOf (lastOpening (history { files := fs } steps))
  /-- Nothing is lost of what any file held and of what was written while it was open. -/
  content : ∀ id, (run { files := fs } steps).files.contentOf id =
    fs.contentOf id ++ writtenTo id none (history { files := fs } steps)
  /-- What is written is dropped only as long as no path was attached. -/
  dropping : (run { files := fs } steps).sink.file = none ↔
    ∀ before s rest, steps = before ++ s :: rest →
      (run { files := fs } before).AttachesNothing s

theorem rotation_kept {fs : FileSystem} (hs : fs.Sound) (steps : List Step) : IsKept fs steps where
  each before s rest _ := by
    rw [run_concat]
    exact rotates_after ((isSound_start hs).run before) s
  sink := run_sink hs steps
  content := contentOf_run (isSound_start hs) steps
  dropping := file_run_eq_none_iff hs steps

/-- A tree with a directory for the log, in which the log file has some content. -/
def logDirectory : FileSystem where
  nodes := [(["var"], .directory), (["var", "log"], .file 0)]
  contents := [Text.octets "old "]

/-- The log is moved away and opened again. Then its directory is removed, so that it cannot be
opened a third time. -/
def rotations : List Step :=
  [.write (Text.octets "lost "), .attach "/var/log", .write (Text.octets "one "),
    .rearrange (.rename "/var/log" "/var/log.1"), .write (Text.octets "two "), .reopen,
    .write (Text.octets "three "), .rearrange (.removeTree "/var"), .reopen,
    .write (Text.octets "four ")]

theorem rotation_kept_rotations :
    logDirectory.Sound ∧ IsKept logDirectory rotations ∧
      (run { files := logDirectory } rotations).files.contents =
        [Text.octets "old one two ", Text.octets "three four "] := by
  have hs : logDirectory.Sound := ⟨by decide, by decide⟩
  exact ⟨hs, rotation_kept hs rotations, by decide +kernel⟩

end Log

end Headend.Host
