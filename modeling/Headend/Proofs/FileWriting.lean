import Headend.Proofs.Course
import Headend.Proofs.Openings
import Headend.Service.ChannelLists

/-!
# Writing a file of lines

A file of lines is made or emptied and then written line by line, up to the first request that the
host refuses. It is written in full exactly if its path can be opened and no request is refused, and
then it holds the lines and nothing else, whatever it held before. No other file is written.

Facts: `logged_log` (what the log adds), `wroteLines_writeLines` (line by line), `wrote_writeList`
(a whole file).
-/

namespace Headend.Host

open FileSystem (Grows grows_append grows_of_nodes_eq)
open Headend.Text (Octets octets)

/-! ### What others do meanwhile -/

/-- Something that others do and that leaves the tree alone. -/
def Interference.LeavesFiles : Interference → Prop
  | signal .. | list => True
  | _ => False

/-- Between the steps of the process, others leave the tree alone. -/
def World.Undisturbed (w : World) : Prop := ∀ n, ∀ i ∈ w.schedule n, i.LeavesFiles

/-- What parts of a run leave as it was: where the log goes, what others will do, and what the host
will refuse. -/
structure Kept (w w' : World) : Prop where
  sink : w'.sink = w.sink
  schedule : w'.schedule = w.schedule
  faults : w'.faults = w.faults
  later : w.files.Later w'.files

variable {w w' w'' : World} {id : FileId} {path : String}

theorem Kept.refl (w : World) : Kept w w := ⟨rfl, rfl, rfl, .refl _⟩

theorem Kept.trans (h : Kept w w') (h' : Kept w' w'') : Kept w w'' where
  sink := h'.sink.trans h.sink
  schedule := h'.schedule.trans h.schedule
  faults := h'.faults.trans h.faults
  later := h.later.trans h'.later

theorem Kept.undisturbed (h : Kept w w') (hw : w.Undisturbed) : w'.Undisturbed := by
  intro n i hi
  rw [h.schedule] at hi
  exact hw n i hi

theorem kept_meddle (w : World) (i : Interference) : Kept w (w.meddle i) := by
  obtain ⟨t, ht, -⟩ := ledger_meddle w i
  cases i with
  | remove path =>
    unfold World.meddle
    dsimp only
    split
    · rename_i id files hremove
      exact ⟨rfl, rfl, rfl, FileSystem.later_removeFile hremove⟩
    · exact .refl w
  | _ => exact ⟨rfl, rfl, rfl, ht.later⟩

theorem kept_meddleAll (is : List Interference) (w : World) : Kept w (w.meddleAll is) := by
  induction is generalizing w with
  | nil => exact .refl w
  | cons i rest ih => exact (kept_meddle w i).trans (ih (w.meddle i))

theorem kept_advance (w : World) : Kept w w.advance := by
  have h := kept_meddleAll (w.schedule w.clock) w
  exact ⟨h.sink, h.schedule, h.faults, h.later⟩

theorem fault_advance (w : World) : w.advance.fault = w.faults (w.clock + 1) :=
  congrFun (kept_advance w).faults (w.clock + 1)

/-- The host refuses none of the next requests. -/
def World.Grants (w : World) (n : Nat) : Prop := ∀ j < n, w.faults (w.clock + 1 + j) = none

/-- After one step there is one request less to come. -/
theorem grants_succ_iff {v : World} (hkept : Kept w v) (hclock : v.clock = w.clock + 1) {n : Nat} :
    w.Grants (n + 1) ↔ w.faults (w.clock + 1) = none ∧ v.Grants n := by
  have hlater : ∀ j, v.faults (v.clock + 1 + j) = w.faults (w.clock + 1 + (j + 1)) := by
    intro j
    rw [hkept.faults, hclock]
    congr 1
    omega
  unfold World.Grants
  rw [Nat.forall_lt_succ_left]
  simp only [hlater, Nat.add_zero]

theorem files_meddleAll {is : List Interference} (h : ∀ i ∈ is, i.LeavesFiles) (w : World) :
    (w.meddleAll is).files = w.files := by
  induction is generalizing w with
  | nil => rfl
  | cons i rest ih =>
    obtain ⟨hi, hrest⟩ := List.forall_mem_cons.1 h
    have hfirst : (w.meddle i).files = w.files := by
      cases i <;> first | rfl | exact hi.elim
    exact (ih hrest (w.meddle i)).trans hfirst

theorem files_advance (h : w.Undisturbed) : w.advance.files = w.files :=
  files_meddleAll (h w.clock) w

/-! ### The log -/

/-- A file has gained something at its end, but only if the log goes to it. -/
def Adds (id : FileId) (w w' : World) : Prop :=
  ∃ logged, w'.files.contentOf id = w.files.contentOf id ++ logged ∧
    (w.sink.file ≠ some id → logged = [])

theorem adds_of_eq (h : w'.files.contentOf id = w.files.contentOf id) : Adds id w w' :=
  ⟨[], by rw [h, List.append_nil], fun _ => rfl⟩

theorem Adds.trans (h : Adds id w w') (h' : Adds id w' w'') (hs : w'.sink = w.sink) :
    Adds id w w'' := by
  obtain ⟨s, hcontent, hs'⟩ := h
  obtain ⟨t, hcontent', ht⟩ := h'
  refine ⟨s ++ t, by rw [hcontent', hcontent, List.append_assoc], fun hne => ?_⟩
  rw [hs' hne, ht (hs ▸ hne)]
  rfl

/-- Records were left in the log, and nothing else was done. -/
structure Logged (w w' : World) : Prop where
  kept : Kept w w'
  grows : w.Undisturbed → Grows w.files w'.files
  adds : w.Undisturbed → ∀ id, Adds id w w'

theorem Logged.refl (w : World) : Logged w w :=
  ⟨.refl w, fun _ => .refl _, fun _ _ => adds_of_eq rfl⟩

theorem Logged.trans (h : Logged w w') (h' : Logged w' w'') : Logged w w'' where
  kept := h.kept.trans h'.kept
  grows hw := (h.grows hw).trans (h'.grows (h.kept.undisturbed hw))
  adds hw id := (h.adds hw id).trans (h'.adds (h.kept.undisturbed hw) id) h.kept.sink

theorem append_of_length_le {fs : FileSystem} (h : fs.contents.length ≤ id) (bs : Octets) :
    fs.append id bs = fs := by
  unfold FileSystem.append
  rw [List.set_eq_of_length_le h]

theorem exists_contentOf_write (sink : LogSink) (fs : FileSystem) (bs : Octets) (id : FileId) :
    ∃ logged, (sink.write fs bs).contentOf id = fs.contentOf id ++ logged ∧
      (sink.file ≠ some id → logged = []) := by
  unfold LogSink.write
  split
  · rename_i other hother
    by_cases h : other = id
    · subst h
      rcases Nat.lt_or_ge other fs.contents.length with hlt | hge
      · exact ⟨bs, FileSystem.contentOf_append fs hlt bs, fun hne => absurd hother hne⟩
      · rw [append_of_length_le hge]
        exact ⟨[], (List.append_nil _).symm, fun _ => rfl⟩
    · rw [FileSystem.contentOf_append_of_ne fs h bs]
      exact ⟨[], (List.append_nil _).symm, fun _ => rfl⟩
  · exact ⟨[], (List.append_nil _).symm, fun _ => rfl⟩

theorem grows_write (sink : LogSink) (fs : FileSystem) (bs : Octets) :
    Grows fs (sink.write fs bs) := by
  unfold LogSink.write
  split
  · exact grows_append fs _ bs
  · exact .refl fs

theorem logged_advance (w : World) : Logged w w.advance where
  kept := kept_advance w
  grows hw := files_advance hw ▸ .refl _
  adds hw _ := adds_of_eq (by rw [files_advance hw])

theorem logged_record (w : World) (a : Area) (r : Record) : Logged w (w.record a r) := by
  have hlater := (ledger_record w a r).later
  unfold World.record at hlater ⊢
  dsimp only at hlater ⊢
  split
  · rename_i hkept
    rw [if_pos hkept] at hlater
    exact ⟨⟨rfl, rfl, rfl, hlater⟩, fun _ => grows_write _ _ _,
      fun _ id => exists_contentOf_write w.sink w.files _ id⟩
  · exact ⟨⟨rfl, rfl, rfl, .refl _⟩, fun _ => .refl _, fun _ _ => adds_of_eq rfl⟩

theorem logged_log (w : World) (a : Area) (r : Record) :
    ∃ w', Run.log a r w = .ok () w' ∧ Logged w w' :=
  ⟨_, rfl, (logged_advance w).trans (logged_record w.advance a r)⟩

end Headend.Host

namespace Headend.Service

open Headend.Host
open Headend.Host.FileSystem (Grows Opened grows_append grows_of_nodes_eq)
open Headend.Text (Octets octets)

variable {w w' : World} {id : FileId} {path : String} {lines : List String}
  {r : Except Failure Unit}

/-! ### Lines -/

/-- Texts one after the other. -/
def textOf (texts : List String) : Octets := texts.flatMap octets

/-- Lines were written to a file that is open, up to the first refusal of the host. -/
structure WroteLines (id : FileId) (lines : List String) (w : World) (r : Except Failure Unit)
    (w' : World) : Prop where
  kept : Kept w w'
  clock : r = .ok () → w'.clock = w.clock + lines.length
  ok_iff : r = .ok () ↔ w.Grants lines.length
  grows : w.Undisturbed → Grows w.files w'.files
  content : w.Undisturbed → r = .ok () → id < w.files.contents.length →
    w'.files.contentOf id = w.files.contentOf id ++ textOf lines
  others : w.Undisturbed → ∀ other, other ≠ id → w'.files.contentOf other = w.files.contentOf other

/-- A text is written in full, or up to some point if the host refuses the request. -/
theorem writeText_eq (id : FileId) (text : String) (w : World) :
    ∃ r taken, Run.writeText id text w =
        .ok r { w.advance with files := w.advance.files.append id taken } ∧
      (r = .ok () ↔ w.faults (w.clock + 1) = none) ∧ (r = .ok () → taken = octets text) := by
  unfold Run.writeText Run.step
  dsimp only
  rw [fault_advance]
  cases w.faults (w.clock + 1) with
  | none => exact ⟨.ok (), _, rfl, iff_of_true rfl rfl, fun _ => rfl⟩
  | some fault =>
    refine ⟨.error fault.failure, _, rfl, iff_of_false ?_ ?_, fun h => ?_⟩
    all_goals simp_all

theorem wroteLines_writeText (id : FileId) (text : String) (w : World) :
    ∃ r w', Run.writeText id text w = .ok r w' ∧ WroteLines id [text] w r w' := by
  obtain ⟨r, taken, hw, hok, htaken⟩ := writeText_eq id text w
  have hadvance := kept_advance w
  refine ⟨r, _, hw, ⟨hadvance.sink, hadvance.schedule, hadvance.faults, ?_⟩, fun _ => rfl, ?_,
    fun hu => ?_, fun hu hr hid => ?_, fun hu other hne => ?_⟩
  · exact hadvance.later.trans (FileSystem.later_append _ _ _)
  · rw [hok]
    exact ((grants_succ_iff hadvance rfl).trans
      (and_iff_left fun j hj => absurd hj (Nat.not_lt_zero j))).symm
  · dsimp only
    rw [files_advance hu]
    exact grows_append w.files id taken
  · dsimp only
    rw [files_advance hu, FileSystem.contentOf_append _ hid, htaken hr]
    simp [textOf]
  · dsimp only
    rw [files_advance hu, FileSystem.contentOf_append_of_ne _ hne.symm]

theorem WroteLines.cons {line : String} {v : World} (hline : WroteLines id [line] w (.ok ()) v)
    (hrest : WroteLines id lines v r w') : WroteLines id (line :: lines) w r w' where
  kept := hline.kept.trans hrest.kept
  clock hr := by
    rw [hrest.clock hr, hline.clock rfl, List.length_singleton, List.length_cons]
    omega
  ok_iff := by
    have hfirst : w.faults (w.clock + 1) = none := hline.ok_iff.1 rfl 0 Nat.one_pos
    rw [hrest.ok_iff, List.length_cons, grants_succ_iff hline.kept (hline.clock rfl),
      and_iff_right hfirst]
  grows hu := (hline.grows hu).trans (hrest.grows (hline.kept.undisturbed hu))
  content hu hr hid := by
    have hid' := Nat.lt_of_lt_of_le hid hline.kept.later.length
    rw [hrest.content (hline.kept.undisturbed hu) hr hid', hline.content hu rfl hid,
      List.append_assoc]
    simp [textOf]
  others hu other hne :=
    (hrest.others (hline.kept.undisturbed hu) other hne).trans (hline.others hu other hne)

/-- What is left of the lines is given up when one is refused. -/
theorem WroteLines.give_up {line : String} {e : Failure}
    (hline : WroteLines id [line] w (.error e) w') (lines : List String) :
    WroteLines id (line :: lines) w (.error e) w' where
  kept := hline.kept
  clock hr := by cases hr
  ok_iff := by
    have hfirst := (not_congr hline.ok_iff).1 (by simp)
    refine iff_of_false (by simp) fun h => hfirst fun j hj => h j (Nat.lt_of_lt_of_le hj ?_)
    exact Nat.succ_le_succ (Nat.zero_le _)
  grows := hline.grows
  content _ hr := by cases hr
  others := hline.others

theorem wroteLines_writeLines (id : FileId) (lines : List String) (w : World) :
    ∃ r w', writeLines id lines w = .ok r w' ∧ WroteLines id lines w r w' := by
  induction lines generalizing w with
  | nil =>
    refine ⟨.ok (), w, rfl, .refl w, fun _ => rfl, iff_of_true rfl fun j hj => ?_,
      fun _ => .refl _, fun _ _ _ => (List.append_nil _).symm, fun _ _ _ => rfl⟩
    exact absurd hj (Nat.not_lt_zero j)
  | cons line rest ih =>
    obtain ⟨first, v, hfirst, hline⟩ := wroteLines_writeText id line w
    unfold writeLines
    rw [Run.bind_of_ok hfirst]
    cases first with
    | error e => exact ⟨.error e, v, rfl, hline.give_up rest⟩
    | ok _ =>
      obtain ⟨r, w', hr, hrest⟩ := ih v
      exact ⟨r, w', hr, hline.cons hrest⟩

/-! ### Whole files -/

/-- A file of lines was written, or the host refused a request. -/
structure Wrote (path : String) (lines : List String) (w : World) (r : Except Failure Unit)
    (w' : World) : Prop where
  kept : Kept w w'
  /-- It succeeds exactly if the path can be opened and no request is refused. -/
  ok_iff : r = .ok () ↔
    (∃ opened, w.advance.files.openForWriting path true = .ok opened) ∧
      w.Grants (lines.length + 1)
  grows : w.Undisturbed → Grows w.files w'.files
  /-- Then the path leads to a file that holds the lines and nothing else. -/
  content : w.Undisturbed → w.files.Sound → r = .ok () →
    ∃ id, w'.files.find path = .ok (.file id) ∧ w'.files.contentOf id = textOf lines
  /-- A file at another place is left alone, whatever happens. -/
  others : w.Undisturbed → w.files.Sound → ∀ other id, w.files.Apart path other →
    w.files.find other = .ok (.file id) → w'.files.contentOf id = w.files.contentOf id

/-- A file is made or emptied, or nothing is done. -/
theorem createFile_eq (path : String) (w : World) :
    (∃ id files, w.faults (w.clock + 1) = none ∧
        w.advance.files.openForWriting path true = .ok (id, files) ∧
        Run.createFile path w =
          .ok (.ok id) ({ w.advance with files }.emit (.reached (.created path id)))) ∨
      ∃ e, ¬((∃ opened, w.advance.files.openForWriting path true = .ok opened) ∧
          w.faults (w.clock + 1) = none) ∧
        Run.createFile path w = .ok (.error e) w.advance := by
  unfold Run.createFile Run.step World.attempt
  dsimp only
  rw [fault_advance]
  cases hfault : w.faults (w.clock + 1) with
  | some fault => exact .inr ⟨fault.failure, by simp, rfl⟩
  | none =>
    cases hopen : w.advance.files.openForWriting path true with
    | error e => exact .inr ⟨e, by simp, rfl⟩
    | ok opened => exact .inl ⟨opened.1, opened.2, rfl, rfl, rfl⟩

/-- A path leads to a file that was made or emptied for it. -/
structure Emptied (path : String) (id : FileId) (w w' : World) : Prop where
  kept : Kept w w'
  clock : w'.clock = w.clock + 1
  fault : w.faults (w.clock + 1) = none
  opens : ∃ opened, w.advance.files.openForWriting path true = .ok opened
  opened : w.Undisturbed → Opened w.files path true id w'.files

theorem emptied_of_openForWriting {files : FileSystem} (hfault : w.faults (w.clock + 1) = none)
    (hopen : w.advance.files.openForWriting path true = .ok (id, files)) :
    Emptied path id w ({ w.advance with files }.emit (.reached (.created path id))) where
  kept :=
    have hadvance := kept_advance w
    ⟨hadvance.sink, hadvance.schedule, hadvance.faults,
      hadvance.later.trans (FileSystem.later_openForWriting hopen)⟩
  clock := rfl
  fault := hfault
  opens := ⟨_, hopen⟩
  opened hu := FileSystem.opened_of_openForWriting (files_advance hu ▸ hopen)

/-- A file that was made or emptied holds the lines that were written to it. -/
theorem Emptied.wrote {v : World} (hempty : Emptied path id w v)
    (hlines : WroteLines id lines v r w') : Wrote path lines w r w' where
  kept := hempty.kept.trans hlines.kept
  ok_iff := by
    rw [hlines.ok_iff, and_iff_right hempty.opens, grants_succ_iff hempty.kept hempty.clock,
      and_iff_right hempty.fault]
  grows hu := (hempty.opened hu).grows.trans (hlines.grows (hempty.kept.undisturbed hu))
  content hu hs hr := by
    have hu' := hempty.kept.undisturbed hu
    have hfind := (hempty.opened hu).find
    have hid : id < v.files.contents.length :=
      (hempty.kept.later.sound hs).lt id (FileSystem.mem_ids_of_find hfind)
    refine ⟨id, (hlines.grows hu').find hfind, ?_⟩
    rw [hlines.content hu' hr hid, (hempty.opened hu).contentOf]
    rfl
  others hu hs other id' hapart hother := by
    have hne : id' ≠ id := by
      rintro rfl
      have hopened := hempty.opened hu
      exact FileSystem.find_ne_of_apart (hempty.kept.later.sound hs)
        (hopened.grows.apart_iff.2 hapart) hopened.find (hopened.grows.find hother)
    exact (hlines.others (hempty.kept.undisturbed hu) id' hne).trans
      ((hempty.opened hu).contentOf_of_ne hne)

/-- What comes after a file was written and leaves the tree alone changes nothing of it. -/
theorem Wrote.andThen {v : World} (h : Wrote path lines w r v) (hkept : Kept v w')
    (hfiles : v.Undisturbed → w'.files = v.files) : Wrote path lines w r w' where
  kept := h.kept.trans hkept
  ok_iff := h.ok_iff
  grows hu := hfiles (h.kept.undisturbed hu) ▸ h.grows hu
  content hu hs hr := hfiles (h.kept.undisturbed hu) ▸ h.content hu hs hr
  others hu hs := hfiles (h.kept.undisturbed hu) ▸ h.others hu hs

theorem wrote_writeList (path : String) (lines : List String) (w : World) :
    ∃ r w', writeList path lines w = .ok r w' ∧ Wrote path lines w r w' := by
  unfold writeList
  rcases createFile_eq path w with ⟨id, files, hfault, hopen, hw⟩ | ⟨e, hrefused, hw⟩
  · rw [Run.bind_of_ok hw]
    obtain ⟨r, v, hv, hlines⟩ :=
      wroteLines_writeLines id lines ({ w.advance with files }.emit (.reached (.created path id)))
    have hwrote := (emptied_of_openForWriting hfault hopen).wrote hlines
    dsimp only
    rw [Run.bind_of_ok hv]
    cases r with
    | error e => exact ⟨.error e, v, rfl, hwrote⟩
    | ok _ =>
      have hadvance := kept_advance v
      exact ⟨.ok (), _, rfl, hwrote.andThen
        ⟨hadvance.sink, hadvance.schedule, hadvance.faults, hadvance.later⟩ files_advance⟩
  · rw [Run.bind_of_ok hw]
    refine ⟨.error e, w.advance, rfl, kept_advance w, ?_, fun hu => ?_, fun _ _ hr => ?_,
      fun hu _ _ _ _ _ => ?_⟩
    · exact iff_of_false (by simp) fun h => hrefused ⟨h.1, h.2 0 (Nat.succ_pos _)⟩
    · exact files_advance hu ▸ .refl _
    · cases hr
    · rw [files_advance hu]

end Headend.Service
