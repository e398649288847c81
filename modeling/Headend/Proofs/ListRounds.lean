import Headend.Proofs.ListTexts

/-!
# Creating the lists of channels

All files of a store are attempted in turn, whatever comes of each, and those that were written in
full are told of. Each of them then holds its lines and nothing else, however often the lists are
created and whatever others do in between: nothing of what a file held before is left in it.

Facts: `attempts_createLists` (each file is attempted), `apart_make` (the files do not get in each
other's way), `Attempts.content` (what they hold), `lists_partition`.
-/

namespace Headend.Service

open Headend.Config
open Headend.Host
open Headend.Host.FileSystem (Grows)
open Headend.Text (Octets octets)

/-! ### Files in turn -/

/-- A file with the lines that are to be written to it. -/
structure ListFile where
  path : String
  lines : List String

/-- The files of a store: its lists, and the file for the hardware module, which is empty. -/
def listFiles (paths : ListPaths) (s : Store) : List ListFile :=
  [⟨paths.streamed, streamedLines s⟩, ⟨paths.notStreamed, notStreamedLines s⟩] ++
    paths.camInfo.toList.map (⟨·, []⟩)

/-- Files are written in turn, whatever comes of each, and records are left in between. -/
inductive Attempts : List ListFile → World → List (Except Failure Unit) → World → Prop where
  | done {w w' : World} (hlog : Logged w w') : Attempts [] w [] w'
  | next {f : ListFile} {rest : List ListFile} {w v v' w' : World} {r : Except Failure Unit}
      {results : List (Except Failure Unit)} (hlog : Logged w v)
      (hwrote : Wrote f.path f.lines v r v') (hrest : Attempts rest v' results w') :
    Attempts (f :: rest) w (r :: results) w'

/-- The paths of the files that were written in full. -/
def writtenPaths (files : List ListFile) (results : List (Except Failure Unit)) : List String :=
  ((files.zip results).filter (·.2.isOk)).map (·.1.path)

variable {w w' : World} {files : List ListFile} {results : List (Except Failure Unit)}
  {paths : ListPaths} {s : Store}

theorem paths_listFiles (paths : ListPaths) (s : Store) :
    (listFiles paths s).map (·.path) = paths.all := by
  unfold listFiles ListPaths.all
  cases paths.camInfo <;> rfl

/-- The paths of written files, with that of one more if it was written. -/
def tally (created : List String) (path : String) (r : Except Failure Unit) : List String :=
  if r.isOk then created ++ [path] else created

/-- What became of a file is settled with at most a record in the log. -/
theorem settle_eq (path : String) (created : List String) (r : Except Failure Unit) (w : World) :
    ∃ w', settle path created r w = .ok (tally created path r) w' ∧ Logged w w' := by
  cases r with
  | ok _ => exact ⟨w, rfl, .refl w⟩
  | error e =>
    obtain ⟨w', hw, hlogged⟩ := logged_log w .lists (notCreated path e)
    exact ⟨w', (Run.bind_of_ok hw).trans rfl, hlogged⟩

/-- Creating the lists attempts each file, and tells of those that were written in full. -/
theorem attempts_createLists (paths : ListPaths) (s : Store) (w : World) :
    ∃ results lists w', createLists paths s w = .ok lists w' ∧
      Attempts (listFiles paths s) w results w' ∧
      lists.created = writtenPaths (listFiles paths s) results ∧
      lists.canRefresh = (results.take 2).all (·.isOk) := by
  obtain ⟨r₁, v₁, hr₁, hwrote₁⟩ := wrote_writeList paths.streamed (streamedLines s) w
  obtain ⟨r₂, v₂, hr₂, hwrote₂⟩ := wrote_writeList paths.notStreamed (notStreamedLines s) v₁
  obtain ⟨v₃, hv₃, hlog₁⟩ := settle_eq paths.streamed [] r₁ v₂
  obtain ⟨v₄, hv₄, hlog₂⟩ := settle_eq paths.notStreamed (tally [] paths.streamed r₁) r₂ v₃
  unfold streamedLines at hr₁
  unfold notStreamedLines at hr₂
  unfold createLists
  dsimp only
  rw [Run.bind_of_ok hr₁, Run.bind_of_ok hr₂, Run.bind_of_ok hv₃, Run.bind_of_ok hv₄]
  have hlog := hlog₁.trans hlog₂
  cases hcam : paths.camInfo with
  | none =>
    refine ⟨[r₁, r₂], _, v₄, rfl, ?_, ?_, ?_⟩
    · unfold listFiles
      rw [hcam]
      exact .next (.refl w) hwrote₁ (.next (.refl v₁) hwrote₂ (.done hlog))
    · unfold writtenPaths listFiles
      rw [hcam]
      cases r₁ <;> cases r₂ <;> rfl
    · cases r₁ <;> cases r₂ <;> rfl
  | some path =>
    obtain ⟨r₃, v₅, hr₃, hwrote₃⟩ := wrote_writeList path [] v₄
    obtain ⟨v₆, hv₆, hlog₃⟩ :=
      settle_eq path (tally (tally [] paths.streamed r₁) paths.notStreamed r₂) r₃ v₅
    dsimp only
    rw [Run.bind_of_ok hr₃, Run.bind_of_ok hv₆]
    refine ⟨[r₁, r₂, r₃], _, v₆, rfl, ?_, ?_, ?_⟩
    · unfold listFiles
      rw [hcam]
      exact .next (.refl w) hwrote₁ (.next (.refl v₁) hwrote₂ (.next hlog hwrote₃ (.done hlog₃)))
    · unfold writtenPaths listFiles
      rw [hcam]
      cases r₁ <;> cases r₂ <;> cases r₃ <;> rfl
    · cases r₁ <;> cases r₂ <;> rfl

/-! ### Where the files are -/

theorem name_of_locate_joinPath {fs : FileSystem} {directory name : String} {p : Place}
    {slash : Bool} (hn : IsEntryName name)
    (h : fs.locate (joinPath directory name) = .ok (.entry p slash)) : p.getLast? = some name := by
  have hnames : ∃ before, pathNames (joinPath directory name) = before ++ [name] := by
    by_cases hd : directory = ""
    · rw [hd]
      exact ⟨[], pathNames_of_no_slash hn.ne_empty hn.no_slash⟩
    · exact ⟨_, pathNames_joinPath hd hn⟩
  obtain ⟨before', hbefore'⟩ := hnames
  obtain ⟨-, ⟨hnil, -⟩ | ⟨before, last, q, hbefore, -, ht⟩⟩ := FileSystem.locate_eq_ok_iff.1 h
  · rw [hnil] at hbefore'
    simp at hbefore'
  · rw [hbefore'] at hbefore
    obtain ⟨-, hlast⟩ := List.append_inj' hbefore rfl
    cases hlast
    rw [FileSystem.Target.ofName, if_neg hn.ne_same, if_neg hn.ne_above] at ht
    cases ht
    exact List.getLast?_concat

/-- Entries of one directory with different names stand at different places. -/
theorem apart_joinPath (fs : FileSystem) (directory : String) {a b : String} (ha : IsEntryName a)
    (hb : IsEntryName b) (hne : a ≠ b) :
    fs.Apart (joinPath directory a) (joinPath directory b) := by
  intro p slash slash' hp hq
  exact hne (Option.some.inj ((name_of_locate_joinPath ha hp).symm.trans
    (name_of_locate_joinPath hb hq)))

/-- The name of a file of an adapter and a tuner. -/
def listName (kind : String) (card tuner : UInt32) : String :=
  s!"{kind}_adapter{card.toNat}_tuner{tuner.toNat}"

theorem toList_listName (kind : String) (card tuner : UInt32) :
    (listName kind card tuner).toList =
      kind.toList ++ ("_adapter".toList ++ (Nat.toDigits 10 card.toNat ++
        ("_tuner".toList ++ Nat.toDigits 10 tuner.toNat))) := by
  have hname : listName kind card tuner =
      kind ++ "_adapter" ++ toString card.toNat ++ "_tuner" ++ toString tuner.toNat := rfl
  rw [hname]
  simp only [String.toList_append, Nat.toString_eq_repr, Nat.toList_repr, List.append_assoc]

theorem isEntryName_listName (kind : String) (hc : kind.toList.head? = some 'c')
    (hs : '/' ∉ kind.toList) (card tuner : UInt32) : IsEntryName (listName kind card tuner) := by
  have hne : ∀ name : String, name.toList.head? ≠ some 'c' → listName kind card tuner ≠ name := by
    rintro name hname rfl
    rw [toList_listName, List.head?_append, hc] at hname
    exact hname rfl
  refine ⟨hne _ (by decide), ?_, hne _ (by decide), hne _ (by decide)⟩
  rw [toList_listName]
  simp only [List.mem_append, not_or]
  have hdigits : ∀ n, '/' ∉ Nat.toDigits 10 n := notMem_toDigits (by decide)
  exact ⟨hs, by decide, hdigits _, by decide, hdigits _⟩

theorem listName_ne {a b : String} (h : a ≠ b) (card tuner : UInt32) :
    listName a card tuner ≠ listName b card tuner := by
  intro he
  have hchars := congrArg String.toList he
  rw [toList_listName, toList_listName] at hchars
  exact h (String.toList_inj.1 (List.append_cancel_right hchars))

/-- The paths that are made for an adapter and a tuner are apart in every tree. -/
theorem apart_make (fs : FileSystem) (directory : String) (card tuner : UInt32) (withCam : Bool) :
    (ListPaths.make directory card tuner withCam).all.Pairwise fs.Apart := by
  have hstreamed := isEntryName_listName "channels_streamed" (by decide) (by decide) card tuner
  have hnotStreamed :=
    isEntryName_listName "channels_unstreamed" (by decide) (by decide) card tuner
  have hcamInfo := isEntryName_listName "caminfo" (by decide) (by decide) card tuner
  have hlists := apart_joinPath fs directory hstreamed hnotStreamed
    (listName_ne (by decide) card tuner)
  have hfirst := apart_joinPath fs directory hstreamed hcamInfo
    (listName_ne (by decide) card tuner)
  have hsecond := apart_joinPath fs directory hnotStreamed hcamInfo
    (listName_ne (by decide) card tuner)
  cases withCam with
  | false => exact .cons (List.forall_mem_singleton.2 hlists) (List.pairwise_singleton _ _)
  | true =>
    refine .cons (List.forall_mem_cons.2 ⟨hlists, List.forall_mem_singleton.2 hfirst⟩) ?_
    exact .cons (List.forall_mem_singleton.2 hsecond) (List.pairwise_singleton _ _)

/-! ### What the files hold -/

theorem Attempts.kept (h : Attempts files w results w') : Kept w w' := by
  induction h with
  | done hlog => exact hlog.kept
  | next hlog hwrote _ ih => exact (hlog.kept.trans hwrote.kept).trans ih

/-- A file at another place is left alone by all attempts, but for the log. -/
theorem Attempts.spares (h : Attempts files w results w') {other : String} {id : FileId}
    (hu : w.Undisturbed) (hs : w.files.Sound) (hapart : ∀ f ∈ files, w.files.Apart f.path other)
    (hfind : w.files.find other = .ok (.file id)) :
    w'.files.find other = .ok (.file id) ∧ Adds id w w' := by
  induction h with
  | done hlog => exact ⟨(hlog.grows hu).find hfind, hlog.adds hu id⟩
  | @next f rest w v v' w' r results hlog hwrote hrest ih =>
    obtain ⟨hf, hapart⟩ := List.forall_mem_cons.1 hapart
    have hu' := hlog.kept.undisturbed hu
    have hs' := hlog.kept.later.sound hs
    have hfind' := (hlog.grows hu).find hfind
    have hsame := hwrote.others hu' hs' other id ((hlog.grows hu).apart_iff.2 hf) hfind'
    have hgrows := (hlog.grows hu).trans (hwrote.grows hu')
    have hkept := hlog.kept.trans hwrote.kept
    obtain ⟨hend, hadds⟩ := ih (hkept.undisturbed hu) (hkept.later.sound hs)
      (fun g hg => hgrows.apart_iff.2 (hapart g hg)) (hgrows.find hfind)
    have hadds' := (hlog.adds hu id).trans (adds_of_eq hsame) hlog.kept.sink
    exact ⟨hend, hadds'.trans hadds hkept.sink⟩

/-- Each file that was written holds its lines in the end, and what the log added if it goes there.
-/
theorem Attempts.content (h : Attempts files w results w') (hu : w.Undisturbed)
    (hs : w.files.Sound) (hapart : (files.map (·.path)).Pairwise w.files.Apart) :
    ∀ x ∈ files.zip results, x.2 = .ok () → ∃ id logged,
      w'.files.find x.1.path = .ok (.file id) ∧
        w'.files.contentOf id = textOf x.1.lines ++ logged ∧
        (w.sink.file ≠ some id → logged = []) := by
  induction h with
  | done => exact List.forall_mem_nil _
  | @next f rest w v v' w' r results hlog hwrote hrest ih =>
    rw [List.map_cons, List.pairwise_cons] at hapart
    obtain ⟨hfirst, hrestApart⟩ := hapart
    have hu' := hlog.kept.undisturbed hu
    have hs' := hlog.kept.later.sound hs
    have hgrows := (hlog.grows hu).trans (hwrote.grows hu')
    have hkept := hlog.kept.trans hwrote.kept
    refine List.forall_mem_cons.2 ⟨fun hr => ?_, ?_⟩
    · obtain ⟨id, hfind, hcontent⟩ := hwrote.content hu' hs' hr
      have hothers : ∀ g ∈ rest, v'.files.Apart g.path f.path := fun g hg =>
        hgrows.apart_iff.2 (hfirst g.path (List.mem_map_of_mem hg)).symm
      obtain ⟨hend, logged, hlogged, hnone⟩ :=
        hrest.spares (hkept.undisturbed hu) (hkept.later.sound hs) hothers hfind
      exact ⟨id, logged, hend, hcontent ▸ hlogged, hkept.sink ▸ hnone⟩
    · rw [← hkept.sink]
      exact ih (hkept.undisturbed hu) (hkept.later.sound hs)
        (hrestApart.imp fun h => hgrows.apart_iff.2 h)

/-! ### Over and over -/

/-- What creating the lists comes to. -/
structure Creation (paths : ListPaths) (s : Store) (w : World)
    (results : List (Except Failure Unit)) (lists : Lists) (w' : World) : Prop where
  /-- Every file is attempted. -/
  attempts : Attempts (listFiles paths s) w results w'
  /-- Exactly those that were written in full are told of. -/
  created : lists.created = writtenPaths (listFiles paths s) results
  /-- The first two are the lists of channels. -/
  canRefresh : lists.canRefresh = (results.take 2).all (·.isOk)
  /-- If the paths lead to different places and nobody else writes meanwhile, each of them holds its
  lines and nothing else, but for what the log adds if it goes there. -/
  content : w.files.Sound → w.Undisturbed → paths.all.Pairwise w.files.Apart →
    ∀ x ∈ (listFiles paths s).zip results, x.2 = .ok () → ∃ id logged,
      w'.files.find x.1.path = .ok (.file id) ∧
        w'.files.contentOf id = textOf x.1.lines ++ logged ∧
        (w.sink.file ≠ some id → logged = [])

theorem creation_createLists (paths : ListPaths) (s : Store) (w : World) :
    ∃ results lists w', createLists paths s w = .ok lists w' ∧
      Creation paths s w results lists w' := by
  obtain ⟨results, lists, w', hw, hattempts, hcreated, hrefresh⟩ := attempts_createLists paths s w
  refine ⟨results, lists, w', hw, hattempts, hcreated, hrefresh, fun hs hu hapart => ?_⟩
  exact hattempts.content hu hs (paths_listFiles paths s ▸ hapart)

/-- The lists are created again and again, and each time others do something afterwards. -/
def createAgain (paths : ListPaths) (s : Store) : List (List Interference) → Run (List Lists)
  | [] => return []
  | others :: rest => do
    let lists ← createLists paths s
    Run.change (·.meddleAll others)
    return lists :: (← createAgain paths s rest)

theorem kept_createAgain (paths : ListPaths) (s : Store) (gaps : List (List Interference))
    (w : World) :
    ∃ earlier w', createAgain paths s gaps w = .ok earlier w' ∧ earlier.length = gaps.length ∧
      Kept w w' := by
  induction gaps generalizing w with
  | nil => exact ⟨[], w, rfl, rfl, .refl w⟩
  | cons others rest ih =>
    obtain ⟨results, lists, v, hv, hattempts, -, -⟩ := attempts_createLists paths s w
    have hothers := (kept_advance v).trans (kept_meddleAll others v.advance)
    obtain ⟨earlier, w', hw, hlength, hkept⟩ := ih (v.advance.meddleAll others)
    refine ⟨lists :: earlier, w', ?_, congrArg (· + 1) hlength,
      (hattempts.kept.trans hothers).trans hkept⟩
    unfold createAgain
    rw [Run.bind_of_ok hv]
    exact (Run.bind_of_ok (rfl : Run.change (·.meddleAll others) v = _)).trans
      ((Run.bind_of_ok hw).trans rfl)

/-- A configuration of two channels, of which one has PIDs. -/
def pair : Octets :=
  octets ("new_channel\nname = One\nip = 239.1.1.1\npids = 100 101\n" ++
    "new_channel\nname = Two\npids =\n")

/-- The store of the configuration. -/
def pairStore : Store := { channels := declared Section.all pair }

/-- A world with a directory for the lists. -/
def emptyRun : World where
  files := { nodes := [(["run"], .directory)] }

/-- The paths of the lists in the directory. -/
def runLists : ListPaths := ListPaths.make "run" 0 0 true

/-- Someone overwrites one of the lists and removes the other. -/
def spoiling : List Interference :=
  [.write "run/channels_streamed_adapter0_tuner0" (octets "?"),
    .remove "run/channels_unstreamed_adapter0_tuner0"]

/-- In that world the lists hold the same after they were spoilt as before. -/
example :
    (createAgain runLists pairStore [[], spoiling, []]).endsIn emptyRun (fun rounds w =>
      rounds.all (fun lists => lists.created == runLists.all && lists.canRefresh) &&
        runLists.all.map (fun path => (w.files.read path).toOption) ==
          [some (octets "239.1.1.1:1234:One\n"), some (octets "0.0.0.0:1234:Two\n"), some []]) =
      true := by
  decide +kernel

end Headend.Service
