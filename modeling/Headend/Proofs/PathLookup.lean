import Headend.Proofs.FileIdentity
import Mathlib.Data.List.Basic

/-!
# Where paths lead

A path is followed name by name: all names but the last lead through directories, and the last one
is taken as it stands. So a path that leads to a directory, joined with the name of an entry, leads
to that entry, however the path was written.

Facts: `locate_eq_ok_iff` (what a path leads to), `listDirectory_eq_ok_iff` (which directory is
listed), `locate_joinPath` (the path of an entry), `mem_namesIn` and `nodup_namesIn` (the names of a
directory are those of the tree, each once).
-/

namespace Headend.Host

/-! ### The names of a path -/

/-- A name that leads to an entry of a directory: there is something of it, no slash is in it, and
it is not one of the two names for directories. -/
structure IsEntryName (name : String) : Prop where
  ne_empty : name ≠ ""
  no_slash : '/' ∉ name.toList
  ne_same : name ≠ "."
  ne_above : name ≠ ".."

theorem pathNames_append_slash (a b : String) :
    pathNames (a ++ "/" ++ b) = pathNames a ++ pathNames b := by
  have hchars : (a ++ "/" ++ b).toList = a.toList ++ '/' :: b.toList := by simp
  unfold pathNames List.splitOn
  rw [hchars, List.splitOnP_append_cons _ _ (by rfl), List.filterMap_append]

theorem pathNames_of_no_slash {name : String} (hne : name ≠ "") (h : '/' ∉ name.toList) :
    pathNames name = [name] := by
  have hsplit : name.toList.splitOnP (· == '/') = [name.toList] :=
    List.splitOnP_eq_singleton fun c hc => by
      rw [beq_eq_false_iff_ne]
      exact fun he => h (he ▸ hc)
  unfold pathNames List.splitOn
  rw [hsplit]
  simp [hne]

/-- Only slashes are left of a path without names. -/
theorem isAbsolute_of_pathNames_eq_nil {path : String} (hne : path ≠ "")
    (h : pathNames path = []) : isAbsolute path = true := by
  unfold pathNames List.splitOn at h
  unfold isAbsolute
  rcases hp : path.toList with _ | ⟨c, rest⟩
  · exact absurd (String.toList_eq_nil_iff.1 hp) hne
  · by_cases hc : c = '/'
    · rw [hc]
      rfl
    · -- the first name begins with the character that the path begins with
      rw [hp, List.splitOnP_cons_eq_if_modifyHead, if_neg (by simpa using hc)] at h
      rcases hs : rest.splitOnP (· == '/') with _ | ⟨first, others⟩
      · exact absurd hs (List.splitOnP_ne_nil _ _)
      · rw [hs] at h
        simp at h

theorem eq_append_slash {path : String} (h : endsWithSlash path = true) :
    ∃ front, path = front ++ "/" := by
  obtain ⟨cs, hcs⟩ := List.getLast?_eq_some_iff.1 (beq_iff_eq.1 h)
  exact ⟨String.ofList cs, String.toList_inj.1 (by simpa using hcs)⟩

section Join

variable {directory name : String}

theorem pathNames_joinPath (hd : directory ≠ "") (hn : IsEntryName name) :
    pathNames (joinPath directory name) = pathNames directory ++ [name] := by
  have hname := pathNames_of_no_slash hn.ne_empty hn.no_slash
  unfold joinPath
  by_cases hs : endsWithSlash directory
  · obtain ⟨front, rfl⟩ := eq_append_slash hs
    have hfront : pathNames (front ++ "/") = pathNames front := by
      calc pathNames (front ++ "/") = pathNames (front ++ "/" ++ "") := by rw [String.append_empty]
        _ = pathNames front ++ pathNames "" := pathNames_append_slash front ""
        _ = pathNames front := List.append_nil _
    rw [if_pos (by simp [hs]), pathNames_append_slash, hname, hfront]
  · rw [if_neg (by simp [hs, hd]), pathNames_append_slash, hname]

theorem isAbsolute_joinPath (hd : directory ≠ "") :
    isAbsolute (joinPath directory name) = isAbsolute directory := by
  unfold joinPath isAbsolute
  have hne : directory.toList ≠ [] := fun h => hd (String.toList_eq_nil_iff.1 h)
  obtain ⟨c, rest, hc⟩ := List.exists_cons_of_ne_nil hne
  split <;> simp [hc]

theorem endsWithSlash_joinPath (hn : IsEntryName name) :
    endsWithSlash (joinPath directory name) = false := by
  have hne : name.toList ≠ [] := fun h => hn.ne_empty (String.toList_eq_nil_iff.1 h)
  have hlast : ∀ front : String, endsWithSlash (front ++ name) = false := fun front => by
    unfold endsWithSlash
    rw [String.toList_append, List.getLast?_append, beq_eq_false_iff_ne]
    rw [List.getLast?_eq_some_getLast hne, Option.some_or]
    exact fun h => hn.no_slash (Option.some.inj h ▸ List.getLast_mem hne)
  unfold joinPath
  split
  · exact hlast _
  · exact hlast _

end Join

namespace FileSystem

variable {fs : FileSystem} {path : String} {p r : Place}

/-! ### Following a path -/

/-- What was done first succeeded, if what was done in sequence did. -/
theorem exists_of_bind_ok {ε α β : Type} {x : Except ε α} {f : α → Except ε β} {b : β}
    (h : x >>= f = .ok b) : ∃ a, x = .ok a ∧ f a = .ok b := by
  cases x with
  | error e => cases h
  | ok a => exact ⟨a, rfl, h⟩

/-- Where a path starts. -/
def startOf (fs : FileSystem) (path : String) : Place :=
  if isAbsolute path then [] else fs.workingDirectory

/-- What the last name of a path leads to, from the directory before it. -/
def Target.ofName (p : Place) (last : String) (slash : Bool) : Target :=
  if last = "." then .directory p
  else if last = ".." then .directory p.dropLast
  else .entry (p ++ [last]) slash

theorem locate_of_names {before : List String} {last : String} (hc : checkPath path = .ok ())
    (hn : pathNames path = before ++ [last]) :
    fs.locate path =
      (before.foldlM fs.enter (fs.startOf path)).map fun p =>
        .ofName p last (endsWithSlash path) := by
  unfold locate
  rw [hc, hn]
  simp only [List.getLast?_concat, List.dropLast_concat]
  change (before.foldlM fs.enter (fs.startOf path) >>= _) = _
  cases before.foldlM fs.enter (fs.startOf path) with
  | error e => rfl
  | ok p =>
    change (if last = "." then _ else if last = ".." then _ else _) = Except.ok _
    unfold Target.ofName
    split
    · rfl
    · split <;> rfl

/-- What a path leads to: the root if it has no names, and else what the last name leads to from
where the others lead. -/
theorem locate_eq_ok_iff {t : Target} :
    fs.locate path = .ok t ↔
      checkPath path = .ok () ∧
        (pathNames path = [] ∧ t = .directory [] ∨
          ∃ before last p, pathNames path = before ++ [last] ∧
            before.foldlM fs.enter (fs.startOf path) = .ok p ∧
            t = .ofName p last (endsWithSlash path)) := by
  cases hc : checkPath path with
  | error e =>
    have hl : fs.locate path = .error e := by
      unfold locate
      rw [hc]
      rfl
    simp [hl]
  | ok u =>
    rcases List.eq_nil_or_concat' (pathNames path) with hn | ⟨before, last, hn⟩
    · have hl : fs.locate path = .ok (.directory []) := by
        unfold locate
        rw [hc, hn]
        rfl
      rw [hl, hn]
      constructor
      · rintro ⟨⟩
        exact ⟨rfl, .inl ⟨rfl, rfl⟩⟩
      · rintro ⟨-, ⟨-, rfl⟩ | ⟨before, last, p, hnil, -⟩⟩
        · rfl
        · simp at hnil
    · rw [locate_of_names hc hn, hn]
      constructor
      · intro h
        cases hw : before.foldlM fs.enter (fs.startOf path) with
        | error e => rw [hw] at h; cases h
        | ok p =>
          rw [hw] at h
          cases h
          exact ⟨rfl, .inr ⟨before, last, p, rfl, hw, rfl⟩⟩
      · rintro ⟨-, ⟨hnil, -⟩ | ⟨before', last', p, hn', hw, rfl⟩⟩
        · simp at hnil
        · obtain ⟨rfl, hlast⟩ := List.append_inj' hn' rfl
          cases hlast
          rw [hw]
          rfl

/-! ### Directories -/

/-- The directory that a path leads to. -/
inductive LeadsToDirectory (fs : FileSystem) (path : String) (r : Place) : Prop where
  | here (h : fs.locate path = .ok (.directory r))
  | entry {slash : Bool} (h : fs.locate path = .ok (.entry r slash))
      (hr : fs.lookUp r = .ok (some .directory))

theorem listDirectory_eq_ok_iff {names : List String} :
    fs.listDirectory path = .ok names ↔
      ∃ r, fs.LeadsToDirectory path r ∧ names = fs.namesIn r := by
  constructor
  · intro h
    obtain ⟨t, ht, h⟩ := exists_of_bind_ok h
    cases t with
    | directory r => cases h; exact ⟨r, .here ht, rfl⟩
    | entry r slash =>
      obtain ⟨found, hf, h⟩ := exists_of_bind_ok h
      match found, h with
      | some .directory, h => cases h; exact ⟨r, .entry ht hf, rfl⟩
  · rintro ⟨r, hr, rfl⟩
    unfold listDirectory
    cases hr with
    | here h => rw [h]; rfl
    | entry h hr =>
      rw [h]
      change (fs.lookUp r >>= _) = _
      rw [hr]
      rfl

theorem enter_of_ofName {last : String} {slash : Bool}
    (h : Target.ofName p last slash = .directory r ∨
      ∃ slash', Target.ofName p last slash = .entry r slash' ∧
        fs.lookUp r = .ok (some .directory)) : fs.enter p last = .ok r := by
  unfold Target.ofName at h
  unfold enter
  by_cases hsame : last = "."
  · simp only [hsame, ↓reduceIte] at h ⊢
    rcases h with h | ⟨_, h, -⟩
    · cases h; rfl
    · cases h
  · by_cases habove : last = ".."
    · simp only [habove, ↓reduceIte] at h ⊢
      rcases h with h | ⟨_, h, -⟩
      · cases h; rfl
      · cases h
    · simp only [hsame, habove, ↓reduceIte] at h ⊢
      rcases h with h | ⟨_, h, hr⟩
      · cases h
      · cases h
        unfold lookUp at hr
        rw [List.getLast?_concat] at hr
        by_cases hlong : isLongName last
        · rw [Option.any_some, if_pos hlong] at hr
          cases hr
        · rw [Option.any_some, if_neg hlong] at hr
          rw [if_neg hlong, Except.ok.inj hr]

/-- All the names of a path lead through directories, if the last one leads to a directory. -/
theorem LeadsToDirectory.walk (h : fs.LeadsToDirectory path r) :
    (pathNames path).foldlM fs.enter (fs.startOf path) = .ok r := by
  obtain ⟨t, ht, htarget⟩ : ∃ t, fs.locate path = .ok t ∧
      (t = .directory r ∨ ∃ slash, t = .entry r slash ∧ fs.lookUp r = .ok (some .directory)) := by
    cases h with
    | here h => exact ⟨_, h, .inl rfl⟩
    | entry h hr => exact ⟨_, h, .inr ⟨_, rfl, hr⟩⟩
  obtain ⟨hc, ⟨hn, rfl⟩ | ⟨before, last, p, hn, hw, rfl⟩⟩ := locate_eq_ok_iff.1 ht
  · rcases htarget with htarget | ⟨_, htarget, -⟩
    · cases htarget
      have hne : path ≠ "" := by
        rintro rfl
        cases hc
      rw [hn, startOf, if_pos (isAbsolute_of_pathNames_eq_nil hne hn)]
      rfl
    · cases htarget
  · rw [hn, List.foldlM_append, hw]
    change (fs.enter p last >>= pure) = _
    rw [enter_of_ofName htarget]
    rfl

theorem LeadsToDirectory.ne_empty (h : fs.LeadsToDirectory path r) : path ≠ "" := by
  rintro rfl
  cases h with
  | here h => cases h
  | entry h => cases h

theorem LeadsToDirectory.unique {r' : Place} (h : fs.LeadsToDirectory path r)
    (h' : fs.LeadsToDirectory path r') : r = r' :=
  Except.ok.inj (h.walk.symm.trans h'.walk)

/-- The path of an entry leads to the entry of that name in the directory. -/
theorem locate_joinPath {name : String} {t : Target} (h : fs.LeadsToDirectory path r)
    (hn : IsEntryName name) (ht : fs.locate (joinPath path name) = .ok t) :
    t = .entry (r ++ [name]) false := by
  have hnames := pathNames_joinPath h.ne_empty hn
  obtain ⟨hc, -⟩ := locate_eq_ok_iff.1 ht
  have hstart : fs.startOf (joinPath path name) = fs.startOf path := by
    unfold startOf
    rw [isAbsolute_joinPath h.ne_empty]
  rw [locate_of_names hc hnames, hstart, h.walk, endsWithSlash_joinPath hn] at ht
  rw [← Except.ok.inj ht]
  change Target.ofName r name false = _
  rw [Target.ofName, if_neg hn.ne_same, if_neg hn.ne_above]

theorem LeadsToDirectory.join {name : String} {q : Place} (h : fs.LeadsToDirectory path r)
    (hn : IsEntryName name) (hq : fs.LeadsToDirectory (joinPath path name) q) :
    q = r ++ [name] ∧ fs.node? q = some .directory := by
  cases hq with
  | here hq => cases locate_joinPath h hn hq
  | entry hq hd =>
    cases locate_joinPath h hn hq
    exact ⟨rfl, node?_of_lookUp hd⟩

/-! ### The names of a directory -/

/-- At each place of the tree stands one entry. -/
def PlacesDistinct (fs : FileSystem) : Prop := (fs.nodes.map (·.1)).Nodup

theorem mem_namesIn {name : String} :
    name ∈ fs.namesIn r ↔ ∃ node, (r ++ [name], node) ∈ fs.nodes := by
  unfold namesIn
  rw [List.mem_filterMap]
  constructor
  · rintro ⟨⟨p, node⟩, he, h⟩
    split at h
    · rename_i last hlast
      split at h
      · rename_i hr
        cases h
        obtain ⟨front, rfl⟩ := List.getLast?_eq_some_iff.1 hlast
        rw [List.dropLast_concat] at hr
        exact ⟨node, hr ▸ he⟩
      · cases h
    · cases h
  · rintro ⟨node, he⟩
    exact ⟨_, he, by simp⟩

theorem nodup_namesIn (h : fs.PlacesDistinct) (r : Place) : (fs.namesIn r).Nodup := by
  have hinj : ∀ nodes : List (Place × Node), (nodes.map (·.1)).Nodup →
      (namesIn { fs with nodes } r).Nodup := by
    intro nodes hnodes
    induction nodes with
    | nil => exact List.nodup_nil
    | cons e rest ih =>
      obtain ⟨hfresh, hrest⟩ := List.nodup_cons.1 hnodes
      unfold namesIn
      rw [List.filterMap_cons]
      split
      · exact ih hrest
      · rename_i name hname
        refine List.nodup_cons.2 ⟨fun hmem => hfresh ?_, ih hrest⟩
        -- a second entry of that name would stand at the same place
        have hrestName : name ∈ namesIn { fs with nodes := rest } r := hmem
        obtain ⟨node, he⟩ := mem_namesIn.1 hrestName
        have hplace : e.1 = r ++ [name] := by
          have hname' : name ∈ namesIn { fs with nodes := [e] } r := by
            unfold namesIn
            rw [List.filterMap_cons, hname]
            exact List.mem_singleton_self name
          obtain ⟨node', he'⟩ := mem_namesIn.1 hname'
          rw [← List.mem_singleton.1 he']
        exact List.mem_map.2 ⟨_, he, hplace.symm⟩
  exact hinj fs.nodes h

end FileSystem

end Headend.Host
