import Headend.Proofs.PathLookup

/-!
# Opening files for writing

A path that is opened leads to the file from then on: to the one that stood there, or to a new one
where nothing stood. A new file is added to the tree and changes nothing else, so that every path
that led somewhere still leads there.

Facts: `opened_of_openForWriting` (the two ways to open a path), `Opened.find` and
`Opened.contentOf` (what the path leads to then, and what it holds), `Grows.find` (paths that lead
somewhere), `Opened.grows`, `find_ne_of_apart` (paths to different places lead to different files).
-/

namespace Headend.Host.FileSystem

open Headend.Text (Octets)

/-! ### Trees that have more files -/

/-- A tree with all the entries of another one, and perhaps with more files. -/
structure Grows (fs fs' : FileSystem) : Prop where
  workingDirectory : fs'.workingDirectory = fs.workingDirectory
  node? : ∀ p node, fs.node? p = some node → fs'.node? p = some node
  directory : ∀ p, fs'.node? p = some .directory → fs.node? p = some .directory

variable {fs fs' fs'' : FileSystem} {path : String} {id : FileId} {p : Place}

theorem Grows.refl (fs : FileSystem) : Grows fs fs := ⟨rfl, fun _ _ h => h, fun _ h => h⟩

theorem Grows.trans (h : Grows fs fs') (h' : Grows fs' fs'') : Grows fs fs'' where
  workingDirectory := h'.workingDirectory.trans h.workingDirectory
  node? p node hn := h'.node? p node (h.node? p node hn)
  directory p hp := h.directory p (h'.directory p hp)

theorem grows_of_nodes_eq (hn : fs'.nodes = fs.nodes)
    (hw : fs'.workingDirectory = fs.workingDirectory) : Grows fs fs' := by
  have hnode : ∀ p, fs'.node? p = fs.node? p := fun p => by
    unfold FileSystem.node?
    rw [hn]
  exact ⟨hw, fun p node h => (hnode p).trans h, fun p h => (hnode p).symm.trans h⟩

theorem grows_append (fs : FileSystem) (id : FileId) (bs : Octets) : Grows fs (fs.append id bs) :=
  grows_of_nodes_eq rfl rfl

theorem grows_add_file (hp : fs.node? p = none) (contents : List Octets) :
    Grows fs { fs with nodes := fs.nodes ++ [(p, .file id)], contents } := by
  have hne : p ≠ [] := by
    rintro rfl
    cases hp
  rw [FileSystem.node?, if_neg hne] at hp
  refine ⟨rfl, fun q node hq => ?_, fun q hq => ?_⟩
  · unfold FileSystem.node? at hq ⊢
    split
    · rwa [if_pos ‹_›] at hq
    · rw [if_neg ‹_›] at hq
      rw [List.lookup_append, hq]
      rfl
  · unfold FileSystem.node? at hq ⊢
    split
    · rfl
    · rw [if_neg ‹_›, List.lookup_append] at hq
      cases hold : fs.nodes.lookup q with
      | some node => rw [hold] at hq; exact hq
      | none =>
        rw [hold, Option.none_or, List.lookup_cons] at hq
        split at hq <;> cases hq

theorem enter_name_iff {name : String} {q : Place} (hsame : name ≠ ".") (habove : name ≠ "..") :
    fs.enter p name = .ok q ↔
      isLongName name = false ∧ fs.node? (p ++ [name]) = some .directory ∧ p ++ [name] = q := by
  unfold enter
  rw [if_neg hsame, if_neg habove]
  cases isLongName name with
  | true => simp
  | false =>
    rw [if_neg Bool.false_ne_true]
    match fs.node? (p ++ [name]) with
    | none => simp
    | some (.file _) => simp
    | some .directory => simp

/-- The way to a directory is the same in both trees. -/
theorem Grows.enter_iff (h : Grows fs fs') {name : String} {q : Place} :
    fs'.enter p name = .ok q ↔ fs.enter p name = .ok q := by
  by_cases hsame : name = "."
  · unfold enter
    rw [if_pos hsame, if_pos hsame]
  · by_cases habove : name = ".."
    · unfold enter
      rw [if_neg hsame, if_neg hsame, if_pos habove, if_pos habove]
    · have hdirectory : fs'.node? (p ++ [name]) = some .directory ↔
          fs.node? (p ++ [name]) = some .directory := ⟨h.directory _, h.node? _ _⟩
      rw [enter_name_iff hsame habove, enter_name_iff hsame habove, hdirectory]

theorem Grows.walk_iff (h : Grows fs fs') {names : List String} {q : Place} :
    names.foldlM fs'.enter p = .ok q ↔ names.foldlM fs.enter p = .ok q := by
  induction names generalizing p with
  | nil => rfl
  | cons name rest ih =>
    rw [List.foldlM_cons, List.foldlM_cons]
    constructor
    · intro hw
      obtain ⟨r, hr, hw⟩ := exists_of_bind_ok hw
      rw [h.enter_iff.1 hr]
      exact ih.1 hw
    · intro hw
      obtain ⟨r, hr, hw⟩ := exists_of_bind_ok hw
      rw [h.enter_iff.2 hr]
      exact ih.2 hw

theorem Grows.locate_iff (h : Grows fs fs') {t : Target} :
    fs'.locate path = .ok t ↔ fs.locate path = .ok t := by
  have hstart : fs'.startOf path = fs.startOf path := by
    unfold startOf
    rw [h.workingDirectory]
  rw [locate_eq_ok_iff, locate_eq_ok_iff, hstart]
  simp only [h.walk_iff]

theorem Grows.lookUp (h : Grows fs fs') {node : Node} (hp : fs.lookUp p = .ok (some node)) :
    fs'.lookUp p = .ok (some node) := by
  have hnode := h.node? p node (node?_of_lookUp hp)
  unfold FileSystem.lookUp at hp ⊢
  split
  · rw [if_pos ‹_›] at hp
    cases hp
  · rw [hnode]

/-! ### What a path leads to -/

theorem find_eq_file_iff :
    fs.find path = .ok (.file id) ↔
      ∃ p, fs.locate path = .ok (.entry p false) ∧ fs.lookUp p = .ok (some (.file id)) := by
  constructor
  · intro h
    obtain ⟨t, ht, h⟩ := exists_of_bind_ok h
    cases t with
    | directory p => cases h
    | entry p slash =>
      obtain ⟨found, hf, h⟩ := exists_of_bind_ok h
      match found, slash, h with
      | some (.file id'), false, h => cases h; exact ⟨p, ht, hf⟩
  · rintro ⟨p, ht, hf⟩
    unfold find
    rw [ht]
    change (fs.lookUp p >>= _) = _
    rw [hf]
    rfl

theorem find_eq_missing {slash : Bool} (ht : fs.locate path = .ok (.entry p slash))
    (hp : fs.lookUp p = .ok none) : fs.find path = .error .missing := by
  unfold find
  rw [ht]
  change (fs.lookUp p >>= _) = _
  rw [hp]
  rfl

theorem Grows.find (h : Grows fs fs') (hf : fs.find path = .ok (.file id)) :
    fs'.find path = .ok (.file id) := by
  obtain ⟨p, ht, hp⟩ := find_eq_file_iff.1 hf
  exact find_eq_file_iff.2 ⟨p, h.locate_iff.2 ht, h.lookUp hp⟩

/-- Two paths that do not lead to the same place. -/
def Apart (fs : FileSystem) (a b : String) : Prop :=
  ∀ p slash slash', fs.locate a = .ok (.entry p slash) → fs.locate b ≠ .ok (.entry p slash')

theorem Apart.symm {a b : String} (h : fs.Apart a b) : fs.Apart b a :=
  fun p slash slash' hb ha => h p slash' slash ha hb

theorem Grows.apart_iff (h : Grows fs fs') {a b : String} : fs'.Apart a b ↔ fs.Apart a b := by
  unfold Apart
  simp only [ne_eq, h.locate_iff]

theorem find_ne_of_apart {a b : String} (hs : fs.Sound) (h : fs.Apart a b)
    (ha : fs.find a = .ok (.file id)) : fs.find b ≠ .ok (.file id) := by
  intro hb
  obtain ⟨p, hp, hpid⟩ := find_eq_file_iff.1 ha
  obtain ⟨q, hq, hqid⟩ := find_eq_file_iff.1 hb
  have hplace : p = q := hs.place_eq (mem_nodes_of_node? (node?_of_lookUp hpid))
    (mem_nodes_of_node? (node?_of_lookUp hqid))
  exact h p false false hp (hplace ▸ hq)

/-! ### Opening -/

/-- How a path is opened for writing, with the file and the tree that there are then. -/
inductive Opened (fs : FileSystem) (path : String) (empty : Bool) : FileId → FileSystem → Prop where
  /-- A file stands there, which keeps its content unless it is to be emptied. -/
  | found {id : FileId} (h : fs.find path = .ok (.file id)) :
    Opened fs path empty id (if empty then { fs with contents := fs.contents.set id [] } else fs)
  /-- Nothing stands there, and a file is made that is new and empty. -/
  | made {p : Place} (ht : fs.locate path = .ok (.entry p false)) (hp : fs.lookUp p = .ok none) :
    Opened fs path empty fs.contents.length
      { fs with
        nodes := fs.nodes ++ [(p, .file fs.contents.length)], contents := fs.contents ++ [[]] }

theorem opened_of_openForWriting {empty : Bool}
    (h : fs.openForWriting path empty = .ok (id, fs')) : Opened fs path empty id fs' := by
  obtain ⟨t, ht, h⟩ := exists_of_bind_ok h
  match t, ht, h with
  | .directory p, _, h => cases h
  | .entry p true, _, h => cases h
  | .entry p false, ht, h =>
    obtain ⟨found, hf, h⟩ := exists_of_bind_ok (h : (fs.lookUp p >>= _) = _)
    match found, h with
    | some (.file id'), h =>
      cases h
      exact .found (find_eq_file_iff.2 ⟨p, ht, hf⟩)
    | none, h =>
      cases h
      exact .made ht hf

namespace Opened

variable {empty : Bool}

theorem grows (h : Opened fs path empty id fs') : Grows fs fs' := by
  cases h with
  | found =>
    split
    · exact grows_of_nodes_eq rfl rfl
    · exact Grows.refl fs
  | made _ hp => exact grows_add_file (node?_of_lookUp hp) _

/-- The path leads to the file that is open. -/
theorem find (h : Opened fs path empty id fs') : fs'.find path = .ok (.file id) := by
  have hgrows := h.grows
  cases h with
  | found hf => exact hgrows.find hf
  | @made p ht hp =>
    have hmissing := node?_of_lookUp hp
    have hne : p ≠ [] := by
      rintro rfl
      cases hmissing
    refine find_eq_file_iff.2 ⟨p, hgrows.locate_iff.2 ht, ?_⟩
    rw [FileSystem.node?, if_neg hne] at hmissing
    unfold lookUp at hp ⊢
    split
    · rw [if_pos ‹_›] at hp
      cases hp
    · rw [FileSystem.node?, if_neg hne, List.lookup_append, hmissing]
      simp

theorem contentOf (h : Opened fs path empty id fs') :
    fs'.contentOf id = if empty then [] else fs.contentOf id := by
  cases h with
  | found =>
    split
    · simp only [FileSystem.contentOf, List.getElem?_set_self']
      cases fs.contents[id]? <;> rfl
    · rfl
  | made => simp [FileSystem.contentOf]

theorem contentOf_of_ne (h : Opened fs path empty id fs') {other : FileId} (hne : other ≠ id) :
    fs'.contentOf other = fs.contentOf other := by
  cases h with
  | found =>
    split
    · simp only [FileSystem.contentOf, List.getElem?_set_ne hne.symm]
    · rfl
  | made =>
    unfold FileSystem.contentOf
    dsimp only
    rcases Nat.lt_or_gt_of_ne hne with hlt | hgt
    · rw [List.getElem?_append_left hlt]
    · have hlength : (fs.contents ++ [[]]).length ≤ other := by
        rw [List.length_append]
        exact hgt
      rw [List.getElem?_eq_none hlength, List.getElem?_eq_none (Nat.le_of_lt hgt)]

/-- Opening a file that is not to be emptied changes no content. -/
theorem contentOf_of_kept (h : Opened fs path false id fs') (other : FileId) :
    fs'.contentOf other = fs.contentOf other := by
  by_cases hne : other = id
  · subst hne
    exact h.contentOf
  · exact h.contentOf_of_ne hne

end Opened

end Headend.Host.FileSystem
