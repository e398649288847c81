import Headend.Host.FileSystem

/-!
# Files over time

A file keeps its identity wherever it is moved, and it stands at one place at most. Nothing that is
done to the tree brings an identity back: one that is in the tree was there before, or is new. So a
file that has been removed stays gone.

Facts: `later_openForWriting`, `later_removeFile`, `later_rename` and the like (each request leads
to a later tree), `gone_of_removeFile` (a file that was removed is gone), `Gone.later` (and stays
gone), `find_ne_of_gone` (no path leads to it).
-/

namespace Headend.Host

/-- The identity of what stands at a place, if it is a file. -/
def Node.id? : Node → Option FileId
  | directory => none
  | file id => some id

namespace FileSystem

/-- The identities of the files in the tree. -/
def ids (fs : FileSystem) : List FileId := fs.nodes.filterMap fun e => e.2.id?

/-- Every file stands at one place and has a content. -/
structure Sound (fs : FileSystem) : Prop where
  nodup : fs.ids.Nodup
  lt : ∀ id ∈ fs.ids, id < fs.contents.length

/-- A tree that another one may become. -/
structure Later (fs fs' : FileSystem) : Prop where
  length : fs.contents.length ≤ fs'.contents.length
  ids : ∀ id ∈ fs'.ids, id ∈ fs.ids ∨ fs.contents.length ≤ id
  sound : fs.Sound → fs'.Sound

/-- A file that there was once and that is in the tree no more. -/
structure Gone (id : FileId) (fs : FileSystem) : Prop where
  lt : id < fs.contents.length
  not_mem : id ∉ fs.ids

variable {fs fs' fs'' : FileSystem} {path : String} {id : FileId} {p : Place}

theorem Later.refl (fs : FileSystem) : Later fs fs :=
  ⟨Nat.le_refl _, fun _ h => .inl h, fun h => h⟩

theorem Later.trans (h : Later fs fs') (h' : Later fs' fs'') : Later fs fs'' := by
  refine ⟨Nat.le_trans h.length h'.length, fun id hid => ?_, fun hs => h'.sound (h.sound hs)⟩
  rcases h'.ids id hid with hid | hid
  · exact h.ids id hid
  · exact .inr (Nat.le_trans h.length hid)

theorem Gone.later (h : Gone id fs) (hl : Later fs fs') : Gone id fs' := by
  refine ⟨Nat.lt_of_lt_of_le h.lt hl.length, fun hid => ?_⟩
  rcases hl.ids id hid with hid | hid
  · exact h.not_mem hid
  · exact Nat.not_le.2 h.lt hid

/-! ### What stands in the tree -/

theorem mem_ids_of_mem_nodes (h : (p, .file id) ∈ fs.nodes) : id ∈ fs.ids :=
  List.mem_filterMap.2 ⟨_, h, rfl⟩

theorem mem_nodes_of_node? (h : fs.node? p = some (.file id)) : (p, .file id) ∈ fs.nodes := by
  unfold node? at h
  split at h
  · cases h
  · obtain ⟨before, after, he, -⟩ := List.lookup_eq_some_iff.1 h
    rw [he]
    exact List.mem_append_right before List.mem_cons_self

theorem node?_of_lookUp {found : Option Node} (h : fs.lookUp p = .ok found) :
    fs.node? p = found := by
  unfold lookUp at h
  split at h
  · cases h
  · exact Except.ok.inj h

theorem mem_ids_of_find (h : fs.find path = .ok (.file id)) : id ∈ fs.ids := by
  unfold find at h
  cases hl : fs.locate path with
  | error e => rw [hl] at h; cases h
  | ok target =>
    rw [hl] at h
    cases target with
    | directory p => cases h
    | entry p slash =>
      change (fs.lookUp p >>= _) = _ at h
      cases hn : fs.lookUp p with
      | error e => rw [hn] at h; cases h
      | ok found =>
        have hnode := node?_of_lookUp hn
        rw [hn] at h
        match found, h with
        | some (.file id'), h =>
          cases slash
          · cases h
            exact mem_ids_of_mem_nodes (mem_nodes_of_node? hnode)
          · cases h

/-- No path leads to a file that is gone. -/
theorem find_ne_of_gone (h : Gone id fs) (path : String) : fs.find path ≠ .ok (.file id) :=
  fun hf => h.not_mem (mem_ids_of_find hf)

/-- A file stands at one place only. -/
theorem Sound.place_eq (hs : fs.Sound) {q : Place} (hp : (p, .file id) ∈ fs.nodes)
    (hq : (q, .file id) ∈ fs.nodes) : p = q := by
  have hn := hs.nodup
  unfold ids at hn
  generalize fs.nodes = nodes at hp hq hn
  induction nodes with
  | nil => cases hp
  | cons e rest ih =>
    have hrest : ∀ {r : Place}, (r, .file id) ∈ rest →
        id ∈ rest.filterMap fun e => e.2.id? :=
      fun hr => List.mem_filterMap.2 ⟨_, hr, rfl⟩
    rcases List.mem_cons.1 hp with rfl | hp'
    · change (id :: rest.filterMap fun e => e.2.id?).Nodup at hn
      rcases List.mem_cons.1 hq with hq | hq
      · exact (Prod.mk.inj hq).1.symm
      · exact absurd (hrest hq) (List.nodup_cons.1 hn).1
    · rcases List.mem_cons.1 hq with rfl | hq'
      · change (id :: rest.filterMap fun e => e.2.id?).Nodup at hn
        exact absurd (hrest hp') (List.nodup_cons.1 hn).1
      · refine ih hp' hq' (hn.sublist ?_)
        exact (List.sublist_cons_self e rest).filterMap _

/-! ### Later trees -/

theorem later_of_sublist (hc : fs'.contents.length = fs.contents.length)
    (hi : List.Sublist fs'.ids fs.ids) : Later fs fs' := by
  refine ⟨Nat.le_of_eq hc.symm, fun id hid => .inl (hi.subset hid), fun hs => ⟨?_, fun id hid => ?_⟩⟩
  · exact hs.nodup.sublist hi
  · rw [hc]
    exact hs.lt id (hi.subset hid)

theorem later_append (fs : FileSystem) (id : FileId) (bs : Text.Octets) :
    Later fs (fs.append id bs) :=
  later_of_sublist List.length_set (List.Sublist.refl _)

theorem later_filter (fs : FileSystem) (keep : Place × Node → Bool) :
    Later fs { fs with nodes := fs.nodes.filter keep } :=
  later_of_sublist rfl (List.filter_sublist.filterMap _)

theorem later_erase (fs : FileSystem) (p : Place) : Later fs (fs.erase p) :=
  later_filter fs _

theorem later_move (fs : FileSystem) (p q : Place) : Later fs (fs.move p q) := by
  have hi : (fs.move p q).ids = fs.ids := by
    unfold ids move
    rw [List.filterMap_map]
    congr 1
    funext e
    simp only [Function.comp_apply]
    split <;> rfl
  exact later_of_sublist rfl (hi ▸ List.Sublist.refl _)

theorem later_add_directory (fs : FileSystem) (p : Place) :
    Later fs { fs with nodes := fs.nodes ++ [(p, .directory)] } := by
  have hi : ids { fs with nodes := fs.nodes ++ [(p, .directory)] } = fs.ids := by
    unfold ids
    rw [List.filterMap_append]
    exact List.append_nil _
  exact later_of_sublist rfl (hi ▸ List.Sublist.refl _)

theorem later_add_file (fs : FileSystem) (p : Place) :
    Later fs
      { fs with
        nodes := fs.nodes ++ [(p, .file fs.contents.length)], contents := fs.contents ++ [[]] } := by
  have hi : ∀ nodes contents, FileSystem.ids { fs with
      nodes := nodes ++ [(p, .file fs.contents.length)], contents } =
        nodes.filterMap (fun e => e.2.id?) ++ [fs.contents.length] := by
    intro nodes contents
    unfold ids
    rw [List.filterMap_append]
    rfl
  refine ⟨?_, fun id hid => ?_, fun hs => ⟨?_, fun id hid => ?_⟩⟩
  · rw [List.length_append]
    exact Nat.le_add_right _ _
  · rw [hi] at hid
    rcases List.mem_append.1 hid with hid | hid
    · exact .inl hid
    · exact .inr (Nat.le_of_eq (List.mem_singleton.1 hid).symm)
  · rw [hi]
    refine List.nodup_append.2 ⟨hs.nodup, List.pairwise_singleton _ _, fun a ha b hb hab => ?_⟩
    have hlt := hs.lt a ha
    rw [hab, List.mem_singleton.1 hb] at hlt
    exact Nat.lt_irrefl _ hlt
  · rw [hi] at hid
    rw [List.length_append, List.length_singleton]
    rcases List.mem_append.1 hid with hid | hid
    · exact Nat.lt_succ_of_lt (hs.lt id hid)
    · rw [List.mem_singleton.1 hid]
      exact Nat.lt_succ_self _

/-! ### Requests of the process -/

theorem later_openForWriting {empty : Bool} (h : fs.openForWriting path empty = .ok (id, fs')) :
    Later fs fs' := by
  unfold openForWriting at h
  cases hl : fs.locate path with
  | error e => rw [hl] at h; cases h
  | ok target =>
    rw [hl] at h
    cases target with
    | directory p => cases h
    | entry p slash =>
      cases slash
      · change (fs.lookUp p >>= _) = _ at h
        cases hn : fs.lookUp p with
        | error e => rw [hn] at h; cases h
        | ok found =>
          rw [hn] at h
          match found, h with
          | some (.file id'), h =>
            cases h
            cases empty
            · exact Later.refl fs
            · exact later_of_sublist List.length_set (List.Sublist.refl _)
          | none, h =>
            cases h
            exact later_add_file fs p
      · cases h

theorem removeFile_ok (h : fs.removeFile path = .ok (id, fs')) :
    ∃ p, fs.node? p = some (.file id) ∧ fs' = fs.erase p := by
  unfold removeFile at h
  cases hl : fs.locate path with
  | error e => rw [hl] at h; cases h
  | ok target =>
    rw [hl] at h
    cases target with
    | directory p => cases h
    | entry p slash =>
      change (fs.lookUp p >>= _) = _ at h
      cases hn : fs.lookUp p with
      | error e => rw [hn] at h; cases h
      | ok found =>
        have hnode := node?_of_lookUp hn
        rw [hn] at h
        match found, h with
        | some (.file id'), h =>
          cases slash
          · cases h
            exact ⟨p, hnode, rfl⟩
          · cases h

theorem later_removeFile (h : fs.removeFile path = .ok (id, fs')) : Later fs fs' := by
  obtain ⟨p, -, rfl⟩ := removeFile_ok h
  exact later_erase fs p

/-- The place that was removed was the only one of the file. -/
theorem gone_of_removeFile (hs : fs.Sound) (h : fs.removeFile path = .ok (id, fs')) :
    Gone id fs' := by
  obtain ⟨p, hp, rfl⟩ := removeFile_ok h
  have hmem := mem_nodes_of_node? hp
  refine ⟨hs.lt id (mem_ids_of_mem_nodes hmem), fun hid => ?_⟩
  obtain ⟨⟨q, node⟩, he, hid⟩ := List.mem_filterMap.1 hid
  obtain ⟨he, hq⟩ := List.mem_filter.1 he
  obtain rfl : node = .file id := by
    cases node with
    | directory => cases hid
    | file id' => rw [Option.some.inj hid]
  rw [hs.place_eq he hmem] at hq
  simp at hq

/-! ### What others do -/

theorem later_rename (fs : FileSystem) (a b : String) : Later fs (fs.rename a b) := by
  have hreplace : ∀ p q, Later fs ((fs.erase q).move p q) := fun p q =>
    (later_erase fs q).trans (later_move _ p q)
  unfold rename
  split
  · split
    · exact Later.refl fs
    · split
      · split
        · exact Later.refl fs
        · exact hreplace _ _
      · split
        · exact Later.refl fs
        · exact later_move fs _ _
      · split
        · exact Later.refl fs
        · exact hreplace _ _
      · split
        · exact Later.refl fs
        · exact later_move fs _ _
      · exact Later.refl fs
  · exact Later.refl fs

theorem later_removeTree (fs : FileSystem) (path : String) : Later fs (fs.removeTree path) := by
  unfold removeTree
  split
  · split
    · exact later_filter fs _
    · exact Later.refl fs
  · exact later_filter fs _
  · exact Later.refl fs

theorem later_makeFrom (names : List String) :
    ∀ (fs : FileSystem) (p : Place), Later fs (fs.makeFrom p names) := by
  induction names with
  | nil => exact fun fs _ => Later.refl fs
  | cons name rest ih =>
    intro fs p
    rw [makeFrom]
    split
    · exact ih fs _
    · exact (later_add_directory fs _).trans (ih _ _)
    · exact Later.refl fs

theorem later_makeDirectory (fs : FileSystem) (path : String) :
    Later fs (fs.makeDirectory path) := by
  unfold makeDirectory
  split
  · exact later_makeFrom _ fs _
  · exact Later.refl fs

theorem later_writeFile (fs : FileSystem) (path : String) (bs : Text.Octets) :
    Later fs (fs.writeFile path bs) := by
  unfold writeFile
  split
  · rename_i id fs' h
    exact (later_openForWriting h).trans (later_append fs' id bs)
  · exact Later.refl fs

end FileSystem

end Headend.Host
