import Headend.Proofs.PathLookup
import Headend.Tuner.CardListing
import Mathlib.Data.List.Forall2
import Mathlib.Data.List.Perm.Basic

/-!
# The list of front-ends is complete

The directory of adapters and each adapter are read in whatever order their entries stand, and what
is found is sorted at the end. Each front-end of the tree is listed once, with the numbers of its
names, and nothing else is. One adapter that cannot be read makes the whole listing fail; a
front-end that does not tell what it is does not.

Facts: `numbered?_eq_some_iff` (which names have a number), `mem_frontendsBelow` and
`nodup_frontendsBelow` (the front-ends of a tree), `listCards_eq_error_iff` (when the listing
fails), `ordered_sort` and `stable_sort` (the order), `listCards_complete`.
-/

namespace Headend.Tuner

open Headend.Host Headend.Host.FileSystem

/-! ### Names with a number -/

/-- A name that is a word followed by a number that fits in 32 bits, written in digits with an
optional plus sign. -/
def IsNumbered (word name : String) (n : UInt32) : Prop :=
  ∃ sign digits, (sign = [] ∨ sign = ['+']) ∧ digits ≠ [] ∧ (∀ c ∈ digits, c.isDigit = true) ∧
    name.toList = word.toList ++ (sign ++ digits) ∧ Number.natural digits = n.toNat

/-- What stands for a number, apart from an optional plus sign. -/
theorem splitSign_of_digits {sign digits : List Char} (hsign : sign = [] ∨ sign = ['+'])
    (hne : digits ≠ []) (hd : ∀ c ∈ digits, c.isDigit = true) :
    Number.splitSign (sign ++ digits) = (false, digits) ∧ ∀ rest, sign ++ digits ≠ '-' :: rest := by
  rcases hsign with rfl | rfl
  · obtain ⟨c, rest, rfl⟩ := List.exists_cons_of_ne_nil hne
    have hc := hd c List.mem_cons_self
    have hplus : c ≠ '+' := by
      rintro rfl
      cases hc
    have hminus : c ≠ '-' := by
      rintro rfl
      cases hc
    refine ⟨?_, fun r hr => hminus (List.cons.inj hr).1⟩
    rw [List.nil_append, Number.splitSign.eq_3 _ (fun r hr => hminus (List.cons.inj hr).1)
      (fun r hr => hplus (List.cons.inj hr).1)]
  · exact ⟨rfl, fun rest h => by cases h⟩

theorem exists_sign_of_nonneg {cs : List Char} (h : ∀ rest, cs ≠ '-' :: rest) :
    ∃ sign digits, (sign = [] ∨ sign = ['+']) ∧ cs = sign ++ digits ∧
      Number.splitSign cs = (false, digits) := by
  unfold Number.splitSign
  split
  · rename_i rest
    exact absurd rfl (h rest)
  · exact ⟨['+'], _, .inr rfl, rfl, rfl⟩
  · exact ⟨[], _, .inl rfl, rfl, rfl⟩

theorem integer?_eq_some_iff {text : String} {digits : List Char} {m : Int}
    (h : Number.splitSign text.toList = (false, digits)) :
    Number.integer? text = some m ↔
      digits ≠ [] ∧ (∀ c ∈ digits, c.isDigit = true) ∧ m = Number.natural digits := by
  unfold Number.integer?
  rw [h]
  dsimp only
  have hcondition : (digits.isEmpty || !digits.all Char.isDigit) = false ↔
      digits ≠ [] ∧ ∀ c ∈ digits, c.isDigit = true := by
    simp [List.isEmpty_eq_false_iff]
  split
  · rename_i hbad
    constructor
    · intro hm
      cases hm
    · rintro ⟨hne, hd, -⟩
      rw [hcondition.2 ⟨hne, hd⟩] at hbad
      cases hbad
  · rename_i hgood
    obtain ⟨hne, hd⟩ := hcondition.1 (Bool.eq_false_iff.2 hgood)
    rw [if_neg (by decide), Option.some.injEq, eq_comm]
    exact ⟨fun hm => ⟨hne, hd, hm⟩, fun hm => hm.2.2⟩

theorem word?_eq_some_iff {text : String} {n : UInt32} :
    Number.word? text = some n ↔
      ∃ sign digits, (sign = [] ∨ sign = ['+']) ∧ digits ≠ [] ∧ (∀ c ∈ digits, c.isDigit = true) ∧
        text.toList = sign ++ digits ∧ Number.natural digits = n.toNat := by
  unfold Number.word?
  constructor
  · intro h
    split at h
    · cases h
    · rename_i hminus
      obtain ⟨sign, digits, hsign, htext, hsplit⟩ := exists_sign_of_nonneg hminus
      split at h
      · rename_i m hm
        obtain ⟨hne, hd, rfl⟩ := (integer?_eq_some_iff hsplit).1 hm
        split at h
        · rename_i hlt
          refine ⟨sign, digits, hsign, hne, hd, htext, ?_⟩
          rw [← Option.some.inj h, Int.toNat_natCast]
          exact (UInt32.toNat_ofNat_of_lt' (by omega)).symm
        · cases h
      · cases h
  · rintro ⟨sign, digits, hsign, hne, hd, htext, hn⟩
    obtain ⟨hsplit, hminus⟩ := splitSign_of_digits hsign hne hd
    have hlt : (n.toNat : Int) < UInt32.size := Int.ofNat_lt.2 n.toNat_lt_size
    split
    · rename_i rest h
      exact absurd (htext.symm.trans h) (hminus rest)
    · rw [(integer?_eq_some_iff (htext ▸ hsplit)).2 ⟨hne, hd, rfl⟩, hn]
      dsimp only
      rw [if_pos hlt, Int.toNat_natCast, UInt32.ofNat_toNat]

theorem numbered?_eq_some_iff {word name : String} {n : UInt32} :
    numbered? word name = some n ↔ IsNumbered word name n := by
  unfold numbered? IsNumbered
  constructor
  · intro h
    split at h
    · rename_i hword
      obtain ⟨rest, hrest⟩ := List.isPrefixOf_iff_prefix.1 hword
      rw [← hrest, ← String.length_toList, List.drop_left, word?_eq_some_iff,
        String.toList_ofList] at h
      obtain ⟨sign, digits, hsign, hne, hd, rfl, hn⟩ := h
      exact ⟨sign, digits, hsign, hne, hd, hrest.symm, hn⟩
    · cases h
  · rintro ⟨sign, digits, hsign, hne, hd, hname, hn⟩
    rw [hname, if_pos (List.isPrefixOf_iff_prefix.2 (List.prefix_append _ _)),
      ← String.length_toList, List.drop_left, word?_eq_some_iff, String.toList_ofList]
    exact ⟨sign, digits, hsign, hne, hd, rfl, hn⟩

theorem isSome_numbered? {word name : String} :
    (numbered? word name).isSome = true ↔ ∃ n, IsNumbered word name n := by
  rw [Option.isSome_iff_exists]
  exact exists_congr fun n => numbered?_eq_some_iff

/-- A name with a number leads to an entry, if its word begins with a letter and has no slash. -/
theorem IsNumbered.isEntryName {word name : String} {n : UInt32} (h : IsNumbered word name n)
    {c : Char} (hc : word.toList.head? = some c) (hdot : c ≠ '.') (hslash : '/' ∉ word.toList) :
    IsEntryName name := by
  obtain ⟨sign, digits, hsign, -, hd, hname, -⟩ := h
  obtain ⟨rest, hword⟩ := List.head?_eq_some_iff.1 hc
  have hhead : name.toList.head? = some c := by rw [hname, hword]; rfl
  refine ⟨?_, ?_, ?_, ?_⟩
  · rintro rfl
    cases hhead
  · rw [hname, List.mem_append, List.mem_append]
    rintro (h | h | h)
    · exact hslash h
    · rcases hsign with rfl | rfl
      · cases h
      · cases List.mem_singleton.1 h
    · cases hd _ h
  · rintro rfl
    exact hdot (Option.some.inj hhead).symm
  · rintro rfl
    exact hdot (Option.some.inj hhead).symm

theorem isEntryName_adapter {name : String} {n : UInt32} (h : IsNumbered "adapter" name n) :
    IsEntryName name :=
  h.isEntryName (c := 'a') rfl (by decide) (by decide)

theorem isEntryName_frontend {name : String} {n : UInt32} (h : IsNumbered "frontend" name n) :
    IsEntryName name :=
  h.isEntryName (c := 'f') rfl (by decide) (by decide)

/-! ### The front-ends of a tree -/

/-- An entry of a directory whose name is a word followed by a number. -/
def IsNumberedEntry (fs : FileSystem) (word : String) (r : Place) (name : String) : Prop :=
  (∃ node, (r ++ [name], node) ∈ fs.nodes) ∧ ∃ n, IsNumbered word name n

/-- The names of the entries of a directory that are a word followed by a number. -/
def numberedNames (fs : FileSystem) (word : String) (r : Place) : List String :=
  (fs.namesIn r).filter fun name => (numbered? word name).isSome

/-- The names of the front-ends below a directory of adapters, each after that of its adapter. -/
def frontendsBelow (fs : FileSystem) (r : Place) : List (String × String) :=
  (numberedNames fs "adapter" r).flatMap fun a =>
    (numberedNames fs "frontend" (r ++ [a])).map fun f => (a, f)

section Tree

variable {fs : FileSystem} {r : Place} {word : String}

theorem mem_numberedNames {name : String} :
    name ∈ numberedNames fs word r ↔ IsNumberedEntry fs word r name := by
  unfold numberedNames IsNumberedEntry
  rw [List.mem_filter, mem_namesIn, isSome_numbered?]

theorem mem_frontendsBelow {a f : String} :
    (a, f) ∈ frontendsBelow fs r ↔
      IsNumberedEntry fs "adapter" r a ∧ IsNumberedEntry fs "frontend" (r ++ [a]) f := by
  unfold frontendsBelow
  rw [List.mem_flatMap, ← mem_numberedNames, ← mem_numberedNames]
  constructor
  · rintro ⟨a', ha, h⟩
    obtain ⟨f', hf, he⟩ := List.mem_map.1 h
    cases he
    exact ⟨ha, hf⟩
  · rintro ⟨ha, hf⟩
    exact ⟨a, ha, List.mem_map.2 ⟨f, hf, rfl⟩⟩

theorem nodup_frontendsBelow (h : fs.PlacesDistinct) (r : Place) : (frontendsBelow fs r).Nodup := by
  have hnames : ∀ word q, (numberedNames fs word q).Nodup := fun word q =>
    (nodup_namesIn h q).sublist List.filter_sublist
  refine List.pairwise_flatMap.2 ⟨fun a _ => ?_, (hnames _ r).imp fun {a b} hab x hx y hy hxy => ?_⟩
  · exact List.Pairwise.map (fun f => (a, f)) (fun f g hne he => hne (Prod.mk.inj he).2)
      (hnames _ _)
  · -- what is found below two adapters differs in the name of the adapter
    obtain ⟨f, -, rfl⟩ := List.mem_map.1 hx
    obtain ⟨g, -, rfl⟩ := List.mem_map.1 hy
    exact hab (Prod.mk.inj hxy).1

end Tree

/-! ### What a front-end is listed as -/

/-- A device that is opened and tells its name and its type. -/
def Tells (w : World) (path name : String) (type : UInt32) : Prop :=
  ∃ id device field, deviceFile w.files path = .ok id ∧ w.device? id = some device ∧
    device.name = some field ∧ name = Device.readName field ∧ type = device.type

/-- A path that cannot be opened as a device, or one that is opened and does not tell what it is. -/
inductive IsSilent (w : World) (path : String) : Prop where
  | notOpened {e : Failure} (h : deviceFile w.files path = .error e)
  | noAnswer {id : FileId} (h : deviceFile w.files path = .ok id)
      (hd : ∀ device, w.device? id = some device → device.name = none)

/-- A front-end of the tree as it is listed: the numbers of its names, the path that leads to it,
and what it tells about itself. -/
structure Describes (w : World) (root : String) (r : Place) (found : String × String) (c : Card) :
    Prop where
  card : IsNumbered "adapter" found.1 c.card
  tuner : IsNumbered "frontend" found.2 c.tuner
  path : c.path = joinPath (joinPath root found.1) found.2
  leads : ∀ t, w.files.locate c.path = .ok t → t = .entry (r ++ [found.1, found.2]) false
  info_none : c.info = none ↔ IsSilent w c.path
  info_some : ∀ name kind,
    c.info = some (name, kind) ↔ ∃ type, Tells w c.path name type ∧ kind = Kind.typeName type

section Info

variable {w : World} {path : String}

theorem identify_of_device {id : FileId} (h : deviceFile w.files path = .ok id) :
    identify w path =
      match w.device? id with
      | none => .error .noDevice
      | some d =>
        d.identity.map fun told => { path, name := told.1, type := told.2, file := id } := by
  unfold identify
  rw [h]
  change (match w.device? id with | none => _ | some d => _) = _
  cases w.device? id with
  | none => rfl
  | some d =>
    dsimp only
    cases d.identity <;> rfl

theorem cardInfo_eq_some_iff {name kind : String} :
    cardInfo w path = some (name, kind) ↔
      ∃ type, Tells w path name type ∧ kind = Kind.typeName type := by
  unfold cardInfo Tells
  cases hf : deviceFile w.files path with
  | error e =>
    have hi : identify w path = .error e := by
      unfold identify
      rw [hf]
      rfl
    simp [hi]
  | ok id =>
    rw [identify_of_device hf]
    cases hd : w.device? id with
    | none => simp [hd]
    | some d =>
      cases hn : d.name with
      | none => simp [Device.identity, hd, hn, Except.map]
      | some field => simp [Device.identity, hd, hn, Except.map, eq_comm]

theorem cardInfo_eq_none_iff : cardInfo w path = none ↔ IsSilent w path := by
  constructor
  · intro h
    cases hf : deviceFile w.files path with
    | error e => exact .notOpened hf
    | ok id =>
      refine .noAnswer hf fun device hd => ?_
      cases hn : device.name with
      | none => rfl
      | some field =>
        have htold := cardInfo_eq_some_iff.2 ⟨_, ⟨id, device, field, hf, hd, hn, rfl, rfl⟩, rfl⟩
        rw [h] at htold
        cases htold
  · intro h
    cases hi : cardInfo w path with
    | none => rfl
    | some told =>
      obtain ⟨type, ⟨id, device, field, hf, hd, hn, -⟩, -⟩ := cardInfo_eq_some_iff.1 hi
      cases h with
      | notOpened h => rw [hf] at h; cases h
      | noAnswer h hsilent =>
        rw [hf] at h
        cases h
        rw [hsilent device hd] at hn
        cases hn

end Info

/-! ### One request after the other -/

section Requests

variable {ε α β : Type} {f : α → Except ε β}

/-- Mapping a result keeps a failure and makes none. -/
theorem exists_map_eq_error_iff {ε α β : Type} {x : Except ε α} {f : α → β} :
    (∃ e, x.map f = .error e) ↔ ∃ e, x = .error e := by
  cases x with
  | error e => exact ⟨fun _ => ⟨e, rfl⟩, fun _ => ⟨e, rfl⟩⟩
  | ok a =>
    constructor <;>
    · rintro ⟨e, h⟩
      cases h

theorem mapM_eq_ok_iff {xs : List α} {ys : List β} :
    xs.mapM f = .ok ys ↔ List.Forall₂ (fun x y => f x = .ok y) xs ys := by
  induction xs generalizing ys with
  | nil =>
    rw [List.mapM_nil, List.forall₂_nil_left_iff]
    exact ⟨fun h => (Except.ok.inj h).symm, fun h => h ▸ rfl⟩
  | cons x rest ih =>
    rw [List.mapM_cons, List.forall₂_cons_left_iff]
    constructor
    · intro h
      obtain ⟨y, hy, h⟩ := exists_of_bind_ok h
      obtain ⟨ys', hys, h⟩ := exists_of_bind_ok h
      cases h
      exact ⟨y, ys', hy, ih.1 hys, rfl⟩
    · rintro ⟨y, ys', hy, hys, rfl⟩
      rw [hy, ih.2 hys]
      rfl

/-- The first request that fails makes all of them fail. -/
theorem mapM_eq_error_iff {xs : List α} :
    (∃ e, xs.mapM f = .error e) ↔ ∃ x ∈ xs, ∃ e, f x = .error e := by
  induction xs with
  | nil => simp [List.mapM_nil, pure, Except.pure]
  | cons x rest ih =>
    rw [List.mapM_cons, List.exists_mem_cons_iff, ← ih]
    cases f x with
    | error e => exact ⟨fun _ => .inl ⟨e, rfl⟩, fun _ => ⟨e, rfl⟩⟩
    | ok y =>
      cases rest.mapM f with
      | error e => exact ⟨fun _ => .inr ⟨e, rfl⟩, fun _ => ⟨e, rfl⟩⟩
      | ok ys =>
        constructor
        · rintro ⟨e, h⟩
          cases h
        · rintro (⟨e, h⟩ | ⟨e, h⟩) <;> cases h

theorem forall₂_filterMap {γ δ : Type} (g : γ → Option δ) (xs : List γ) :
    List.Forall₂ (fun x y => g x = some y) (xs.filter fun x => (g x).isSome) (xs.filterMap g) := by
  induction xs with
  | nil => exact .nil
  | cons x rest ih =>
    cases hx : g x with
    | none => simpa [hx] using ih
    | some y => simpa [hx] using ih

theorem forall₂_comp {γ δ ζ : Type} {R : γ → δ → Prop} {S : δ → ζ → Prop} {xs : List γ}
    {ys : List δ} {zs : List ζ} (h : List.Forall₂ R xs ys) (h' : List.Forall₂ S ys zs) :
    List.Forall₂ (fun x z => ∃ y, R x y ∧ S y z) xs zs := by
  induction h generalizing zs with
  | nil => rw [List.forall₂_nil_left_iff.1 h']; exact .nil
  | cons hx _ ih =>
    obtain ⟨z, zs', hz, hzs, rfl⟩ := List.forall₂_cons_left_iff.1 h'
    exact .cons ⟨_, hx, hz⟩ (ih hzs)

theorem exists_mem_iff_of_forall₂ {γ δ : Type} {R : γ → δ → Prop} {P : γ → Prop} {Q : δ → Prop}
    {xs : List γ} {ys : List δ} (h : List.Forall₂ R xs ys) (hR : ∀ x y, R x y → (P x ↔ Q y)) :
    (∃ x ∈ xs, P x) ↔ ∃ y ∈ ys, Q y := by
  induction h with
  | nil => simp
  | cons hx _ ih => rw [List.exists_mem_cons_iff, List.exists_mem_cons_iff, hR _ _ hx, ih]

end Requests

/-! ### The order -/

/-- The order in which cards are listed: by card, then by tuner. -/
def InOrder (c d : Card) : Prop := c.card < d.card ∨ c.card = d.card ∧ c.tuner ≤ d.tuner

theorem before_iff {c d : Card} : c.before d = true ↔ InOrder c d := by
  unfold Card.before InOrder
  split
  · rename_i hcard
    simp [hcard]
  · rename_i hcard
    rw [not_not] at hcard
    simp [hcard]

theorem InOrder.trans {a b c : Card} (hab : InOrder a b) (hbc : InOrder b c) : InOrder a c := by
  rcases hab with hab | ⟨hab, hab'⟩
  · rcases hbc with hbc | ⟨hbc, -⟩
    · exact .inl (UInt32.lt_trans hab hbc)
    · exact .inl (hbc ▸ hab)
  · rcases hbc with hbc | ⟨hbc, hbc'⟩
    · exact .inl (hab ▸ hbc)
    · exact .inr ⟨hab.trans hbc, UInt32.le_trans hab' hbc'⟩

theorem InOrder.total (a b : Card) : InOrder a b ∨ InOrder b a := by
  by_cases hcard : a.card = b.card
  · exact (UInt32.le_total a.tuner b.tuner).imp (fun h => .inr ⟨hcard, h⟩)
      fun h => .inr ⟨hcard.symm, h⟩
  · exact (UInt32.lt_or_lt_of_ne hcard).imp .inl .inl

theorem before_trans (a b c : Card) (hab : a.before b = true) (hbc : b.before c = true) :
    a.before c = true :=
  before_iff.2 ((before_iff.1 hab).trans (before_iff.1 hbc))

theorem before_total (a b : Card) : (a.before b || b.before a) = true := by
  rw [Bool.or_eq_true, before_iff, before_iff]
  exact InOrder.total a b

theorem ordered_sort (cards : List Card) : (cards.mergeSort Card.before).Pairwise InOrder :=
  (List.pairwise_mergeSort before_trans before_total cards).imp before_iff.1

/-- Cards that stand in order before the sort keep their places among each other. -/
theorem stable_sort {cards cs : List Card} (hsub : cs.Sublist cards) (h : cs.Pairwise InOrder) :
    cs.Sublist (cards.mergeSort Card.before) :=
  List.sublist_mergeSort before_trans before_total (h.imp before_iff.2) hsub

/-! ### The listing -/

/-- A directory of adapters that cannot be read, or has an adapter that cannot be read. -/
inductive IsUnreadable (fs : FileSystem) (root : String) : Prop where
  | root {e : Failure} (h : fs.listDirectory root = .error e)
  | adapter {r : Place} {a : String} {e : Failure} (hroot : fs.LeadsToDirectory root r)
      (ha : IsNumberedEntry fs "adapter" r a) (h : fs.listDirectory (joinPath root a) = .error e)

/-- A list of the front-ends of a directory of adapters: each is described once, and nothing else
is, in the order of the numbers and, where that leaves it open, of the tree. -/
structure IsListOf (w : World) (root : String) (cards : List Card) : Prop where
  complete : ∃ r found, w.files.LeadsToDirectory root r ∧ found.Nodup ∧
    (∀ a f, (a, f) ∈ found ↔
      IsNumberedEntry w.files "adapter" r a ∧ IsNumberedEntry w.files "frontend" (r ++ [a]) f) ∧
    List.Forall₂ (Describes w root r) found cards
  ordered : cards.Pairwise InOrder
  /-- Front-ends that were found in order, such as two with the same numbers, are not moved past
  each other. -/
  stable : ∃ r inTurn, w.files.LeadsToDirectory root r ∧
    List.Forall₂ (Describes w root r) (frontendsBelow w.files r) inTurn ∧
    ∀ cs : List Card, cs.Sublist inTurn → cs.Pairwise InOrder → cs.Sublist cards

section Listing

variable {w : World} {fs : FileSystem} {root directory word : String} {r q : Place}

/-- The entries that are read are those of the directory that have a number, in its order. -/
theorem numberedEntries_ok {entries : List (UInt32 × String)}
    (h : numberedEntries fs word directory = .ok entries) :
    ∃ r, fs.LeadsToDirectory directory r ∧
      List.Forall₂ (fun name e => IsNumbered word name e.1 ∧ e.2 = joinPath directory name)
        (numberedNames fs word r) entries := by
  unfold numberedEntries at h
  cases hl : fs.listDirectory directory with
  | error e => rw [hl] at h; cases h
  | ok names =>
    obtain ⟨r, hr, rfl⟩ := listDirectory_eq_ok_iff.1 hl
    rw [hl] at h
    cases h
    have hentries := forall₂_filterMap
      (fun name => (numbered? word name).map (·, joinPath directory name)) (fs.namesIn r)
    simp only [Option.isSome_map] at hentries
    refine ⟨r, hr, hentries.imp fun name e he => ?_⟩
    obtain ⟨n, hn, rfl⟩ := Option.map_eq_some_iff.1 he
    exact ⟨numbered?_eq_some_iff.1 hn, rfl⟩

theorem numberedEntries_eq_error_iff (word : String) :
    (∃ e, numberedEntries fs word directory = .error e) ↔
      ∃ e, fs.listDirectory directory = .error e :=
  exists_map_eq_error_iff

theorem cardsOfAdapter_eq_error_iff {n : UInt32} :
    (∃ e, cardsOfAdapter w n directory = .error e) ↔
      ∃ e, w.files.listDirectory directory = .error e :=
  exists_map_eq_error_iff.trans (numberedEntries_eq_error_iff "frontend")

/-- The front-ends of one adapter, as they are listed. -/
theorem cardsOfAdapter_ok {a : String} {n : UInt32} {cards : List Card}
    (hroot : w.files.LeadsToDirectory root r) (ha : IsNumbered "adapter" a n)
    (h : cardsOfAdapter w n (joinPath root a) = .ok cards) :
    List.Forall₂ (Describes w root r)
      ((numberedNames w.files "frontend" (r ++ [a])).map fun f => (a, f)) cards := by
  unfold cardsOfAdapter at h
  cases he : numberedEntries w.files "frontend" (joinPath root a) with
  | error e => rw [he] at h; cases h
  | ok entries =>
    rw [he] at h
    cases h
    obtain ⟨q, hq, hentries⟩ := numberedEntries_ok he
    obtain ⟨rfl, -⟩ := hroot.join (isEntryName_adapter ha) hq
    rw [List.forall₂_map_left_iff, List.forall₂_map_right_iff]
    refine hentries.imp ?_
    rintro f ⟨tuner, path⟩ ⟨hf, hpath⟩
    dsimp only at hpath
    subst hpath
    exact {
      card := ha
      tuner := hf
      path := rfl
      leads := fun t ht => by
        rw [locate_joinPath hq (isEntryName_frontend hf) ht, List.append_assoc]
        rfl
      info_none := cardInfo_eq_none_iff
      info_some := fun _ _ => cardInfo_eq_some_iff }

/-- The cards of each adapter, as they are found. -/
def cardsInTurn (w : World) (root : String) : Except Failure (List (List Card)) :=
  numberedEntries w.files "adapter" root >>= List.mapM fun x => cardsOfAdapter w x.1 x.2

theorem listCards_eq (w : World) (root : String) :
    listCards w root =
      (cardsInTurn w root).map fun cards => cards.flatten.mergeSort Card.before := by
  unfold listCards cardsInTurn
  cases numberedEntries w.files "adapter" root with
  | error e => rfl
  | ok entries =>
    change (entries.mapM (fun x => cardsOfAdapter w x.1 x.2) >>= _) =
      (entries.mapM fun x => cardsOfAdapter w x.1 x.2).map _
    cases entries.mapM fun x => cardsOfAdapter w x.1 x.2 <;> rfl

/-- What is found before it is sorted. -/
theorem exists_found_of_listCards {cards : List Card} (h : listCards w root = .ok cards) :
    ∃ r found, w.files.LeadsToDirectory root r ∧ cards = found.mergeSort Card.before ∧
      List.Forall₂ (Describes w root r) (frontendsBelow w.files r) found := by
  rw [listCards_eq] at h
  cases hturn : cardsInTurn w root with
  | error e => rw [hturn] at h; cases h
  | ok lists =>
    rw [hturn] at h
    obtain ⟨adapters, hadapters, hlists⟩ := exists_of_bind_ok hturn
    obtain ⟨r, hr, hnames⟩ := numberedEntries_ok hadapters
    refine ⟨r, lists.flatten, hr, (Except.ok.inj h).symm, ?_⟩
    unfold frontendsBelow
    rw [List.flatMap_def]
    refine List.rel_flatten (List.forall₂_map_left_iff.2 ?_)
    refine (forall₂_comp hnames (mapM_eq_ok_iff.1 hlists)).imp fun a cards => ?_
    rintro ⟨⟨n, path⟩, ⟨ha, rfl⟩, hcards⟩
    exact cardsOfAdapter_ok hr ha hcards

theorem isUnreadable_iff :
    IsUnreadable fs root ↔
      (∃ e, fs.listDirectory root = .error e) ∨
        ∃ r a, fs.LeadsToDirectory root r ∧ IsNumberedEntry fs "adapter" r a ∧
          ∃ e, fs.listDirectory (joinPath root a) = .error e := by
  constructor
  · rintro (h | ⟨hroot, ha, h⟩)
    · exact .inl ⟨_, h⟩
    · exact .inr ⟨_, _, hroot, ha, _, h⟩
  · rintro (⟨e, h⟩ | ⟨r, a, hroot, ha, e, h⟩)
    · exact .root h
    · exact .adapter hroot ha h

theorem listCards_eq_error_iff :
    (∃ e, listCards w root = .error e) ↔ IsUnreadable w.files root := by
  rw [listCards_eq, exists_map_eq_error_iff, isUnreadable_iff,
    ← numberedEntries_eq_error_iff "adapter"]
  unfold cardsInTurn
  cases he : numberedEntries w.files "adapter" root with
  | error e => exact ⟨fun _ => .inl ⟨e, rfl⟩, fun _ => ⟨e, rfl⟩⟩
  | ok entries =>
    obtain ⟨r, hr, hnames⟩ := numberedEntries_ok he
    have hcards : (∃ e, entries.mapM (fun x => cardsOfAdapter w x.1 x.2) = .error e) ↔
        ∃ x ∈ entries, ∃ e, cardsOfAdapter w x.1 x.2 = .error e := mapM_eq_error_iff
    have hunread : (∃ x ∈ entries, ∃ e, cardsOfAdapter w x.1 x.2 = .error e) ↔
        ∃ a ∈ numberedNames w.files "adapter" r,
          ∃ e, w.files.listDirectory (joinPath root a) = .error e :=
      (exists_mem_iff_of_forall₂ hnames fun a x ⟨_, hx⟩ => by
        rw [cardsOfAdapter_eq_error_iff, hx]).symm
    refine (hcards.trans hunread).trans ?_
    constructor
    · rintro ⟨a, ha, hfail⟩
      exact .inr ⟨r, a, hr, mem_numberedNames.1 ha, hfail⟩
    · rintro (⟨e, h⟩ | ⟨r', a, hr', ha, hfail⟩)
      · cases h
      · obtain rfl := hr.unique hr'
        exact ⟨a, mem_numberedNames.2 ha, hfail⟩

/-- The listing fails exactly where the directory of the adapters or an adapter in it cannot be
read. Otherwise each front-end in an adapter is listed once, and nothing else is, in the order of
the numbers; front-ends with the same numbers stand as they were found. -/
theorem listCards_complete (hplaces : w.files.PlacesDistinct) :
    ((∃ e, listCards w root = .error e) ↔ IsUnreadable w.files root) ∧
      ∀ cards, listCards w root = .ok cards → IsListOf w root cards := by
  refine ⟨listCards_eq_error_iff, fun cards h => ?_⟩
  obtain ⟨r, unsorted, hr, rfl, hdescribes⟩ := exists_found_of_listCards h
  -- sorting the cards sorts what they describe along with them
  have hsorted : Relation.Comp (List.Forall₂ (Describes w root r)) List.Perm
      (frontendsBelow w.files r) (unsorted.mergeSort Card.before) :=
    ⟨unsorted, hdescribes, (List.mergeSort_perm unsorted _).symm⟩
  rw [List.forall₂_comp_perm_eq_perm_comp_forall₂] at hsorted
  obtain ⟨found, hperm, hfound⟩ := hsorted
  have hnodup := hperm.nodup_iff.1 (nodup_frontendsBelow hplaces r)
  exact {
    complete := ⟨r, found, hr, hnodup,
      fun a f => by rw [← hperm.mem_iff, mem_frontendsBelow], hfound⟩
    ordered := ordered_sort unsorted
    stable := ⟨r, unsorted, hr, hdescribes, fun _ => stable_sort⟩ }

/-- A tree with two adapters whose entries stand in no order. One device tells what it is, another
does not, and two front-ends, one of them with the numbers of another, are plain files. -/
def scattered : World where
  files :=
    { nodes := [(["dvb"], .directory), (["dvb", "adapter10"], .directory),
        (["dvb", "adapter10", "frontend0"], .file 0), (["dvb", "adapter2"], .directory),
        (["dvb", "by-path"], .file 1), (["dvb", "adapter2", "frontend1"], .file 2),
        (["dvb", "adapter2", "frontend01"], .file 3), (["dvb", "adapter2", "demux0"], .file 4),
        (["dvb", "adapter2", "frontend+0"], .file 5)]
      contents := [[], [], [], [], [], []] }
  devices := [(0, { name := some (Text.octets "Card"), type := 2 }), (2, { type := 2 })]

theorem listCards_complete_scattered :
    scattered.files.PlacesDistinct ∧
      (∀ cards, listCards scattered "/dvb" = .ok cards → IsListOf scattered "/dvb" cards) ∧
      listCards scattered "/dvb" =
        .ok [⟨2, 0, "/dvb/adapter2/frontend+0", none⟩, ⟨2, 1, "/dvb/adapter2/frontend1", none⟩,
          ⟨2, 1, "/dvb/adapter2/frontend01", none⟩,
          ⟨10, 0, "/dvb/adapter10/frontend0", some ("Card", "DVB-T")⟩] := by
  have hplaces : scattered.files.PlacesDistinct := by
    unfold PlacesDistinct
    decide +kernel
  have hfound : cardsInTurn scattered "/dvb" =
      .ok [[⟨10, 0, "/dvb/adapter10/frontend0", some ("Card", "DVB-T")⟩],
        [⟨2, 1, "/dvb/adapter2/frontend1", none⟩, ⟨2, 1, "/dvb/adapter2/frontend01", none⟩,
          ⟨2, 0, "/dvb/adapter2/frontend+0", none⟩]] := by
    decide +kernel
  refine ⟨hplaces, (listCards_complete hplaces).2, ?_⟩
  rw [listCards_eq, hfound]
  refine congrArg Except.ok ?_
  simp [List.mergeSort, List.MergeSort.Internal.splitInTwo, Card.before]

end Listing

end Headend.Tuner
