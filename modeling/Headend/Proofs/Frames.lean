import Headend.Proofs.Vocabulary

/-!
# What a line may change

A line does all that it stands for or nothing. One that is not handled leaves the draft as it was;
`new_channel` appends a channel and opens it; any other one that is handled changes one part of the
store, which belongs to the section that took the line, or the open channel, and nothing else. All
of it follows from what the directives of the vocabulary are aimed at (`vocabulary_target`).

Facts: `dispatch_of_handled` and `dispatch_of_not_handled` (where the draft comes from),
`Section.draft_of_error` (a section that fails has changed nothing),
`apply_partChanged`, `apply_entryChanged` and `apply_channelOpened` (the frame of each kind of
directive), `dispatch_frame` (the frame of a line).
-/

namespace Headend.Config

/-! ### Targets -/

/-- What a directive is aimed at. -/
inductive Target where
  | table
  | channel
  | part (p : Part)
deriving DecidableEq

/-- The target of a directive. -/
def Directive.target : Directive → Target
  | .openChannel => .table
  | .channel .. => .channel
  | .parameter p _ => .part p

/-- The parts of the store that belong to a section. -/
def Section.parts : Section → List Part
  | tuning => [.tuning]
  | autoconf => [.autoconf]
  | sap => [.sap]
  | cam => [.cam]
  | scam => [.scam]
  | unicast => [.unicast]
  | multicast => [.multicast]
  | rewrite => [.rewrite]
  | logging => [.logging]
  | main => [.options, .buffering]

/-- Whether a section may aim at a target with a keyword. -/
def Section.Aims (s : Section) (keyword : String) : Target → Prop
  | .table => keyword = newChannel ∧ s = main
  | .channel => keyword ≠ newChannel
  | .part p => keyword ≠ newChannel ∧ p ∈ s.parts

instance (s : Section) (keyword : String) : (t : Target) → Decidable (s.Aims keyword t)
  | .table => inferInstanceAs (Decidable (keyword = newChannel ∧ s = .main))
  | .channel => inferInstanceAs (Decidable (keyword ≠ newChannel))
  | .part p => inferInstanceAs (Decidable (keyword ≠ newChannel ∧ p ∈ s.parts))

theorem Section.vocabulary_target (s : Section) :
    ∀ e ∈ s.vocabulary, s.Aims e.1 e.2.target := by
  cases s <;> decide +kernel

theorem Section.mem_vocabulary {s : Section} {keyword : String} {d : Directive}
    (h : s.directive? keyword = some d) : (keyword, d) ∈ s.vocabulary := by
  obtain ⟨before, after, he, -⟩ := List.lookup_eq_some_iff.1 h
  rw [he]
  exact List.mem_append_right before List.mem_cons_self

theorem Section.directive?_target {s : Section} {keyword : String} {d : Directive}
    (h : s.directive? keyword = some d) : s.Aims keyword d.target :=
  s.vocabulary_target (keyword, d) (mem_vocabulary h)

/-! ### Where the draft comes from -/

theorem owner?_eq_some {chain : List Section} {keyword : String} {s : Section} {d : Directive}
    (h : owner? chain keyword = some (s, d)) : s ∈ chain ∧ s.directive? keyword = some d := by
  obtain ⟨s', hs', he⟩ := List.exists_of_findSome?_eq_some h
  obtain ⟨d', hd', he'⟩ := Option.map_eq_some_iff.1 he
  obtain ⟨rfl, rfl⟩ := Prod.mk.inj he'
  exact ⟨hs', hd'⟩

/-- The keyword of a line that is a directive. -/
def lineKeyword? (raw : String) : Option String :=
  (directiveLine? (stripEnds raw.toList)).map (·.1)

variable {chain : List Section} {draft draft' : Draft} {raw : String} {s : Section}

theorem dispatch_of_handled (h : (dispatch chain draft raw).outcome = .ok (.handled s)) :
    ∃ keyword rest d, lineKeyword? raw = some keyword ∧ s ∈ chain ∧
      s.directive? keyword = some d ∧
      (d.apply keyword draft rest).result = .ok (dispatch chain draft raw).draft := by
  rw [dispatch_eq] at h ⊢
  unfold lineKeyword?
  split at h
  · cases h
  · rename_i keyword rest hl
    split at h
    · cases h
    · rename_i s' d ho
      obtain ⟨hs, hd⟩ := owner?_eq_some ho
      split at h
      · rename_i draft' hr
        cases h
        exact ⟨keyword, rest, d, by rw [hl]; rfl, hs, hd, by simp only [hr]⟩
      · cases h

theorem dispatch_of_not_handled
    (h : ∀ s, (dispatch chain draft raw).outcome ≠ .ok (.handled s)) :
    (dispatch chain draft raw).draft = draft := by
  rw [dispatch_eq] at h ⊢
  split
  · rfl
  · split
    · rfl
    · split
      · rename_i draft' hr
        simp_all
      · rfl

/-! ### Lines that fail -/

/-- The program of a section that fails has changed nothing up to there. -/
theorem Section.draft_of_error {k : String} {ctx ctx' : Context} {e : ConfigError}
    (h : s.recognize.run k ctx = .error e ctx') : ctx'.draft = ctx.draft := by
  cases hd : s.directive? k with
  | none =>
    rw [recognize_of_no_directive hd] at h
    cases h
  | some d =>
    rw [recognize_of_directive hd] at h
    simp only [Recognizer.run, Directive.recognize] at h
    split at h
    · cases h
    · cases h
      rfl

theorem ask_of_error {k : String} {ctx ctx' : Context} {e : ConfigError}
    (h : (ask chain).run k ctx = .error e ctx') : ctx'.draft = ctx.draft := by
  induction chain with
  | nil => cases h
  | cons s rest ih =>
    simp only [ask, Recognizer.run_bind] at h
    split at h
    · rename_i answer ctx₁ hs
      cases answer with
      | handled => cases h
      | notMine =>
        obtain ⟨-, rfl⟩ := Section.notMine_iff.1 hs
        exact ih h
    · rename_i e' ctx₁ hs
      cases h
      exact Section.draft_of_error hs

/-- A line that fails leaves the draft as it was. -/
theorem dispatch_of_error {e : ConfigError} (h : (dispatch chain draft raw).outcome = .error e) :
    (dispatch chain draft raw).draft = draft := by
  unfold dispatch at h ⊢
  dsimp only at h ⊢
  split at h
  · rfl
  · rename_i keyword rest hl
    split at h
    · cases h
    · rename_i outcome ctx hne hask
      cases h
    · rename_i e' ctx hask
      exact ask_of_error hask

/-! ### Frames -/

/-- Two drafts differ at most in the parameters of a part. -/
structure PartChanged (p : Part) (draft draft' : Draft) : Prop where
  parts : ∀ q ≠ p, draft'.store.part q = draft.store.part q
  channels : draft'.store.channels = draft.store.channels
  current : draft'.current = draft.current

/-- Two drafts differ at most in the channel that is open. -/
structure EntryChanged (draft draft' : Draft) : Prop where
  parts : ∀ q, draft'.store.part q = draft.store.part q
  opened : ∃ i, draft.current = some i ∧ i < draft.store.channels.length
  entries : ∀ i, draft.current ≠ some i →
    draft'.store.channels.entries[i]? = draft.store.channels.entries[i]?
  length : draft'.store.channels.length = draft.store.channels.length
  published : draft'.store.channels.published = draft.store.channels.published
  current : draft'.current = draft.current

/-- The second draft has one more channel at the end of the table, which is open. -/
structure ChannelOpened (draft draft' : Draft) : Prop where
  parts : ∀ q, draft'.store.part q = draft.store.part q
  entries : draft'.store.channels.entries =
    draft.store.channels.entries ++ [{ readiness := .almostReady }]
  published : draft'.store.channels.published = draft.store.channels.published
  current : draft'.current = some draft.store.channels.length

variable {keyword : String} {c : Cursor}

theorem apply_partChanged {p : Part} {read : Reader (Change p.Params)}
    (h : (Directive.apply (.parameter p read) keyword draft c).result = .ok draft') :
    PartChanged p draft draft' := by
  obtain ⟨change, left, -, rfl⟩ := Directive.apply_parameter h
  exact ⟨fun q hq => draft.store.part_setPart_of_ne hq _, draft.store.channels_setPart p _, rfl⟩

theorem apply_entryChanged {first : List Record} {read : Reader (Change Channel)}
    (h : (Directive.apply (.channel first read) keyword draft c).result = .ok draft') :
    EntryChanged draft draft' := by
  obtain ⟨i, ch, change, left, ho, -, rfl⟩ := Directive.apply_channel h
  obtain ⟨hc, he⟩ := openedChannel_eq_some ho
  have hi : i < draft.store.channels.length := (List.getElem?_eq_some_iff.1 he).1
  refine ⟨fun q => by cases q <;> rfl, ⟨i, hc, hi⟩, fun j hj => ?_, ?_, rfl, rfl⟩
  · have hij : i ≠ j := fun hij => hj (hij ▸ hc)
    exact List.getElem?_set_ne hij
  · exact ChannelTable.length_set _ _ _

theorem apply_channelOpened
    (h : (Directive.apply .openChannel keyword draft c).result = .ok draft') :
    ChannelOpened draft draft' := by
  obtain ⟨-, rfl⟩ := Directive.apply_openChannel h
  exact ⟨fun q => by cases q <;> rfl, rfl, rfl, rfl⟩

/-- How a line with a keyword may change a draft, by what became of it. -/
def LineFrame (keyword? : Option String) (draft draft' : Draft) :
    Except ConfigError LineOutcome → Prop
  | .ok (.handled s) =>
    if keyword? = some newChannel then s = .main ∧ ChannelOpened draft draft'
    else (∃ p ∈ s.parts, PartChanged p draft draft') ∨ EntryChanged draft draft'
  | .ok .skipped | .ok .unknown | .error _ => draft' = draft

theorem lineFrame_of_handled {d : Directive} (hk : s.directive? keyword = some d)
    (h : (d.apply keyword draft c).result = .ok draft') :
    LineFrame (some keyword) draft draft' (.ok (.handled s)) := by
  have ht := Section.directive?_target hk
  simp only [LineFrame, Option.some.injEq]
  cases d with
  | openChannel =>
    rw [if_pos ht.1]
    exact ⟨ht.2, apply_channelOpened h⟩
  | channel first read =>
    rw [if_neg ht]
    exact .inr (apply_entryChanged h)
  | parameter p read =>
    rw [if_neg ht.1]
    exact .inl ⟨p, ht.2, apply_partChanged h⟩

/-- A line that is not handled changes nothing. `new_channel` changes the table by one more entry
and opens it. Any other line that is handled changes at most one part that belongs to its section,
or the channel that is open. -/
theorem dispatch_frame (chain : List Section) (draft : Draft) (raw : String) :
    LineFrame (lineKeyword? raw) draft (dispatch chain draft raw).draft
      (dispatch chain draft raw).outcome := by
  cases ho : (dispatch chain draft raw).outcome with
  | error e => exact dispatch_of_error ho
  | ok outcome =>
    cases outcome with
    | handled s =>
      obtain ⟨keyword, rest, d, hk, -, hd, hr⟩ := dispatch_of_handled ho
      rw [hk]
      exact lineFrame_of_handled hd hr
    | skipped => exact dispatch_of_not_handled fun s hs => by rw [ho] at hs; cases hs
    | unknown => exact dispatch_of_not_handled fun s hs => by rw [ho] at hs; cases hs

end Headend.Config
