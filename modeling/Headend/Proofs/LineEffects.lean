import Headend.Proofs.Frames

/-!
# What a line does, whatever the draft

Whether a line is accepted and what it does to its target is written in the line alone: a reader
looks at the channel that is open only to report a failure. So a line that is accepted once is
accepted, with the same effect, on every draft on which its target is there.

Facts: `Section.placeless_vocabulary` (no value depends on the channel that is open),
`accepts_of_no_target`, `accepts_part`, `accepts_channel` and `accepts_table` (what lines of each
kind do), `lineTarget?_eq_table_iff` (only `new_channel` opens channels).
-/

namespace Headend.Config

/-! ### Readers -/

namespace Reader

/-- What a reader yields does not depend on the channel that is open. -/
def Placeless (r : Reader α) : Prop :=
  ∀ keyword i j c v left, r.run ⟨keyword, i⟩ c = .ok v left → r.run ⟨keyword, j⟩ c = .ok v left

variable {r s : Reader α} {f : α → Reader β}

@[simp] theorem placeless_pure (v : α) : (pure v : Reader α).Placeless :=
  fun _ _ _ _ _ _ h => h

@[simp] theorem placeless_next : next.Placeless := fun _ _ _ _ _ _ h => h

@[simp] theorem placeless_whole : whole.Placeless := fun _ _ _ _ _ _ h => h

@[simp] theorem placeless_missing : (missing : Reader α).Placeless := by
  intro keyword i j c v left h
  cases h

@[simp] theorem placeless_orBad (raw : String) (o : Option α) : (orBad raw o).Placeless := by
  intro keyword i j c v left h
  cases o with
  | some w => exact h
  | none => cases h

theorem placeless_bind (hr : r.Placeless) (hf : ∀ v, (f v).Placeless) :
    (r >>= f).Placeless := by
  intro keyword i j c v left h
  rw [run_bind] at h ⊢
  cases hi : r.run ⟨keyword, i⟩ c with
  | error e mid => rw [hi] at h; cases h
  | ok w mid =>
    rw [hi] at h
    rw [hr keyword i j c w mid hi]
    exact hf w keyword i j mid v left h

theorem placeless_map {g : α → β} (hr : r.Placeless) : (g <$> r).Placeless :=
  placeless_bind hr fun v => placeless_pure (g v)

theorem placeless_ite {p : Prop} [Decidable p] (hr : r.Placeless) (hs : s.Placeless) :
    (if p then r else s).Placeless := by
  split
  · exact hr
  · exact hs

/-- A reader may ask for its site if it uses no more of it than the keyword. -/
theorem placeless_read {f : Site → Reader β} (hk : ∀ keyword i j, f ⟨keyword, i⟩ = f ⟨keyword, j⟩)
    (hf : ∀ site, (f site).Placeless) : (read >>= f).Placeless := by
  intro keyword i j c v left h
  change (f ⟨keyword, j⟩).run ⟨keyword, j⟩ c = .ok v left
  rw [hk keyword j i]
  exact hf ⟨keyword, i⟩ keyword i j c v left h

/-- A failure may name the channel. -/
theorem placeless_failure (e : Site → ConfigError) (g : PUnit → Reader α) :
    (read >>= fun site : Site => throw (e site) >>= g).Placeless := by
  intro keyword i j c v left h
  cases h

theorem placeless_throw (e : ConfigError) (g : PUnit → Reader α) :
    (throw e >>= g).Placeless := by
  intro keyword i j c v left h
  cases h

@[simp] theorem placeless_word : word.Placeless := by
  refine placeless_bind placeless_next fun t => ?_
  cases t with
  | some t => exact placeless_pure t
  | none => exact placeless_missing

theorem placeless_foldRounds {f : α → String → Reader α} (hf : ∀ a raw, (f a raw).Placeless)
    (rounds : Nat) : ∀ a, (foldRounds f rounds a).Placeless := by
  induction rounds with
  | zero => exact fun a => placeless_pure a
  | succ rounds ih =>
    intro a
    refine placeless_bind placeless_next fun t => ?_
    cases t with
    | none => exact placeless_pure a
    | some raw => exact placeless_bind (hf a raw) ih

theorem placeless_fold {f : α → String → Reader α} (a : α) (hf : ∀ a raw, (f a raw).Placeless) :
    (fold f a).Placeless :=
  fun keyword i j c v left h => placeless_foldRounds hf c.rest.length a keyword i j c v left h

/-! ### Kinds of values -/

@[simp] theorem placeless_int : int.Placeless := placeless_map placeless_word

@[simp] theorem placeless_flag : flag.Placeless := placeless_map placeless_int

@[simp] theorem placeless_tristate : tristate.Placeless := placeless_map placeless_int

@[simp] theorem placeless_float : float.Placeless := placeless_map placeless_word

@[simp] theorem placeless_uint : uint.Placeless :=
  placeless_bind placeless_word fun raw => placeless_orBad raw _

@[simp] theorem placeless_uint16 : uint16.Placeless :=
  placeless_bind placeless_word fun raw => placeless_orBad raw _

@[simp] theorem placeless_uint8 (limit : Nat) : (uint8 limit).Placeless :=
  placeless_bind placeless_word fun raw => placeless_orBad raw _

@[simp] theorem placeless_named (ofName? : String → Option α) : (named ofName?).Placeless :=
  placeless_bind placeless_word fun raw => placeless_orBad raw _

@[simp] theorem placeless_set (put : α → β → β) (hr : r.Placeless) : (set r put).Placeless :=
  placeless_bind hr fun _ => placeless_pure _

@[simp] theorem placeless_setSaying (put : α → β → β) (said : α → List Record)
    (hr : r.Placeless) : (setSaying r put said).Placeless :=
  placeless_bind hr fun _ => placeless_pure _

@[simp] theorem placeless_setPath (put : String → β → β) : (setPath put).Placeless :=
  placeless_read (fun _ _ _ => rfl) fun _ => placeless_bind placeless_word fun _ =>
    placeless_ite (placeless_pure _) (placeless_pure _)

end Reader

open Reader

@[simp] theorem placeless_serviceList : serviceList.Placeless :=
  placeless_fold [] fun _ raw => placeless_map (placeless_orBad raw _)

@[simp] theorem placeless_expression : expression.Placeless := placeless_map placeless_whole

@[simp] theorem placeless_pidList : pidList.Placeless := by
  refine placeless_fold [] fun pids raw => ?_
  refine placeless_ite (placeless_throw _ _) ?_
  exact placeless_ite (placeless_failure _ _) (placeless_pure _)

@[simp] theorem placeless_pmtPid : pmtPid.Placeless :=
  placeless_bind placeless_int fun _ => placeless_ite (placeless_throw _ _) (placeless_pure _)

@[simp] theorem placeless_setFiltering : setFiltering.Placeless := by
  refine placeless_bind placeless_word fun raw => ?_
  split
  · exact placeless_pure _
  · exact placeless_pure _

@[simp] theorem placeless_setService : setService.Placeless := placeless_set _ placeless_uint16

/-- The value of a directive does not depend on the channel that is open. -/
def Directive.Placeless : Directive → Prop
  | .openChannel => True
  | .channel _ read => read.Placeless
  | .parameter _ read => read.Placeless

theorem Section.placeless_vocabulary (s : Section) : ∀ e ∈ s.vocabulary, e.2.Placeless := by
  cases s with
  | tuning =>
    simp [vocabulary, tuningVocabulary, tuningDirective, lnbDirective, Directive.Placeless]
  | autoconf => simp [vocabulary, autoconfVocabulary, autoconfDirective, Directive.Placeless]
  | sap =>
    simp [vocabulary, sapVocabulary, sapDirective, channelDirective, Directive.Placeless]
  | cam => simp [vocabulary, camVocabulary, camDirective, Directive.Placeless]
  | scam =>
    simp [vocabulary, scamVocabulary, scamDirective, channelScamDirective, channelDirective,
      Directive.Placeless]
  | unicast =>
    simp [vocabulary, unicastVocabulary, unicastDirective, channelDirective, Directive.Placeless]
  | multicast =>
    simp [vocabulary, multicastVocabulary, multicastDirective, channelDirective,
      Directive.Placeless]
  | rewrite => simp [vocabulary, rewriteVocabulary, rewriteDirective, Directive.Placeless]
  | logging => simp [vocabulary, loggingVocabulary, loggingDirective, Directive.Placeless]
  | main =>
    simp [vocabulary, mainVocabulary, optionsDirective, bufferingDirective, channelDirective,
      Directive.Placeless]

/-! ### Accepted lines -/

/-- The target of a keyword, if a section of the chain owns it. -/
def target? (chain : List Section) (keyword : String) : Option Target :=
  (owner? chain keyword).map (·.2.target)

/-- The target of a line; there is none if the line is no directive or nobody owns its keyword. -/
def lineTarget? (chain : List Section) (raw : String) : Option Target :=
  (lineKeyword? raw).bind (target? chain)

/-- A line does not fail and takes one draft to another. -/
def Accepts (chain : List Section) (raw : String) (d d' : Draft) : Prop :=
  (∃ outcome, (dispatch chain d raw).outcome = .ok outcome) ∧ (dispatch chain d raw).draft = d'

variable {chain : List Section} {raw : String} {d d' : Draft}

theorem accepts_of_no_target (h : lineTarget? chain raw = none) :
    Accepts chain raw d d' ↔ d' = d := by
  unfold lineTarget? lineKeyword? target? at h
  unfold Accepts
  rw [dispatch_eq]
  cases hl : directiveLine? (stripEnds raw.toList) with
  | none => simp [eq_comm]
  | some r =>
    obtain ⟨keyword, rest⟩ := r
    simp only [hl, Option.map_some, Option.bind_some, Option.map_eq_none_iff] at h
    simp [h, eq_comm]

/-- A line with a target is accepted exactly if its directive succeeds. -/
theorem exists_directive_of_target {t : Target} (h : lineTarget? chain raw = some t) :
    ∃ (keyword : String) (rest : Cursor) (dir : Directive), dir.target = t ∧ dir.Placeless ∧
      ∀ d d', Accepts chain raw d d' ↔ (dir.apply keyword d rest).result = .ok d' := by
  obtain ⟨keyword, hk, ht⟩ := Option.bind_eq_some_iff.1 h
  obtain ⟨⟨keyword', rest⟩, hl, rfl⟩ := Option.map_eq_some_iff.1 hk
  obtain ⟨⟨s, dir⟩, ho, rfl⟩ := Option.map_eq_some_iff.1 ht
  have hv := Section.mem_vocabulary (owner?_eq_some ho).2
  refine ⟨keyword', rest, dir, rfl, s.placeless_vocabulary _ hv, fun d d' => ?_⟩
  unfold Accepts
  rw [dispatch_eq]
  simp only [hl, ho]
  cases (dir.apply keyword' d rest).result <;> simp

/-- The value that a reader yields, wherever it is read. -/
theorem Reader.Placeless.exists_value {r : Reader α} (hr : r.Placeless) (keyword : String)
    (c : Cursor) :
    ∃ value? : Option α, ∀ i v, (∃ left, r.run ⟨keyword, i⟩ c = .ok v left) ↔ value? = some v := by
  cases h : r.run ⟨keyword, 0⟩ c with
  | ok w left =>
    refine ⟨some w, fun i v => ⟨fun ⟨left', hv⟩ => ?_, fun hv => ?_⟩⟩
    · have h' := hr keyword i 0 c v left' hv
      rw [h] at h'
      cases h'
      rfl
    · cases hv
      exact ⟨left, hr keyword 0 i c w left h⟩
  | error e left =>
    refine ⟨none, fun i v => ⟨fun ⟨left', hv⟩ => ?_, fun hv => by cases hv⟩⟩
    have h' := hr keyword i 0 c v left' hv
    rw [h] at h'
    cases h'

/-- A line about a part fails on every draft, or makes the same change to the part of each. -/
theorem accepts_part {p : Part} (h : lineTarget? chain raw = some (.part p)) :
    ∃ change? : Option (p.Params → p.Params), ∀ d d', Accepts chain raw d d' ↔
      ∃ change, change? = some change ∧
        d' = { d with store := d.store.setPart p (change (d.store.part p)) } := by
  obtain ⟨keyword, rest, dir, ht, hr, ha⟩ := exists_directive_of_target h
  cases dir with
  | openChannel => cases ht
  | channel first read => cases ht
  | parameter q read =>
    cases ht
    obtain ⟨value?, hvalue⟩ := Reader.Placeless.exists_value hr keyword rest
    refine ⟨value?.map fun change v => (change v).1, fun d d' => ?_⟩
    rw [ha]
    constructor
    · intro hd
      obtain ⟨change, left, hc, rfl⟩ := Directive.apply_parameter hd
      exact ⟨_, by rw [(hvalue _ change).1 ⟨left, hc⟩]; rfl, rfl⟩
    · rintro ⟨_, hmap, rfl⟩
      obtain ⟨change, hv, rfl⟩ := Option.map_eq_some_iff.1 hmap
      obtain ⟨left, hc⟩ := (hvalue (d.current.getD 0) change).2 hv
      simp only [Directive.apply, Directive.readChange, hc, Directive.finish]

/-- A line about the open channel fails on every draft, or makes the same change to the open
channel of each draft that has one. -/
theorem accepts_channel (h : lineTarget? chain raw = some .channel) :
    ∃ change? : Option (Channel → Channel), ∀ d d', Accepts chain raw d d' ↔
      ∃ change i ch, change? = some change ∧ d.openedChannel = some (i, ch) ∧
        d' = { d with
          store := { d.store with channels := d.store.channels.set i (change ch) } } := by
  obtain ⟨keyword, rest, dir, ht, hr, ha⟩ := exists_directive_of_target h
  cases dir with
  | openChannel => cases ht
  | parameter q read => cases ht
  | channel first read =>
    obtain ⟨value?, hvalue⟩ := Reader.Placeless.exists_value hr keyword rest
    refine ⟨value?.map fun change v => (change v).1, fun d d' => ?_⟩
    rw [ha]
    constructor
    · intro hd
      obtain ⟨i, ch, change, left, ho, hc, rfl⟩ := Directive.apply_channel hd
      exact ⟨_, i, ch, by rw [(hvalue _ change).1 ⟨left, hc⟩]; rfl, ho, rfl⟩
    · rintro ⟨_, i, ch, hmap, ho, rfl⟩
      obtain ⟨change, hv, rfl⟩ := Option.map_eq_some_iff.1 hmap
      obtain ⟨left, hc⟩ := (hvalue i change).2 hv
      simp only [Directive.apply, ho, Directive.readChange, hc, Directive.finish]

/-- A draft with one more channel, which is open. -/
def Draft.opened (d : Draft) : Draft where
  store := { d.store with
    channels.entries := d.store.channels.entries ++ [{ readiness := .almostReady }] }
  current := some d.store.channels.length

/-- A line that opens a channel does so on every draft that has room for one. -/
theorem accepts_table (h : lineTarget? chain raw = some .table) :
    Accepts chain raw d d' ↔ d.store.channels.length < maxChannels ∧ d' = d.opened := by
  obtain ⟨keyword, rest, dir, ht, -, ha⟩ := exists_directive_of_target h
  cases dir with
  | channel first read => cases ht
  | parameter q read => cases ht
  | openChannel =>
    rw [ha]
    constructor
    · exact Directive.apply_openChannel
    · rintro ⟨hl, rfl⟩
      simp only [Directive.apply, ChannelTable.openChannel, if_pos hl]
      rfl

/-- Only `new_channel` opens channels, and it does nothing else. -/
theorem lineTarget?_eq_table_iff :
    lineTarget? Section.all raw = some .table ↔ lineKeyword? raw = some newChannel := by
  unfold lineTarget?
  constructor
  · intro h
    obtain ⟨keyword, hk, ht⟩ := Option.bind_eq_some_iff.1 h
    obtain ⟨⟨s, dir⟩, ho, hd⟩ := Option.map_eq_some_iff.1 ht
    have haim := Section.directive?_target (owner?_eq_some ho).2
    rw [show dir.target = .table from hd] at haim
    rw [hk, haim.1]
  · intro h
    rw [h]
    rfl

end Headend.Config
