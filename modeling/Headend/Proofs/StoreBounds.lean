import Headend.Proofs.Frames

/-!
# Bounds of the store

Whatever the lines of a configuration say, the store stays within bounds: few channels, few PIDs,
each within its range, a name that fits, paths that are short enough. A reader yields changes that
keep the bounds of the part they are for (`Section.valid_vocabulary`), so a line keeps them
(`valid_dispatch`), and so do any number of lines.

Facts: what readers yield (`yields_bind`, `yields_fold`, `yields_set`), the bounds of PIDs and names
(`yields_pidList`, `cutName_ne_empty`), `valid_foldl_dispatch` (the bounds hold after any lines).
-/

namespace Headend.Config

/-! ### Bounds -/

/-- A channel of a configuration that is being read. -/
structure Channel.Valid (c : Channel) : Prop where
  pids_length : c.pids.length ≤ 127
  pids_range : ∀ p ∈ c.pids, 10 ≤ p.toNat ∧ p.toNat ≤ 8192
  pids_set : c.pids ≠ [] → c.pidsUserSet = true
  pmtRewrite : c.pidsUserSet = c.pmtRewrite
  pmtPid : ∀ p, c.pmtPid = some p → 10 ≤ p.toNat ∧ p.toNat ≤ 8191
  userName : c.name = c.userName
  name_size : Text.size c.name.toList ≤ 255
  name_set : c.name ≠ "" ↔ c.nameUserSet = true
  readiness : c.readiness = .almostReady

/-- Tuning parameters within bounds. -/
structure Tuning.Valid (t : Tuning) : Prop where
  satNumber : t.satNumber.toNat ≤ 4
  cardDevPath : Text.size t.cardDevPath.toList < 255
  readFilePath : ∀ path, t.readFilePath = some path → Text.size path.toList < 255

/-- Options within bounds. -/
structure Options.Valid (o : Options) : Prop where
  t2miPid : o.t2miPid.toNat ≤ 8192
  pidFile : Text.size o.pidFile.toList < 255

/-- Parameters of a part within bounds. -/
def Part.Valid : (p : Part) → p.Params → Prop
  | .tuning, t => t.Valid
  | .multicast, m => m.multicast = (m.ipv4 || m.ipv6)
  | .buffering, b => 1 ≤ b.dvrBufferSize.toNat
  | .logging, l => ∀ path, l.file = some path → Text.size path.toList < 255
  | .options, o => o.Valid
  | .autoconf, _ | .sap, _ | .cam, _ | .scam, _ | .unicast, _ | .rewrite, _ => True

/-- A draft within bounds, in which the channel that is open is the last one. -/
structure Draft.Valid (d : Draft) : Prop where
  length : d.store.channels.entries.length ≤ 128
  current : d.current = none ∧ d.store.channels.entries = [] ∨
    ∃ i, d.current = some i ∧ i + 1 = d.store.channels.entries.length
  channels : ∀ c ∈ d.store.channels.entries, c.Valid
  parts : ∀ p : Part, p.Valid (d.store.part p)

theorem valid_opened : ({ readiness := .almostReady } : Channel).Valid where
  pids_length := Nat.zero_le _
  pids_range := List.forall_mem_nil _
  pids_set h := absurd rfl h
  pmtRewrite := rfl
  pmtPid _ hp := by cases hp
  userName := rfl
  name_size := Nat.zero_le _
  name_set := by simp
  readiness := rfl

theorem valid_tuning_default : ({} : Tuning).Valid where
  satNumber := by decide
  cardDevPath := by decide +kernel
  readFilePath _ hp := by cases hp

theorem valid_options_default : ({} : Options).Valid where
  t2miPid := by decide
  pidFile := by decide +kernel

theorem valid_default : ({} : Draft).Valid where
  length := Nat.zero_le _
  current := .inl ⟨rfl, rfl⟩
  channels := List.forall_mem_nil _
  parts p := by
    cases p with
    | tuning => exact valid_tuning_default
    | options => exact valid_options_default
    | multicast => rfl
    | buffering => exact Nat.le_refl 1
    | logging => intro path hp; cases hp
    | autoconf | sap | cam | scam | unicast | rewrite => trivial

/-! ### What readers yield -/

namespace Reader

/-- All that a reader yields has a property. -/
def Yields (r : Reader α) (P : α → Prop) : Prop :=
  ∀ site c v left, r.run site c = .ok v left → P v

/-- A change takes values with a property to such values. -/
def Keeps (P : α → Prop) (change : Change α) : Prop := ∀ a, P a → P (change a).1

variable {P : α → Prop} {Q : β → Prop}

theorem yields_true (r : Reader α) : r.Yields fun _ => True := fun _ _ _ _ _ => trivial

theorem yields_pure {v : α} (h : P v) : (pure v : Reader α).Yields P := by
  intro site c w left hw
  cases hw
  exact h

theorem yields_throw (e : ConfigError) : (throw e : Reader α).Yields P := by
  intro site c w left hw
  cases hw

theorem yields_bind {r : Reader α} {f : α → Reader β} (hr : r.Yields P)
    (hf : ∀ v, P v → (f v).Yields Q) : (r >>= f).Yields Q := by
  intro site c w left hw
  change EStateM.bind (r.run site) (fun v => (f v).run site) c = .ok w left at hw
  unfold EStateM.bind at hw
  split at hw
  · rename_i v mid hv
    exact hf v (hr site c v mid hv) site mid w left hw
  · cases hw

theorem yields_ite {p : Prop} [Decidable p] {r s : Reader α} (hr : p → r.Yields P)
    (hs : ¬p → s.Yields P) : (if p then r else s).Yields P := by
  by_cases h : p
  · rw [if_pos h]; exact hr h
  · rw [if_neg h]; exact hs h

theorem yields_orBad {raw : String} {o : Option α} (h : ∀ v, o = some v → P v) :
    (orBad raw o).Yields P := by
  cases o with
  | some v => exact yields_pure (h v rfl)
  | none => intro site c w left hw; cases hw

theorem yields_foldRounds {f : α → String → Reader α}
    (hf : ∀ a raw, P a → (f a raw).Yields P) (rounds : Nat) :
    ∀ a, P a → (foldRounds f rounds a).Yields P := by
  induction rounds with
  | zero => exact fun a ha => yields_pure ha
  | succ rounds ih =>
    intro a ha
    refine yields_bind (yields_true next) fun t _ => ?_
    cases t with
    | none => exact yields_pure ha
    | some raw => exact yields_bind (hf a raw ha) ih

theorem yields_fold {f : α → String → Reader α} {a : α} (ha : P a)
    (hf : ∀ a raw, P a → (f a raw).Yields P) : (fold f a).Yields P :=
  fun site c => yields_foldRounds hf c.rest.length a ha site c

theorem yields_setSaying {read : Reader α} {put : α → β → β} {said : α → List Record}
    (hr : read.Yields P) (hput : ∀ v b, P v → Q b → Q (put v b)) :
    (setSaying read put said).Yields (Keeps Q) :=
  yields_bind hr fun v hv => yields_pure fun b hb => hput v b hv hb

theorem yields_set {read : Reader α} {put : α → β → β} (hr : read.Yields P)
    (hput : ∀ v b, P v → Q b → Q (put v b)) : (set read put).Yields (Keeps Q) :=
  yields_bind hr fun v hv => yields_pure fun b hb => hput v b hv hb

/-- A change that has nothing to do with the bounds of a part keeps them. -/
theorem yields_set_of_frame {read : Reader α} {put : α → β → β}
    (hput : ∀ v b, Q b → Q (put v b)) : (set read put).Yields (Keeps Q) :=
  yields_set (yields_true read) fun v b _ hb => hput v b hb

theorem yields_setPath {put : String → β → β}
    (hput : ∀ path b, Text.size path.toList < 255 → Q b → Q (put path b)) :
    (setPath put).Yields (Keeps Q) := by
  refine yields_bind (yields_true read) fun site _ => ?_
  refine yields_bind (yields_true word) fun raw _ => yields_ite (fun _ => ?_) fun hs => ?_
  · exact yields_pure fun b hb => hb
  · exact yields_pure fun b hb => hput raw b (Nat.not_le.1 hs) hb

/-! ### Ranges of what is read -/

/-- A check that throws leaves its condition false. -/
theorem yields_check {p : Prop} [Decidable p] {e : ConfigError} {f : Unit → Reader β}
    (hf : ¬p → (f ()).Yields Q) : (if p then throw e >>= f else f ()).Yields Q := by
  refine yields_ite (fun _ => ?_) hf
  exact yields_bind (yields_throw (P := fun _ => False) e) fun _ h => h.elim

theorem yields_below {raw : String} {bound : Nat} (hb : bound ≤ UInt8.size) (n : Int) :
    (orBad raw ((below bound n).map UInt8.ofNat)).Yields fun v => v.toNat < bound := by
  refine yields_orBad fun v hv => ?_
  obtain ⟨m, hm, rfl⟩ := Option.map_eq_some_iff.1 hv
  unfold below at hm
  split at hm
  · rename_i hn
    cases hm
    rw [UInt8.toNat_ofNat_of_lt' (by omega)]
    omega
  · cases hm

theorem yields_uint8 {limit : Nat} (hl : limit < UInt8.size) :
    (uint8 limit).Yields fun v => v.toNat ≤ limit :=
  yields_bind (yields_true word) fun raw _ site c v left hv =>
    Nat.le_of_lt_succ (yields_below hl (Number.leadingInteger raw) site c v left hv)

theorem yields_whole : whole.Yields fun v => v ≠ "" := by
  intro site c v left hv
  unfold run whole at hv
  unfold Cursor.wholeValue at hv
  split at hv
  · rename_i t rest hw
    cases hv
    split at hw
    · dsimp only at hw
      split at hw
      · cases hw
      · rename_i hne
        cases hw
        exact fun he => hne (String.ofList_eq_empty_iff.1 he)
    · cases hw
  · cases hv

end Reader

open Reader

/-- The PIDs of a channel within their range, fewer than the limit. -/
structure PidsValid (pids : List UInt16) : Prop where
  length : pids.length ≤ 127
  range : ∀ p ∈ pids, 10 ≤ p.toNat ∧ p.toNat ≤ 8192

theorem toNat_ofNat_of_range {n : Int} (h0 : 10 ≤ n) (h1 : n ≤ 8192) :
    10 ≤ (UInt16.ofNat n.toNat).toNat ∧ ((UInt16.ofNat n.toNat).toNat : Int) = n := by
  have hn : n.toNat < 65536 := by omega
  rw [UInt16.toNat_ofNat_of_lt' hn]
  omega

theorem yields_pidList : pidList.Yields PidsValid := by
  refine yields_fold ⟨Nat.zero_le _, List.forall_mem_nil _⟩ ?_
  intro pids raw hpids
  refine yields_check fun hrange => ?_
  generalize Number.leadingInteger raw = n at hrange
  unfold leastPid greatestPid at hrange
  refine yields_ite (fun _ => ?_) fun hlen => yields_pure ?_
  · refine yields_bind (yields_true read) fun site _ => ?_
    exact yields_bind (yields_throw (P := fun _ => False) _) fun _ h => h.elim
  · have hp := toNat_ofNat_of_range (n := n) (by omega) (by omega)
    have hlast : 10 ≤ (UInt16.ofNat n.toNat).toNat ∧ (UInt16.ofNat n.toNat).toNat ≤ 8192 := by omega
    refine ⟨by unfold maxPids at hlen; omega, ?_⟩
    exact List.forall_mem_append.2 ⟨hpids.range, List.forall_mem_singleton.2 hlast⟩

theorem yields_pmtPid : pmtPid.Yields fun p => 10 ≤ p.toNat ∧ p.toNat ≤ 8191 := by
  refine yields_bind (yields_true int) fun n _ => yields_check fun hrange => ?_
  unfold leastPid greatestPmtPid at hrange
  have hp := toNat_ofNat_of_range (n := n) (by omega) (by omega)
  exact yields_pure ⟨hp.1, by omega⟩

theorem cutName_ne_empty {name : String} (h : name ≠ "") : cutName name ≠ "" := by
  intro he
  have hcut : Text.takeSize maxNameSize name.toList = [] := String.ofList_eq_empty_iff.1 he
  cases hl : name.toList with
  | nil => exact h (String.toList_eq_nil_iff.1 hl)
  | cons c r =>
    have hc : c.utf8Size ≤ maxNameSize := Nat.le_trans c.utf8Size_le_four (by decide)
    rw [hl, Text.takeSize, if_pos hc] at hcut
    cases hcut

theorem size_cutName (name : String) : Text.size (cutName name).toList ≤ 255 := by
  rw [cutName, String.toList_ofList]
  exact Text.size_takeSize maxNameSize name.toList

theorem one_le_bufferSize (n : Int) : 1 ≤ (bufferSize n).toNat := by
  unfold bufferSize
  split
  · exact Nat.le_refl 1
  · rename_i hn
    have hm : min n.toNat (UInt32.size - 1) < UInt32.size := by
      have : 0 < UInt32.size := by decide
      omega
    have h1 : 1 ≤ UInt32.size - 1 := by decide
    rw [UInt32.toNat_ofNat_of_lt' hm]
    omega

theorem t2miPid_le (n : Int) : (t2miPid n).toNat ≤ 8192 := by
  unfold t2miPid greatestPid
  split
  · rename_i hn
    have hm : n.toNat < 65536 := by omega
    rw [UInt16.toNat_ofNat_of_lt' hm]
    omega
  · decide

/-! ### Directives -/

/-- A directive keeps the bounds of what it changes. -/
def Directive.Valid : Directive → Prop
  | .openChannel => True
  | .channel _ read => read.Yields (Keeps Channel.Valid)
  | .parameter p read => read.Yields (Keeps p.Valid)

theorem valid_of_unbounded {p : Part} (hp : ∀ v, p.Valid v) (read : Reader (Change p.Params)) :
    (Directive.parameter p read).Valid :=
  fun _ _ change _ _ v _ => hp (change v).1

theorem valid_channelDirective {read : Reader α} {put : α → Channel → Channel}
    (hput : ∀ v c, c.Valid → (put v c).Valid) : (channelDirective (set read put)).Valid :=
  yields_set_of_frame hput

theorem valid_tuningVocabulary : ∀ e ∈ tuningVocabulary, e.2.Valid := by
  simp only [tuningVocabulary, List.forall_mem_cons]
  and_intros
  all_goals try exact yields_set_of_frame fun v t h => { h with }
  · exact yields_setPath fun path t hs h => { h with cardDevPath := hs }
  · exact yields_set (yields_uint8 (by decide)) fun v t hv h => { h with satNumber := hv }
  · refine yields_setPath fun path t hs h => { h with readFilePath := fun p hp => ?_ }
    rwa [← Option.some.inj hp]
  · exact List.forall_mem_nil _

theorem valid_autoconfVocabulary : ∀ e ∈ autoconfVocabulary, e.2.Valid := by
  simp only [autoconfVocabulary, List.forall_mem_cons]
  and_intros
  all_goals try exact valid_of_unbounded (p := .autoconf) (fun v => trivial) _
  · exact List.forall_mem_nil _

theorem valid_sapVocabulary : ∀ e ∈ sapVocabulary, e.2.Valid := by
  simp only [sapVocabulary, List.forall_mem_cons]
  and_intros
  all_goals try exact valid_of_unbounded (p := .sap) (fun v => trivial) _
  · exact valid_channelDirective fun v c h => { h with }
  · exact List.forall_mem_nil _

theorem valid_camVocabulary : ∀ e ∈ camVocabulary, e.2.Valid := by
  simp only [camVocabulary, List.forall_mem_cons]
  and_intros
  all_goals try exact valid_of_unbounded (p := .cam) (fun v => trivial) _
  · exact List.forall_mem_nil _

theorem valid_scamVocabulary : ∀ e ∈ scamVocabulary, e.2.Valid := by
  simp only [scamVocabulary, List.forall_mem_cons]
  and_intros
  all_goals try exact valid_of_unbounded (p := .scam) (fun v => trivial) _
  all_goals try exact valid_channelDirective fun v c h => { h with }
  · exact List.forall_mem_nil _

theorem valid_unicastVocabulary : ∀ e ∈ unicastVocabulary, e.2.Valid := by
  simp only [unicastVocabulary, List.forall_mem_cons]
  and_intros
  all_goals try exact valid_of_unbounded (p := .unicast) (fun v => trivial) _
  · exact valid_channelDirective fun v c h => { h with }
  · exact List.forall_mem_nil _

theorem valid_multicastVocabulary : ∀ e ∈ multicastVocabulary, e.2.Valid := by
  simp only [multicastVocabulary, List.forall_mem_cons]
  and_intros
  all_goals try exact valid_channelDirective fun v c h => { h with }
  all_goals try exact yields_set_of_frame fun v m h => h
  all_goals try exact yields_set_of_frame fun v m _ => rfl
  · exact List.forall_mem_nil _

theorem valid_rewriteVocabulary : ∀ e ∈ rewriteVocabulary, e.2.Valid := by
  simp only [rewriteVocabulary, List.forall_mem_cons]
  and_intros
  all_goals try exact valid_of_unbounded (p := .rewrite) (fun v => trivial) _
  · exact List.forall_mem_nil _

theorem valid_loggingVocabulary : ∀ e ∈ loggingVocabulary, e.2.Valid := by
  simp only [loggingVocabulary, List.forall_mem_cons]
  and_intros
  all_goals try exact yields_set_of_frame fun v l h => h
  · exact yields_setSaying (yields_true _) fun v l _ h => h
  · refine yields_setPath fun path l hs h p hp => ?_
    rwa [← Option.some.inj hp]
  · exact List.forall_mem_nil _

theorem yields_setFiltering : setFiltering.Yields (Keeps Options.Valid) := by
  refine yields_bind (yields_true word) fun raw _ => ?_
  split
  · exact yields_pure fun o h => { h with }
  · exact yields_pure fun o h => h

theorem yields_setService : setService.Yields (Keeps Channel.Valid) :=
  yields_set_of_frame fun _ _ h => { h with }

theorem valid_mainVocabulary : ∀ e ∈ mainVocabulary, e.2.Valid := by
  simp only [mainVocabulary, List.forall_mem_cons]
  and_intros
  all_goals try exact yields_setService
  all_goals try exact yields_set_of_frame fun v o h => { h with }
  · trivial
  · exact yields_setFiltering
  · exact yields_setSaying (yields_true int) fun n b _ _ => one_le_bufferSize n
  · exact yields_setSaying (yields_true flag) fun v b _ h => h
  · exact yields_set_of_frame fun v b h => h
  · refine yields_set yields_pidList fun pids c hp h => ?_
    exact { h with
      pids_length := hp.length
      pids_range := hp.range
      pids_set := fun _ => rfl
      pmtRewrite := rfl }
  · refine yields_set yields_pmtPid fun pid c hp h => { h with pmtPid := fun p he => ?_ }
    rwa [← Option.some.inj he]
  · refine yields_setSaying yields_whole fun name c hn h => ?_
    exact { h with
      userName := rfl
      name_size := size_cutName name
      name_set := iff_of_true (cutName_ne_empty hn) rfl }
  · exact yields_setPath fun path o hs h => { h with pidFile := hs }
  · exact yields_setSaying (yields_true int) fun n o _ h => { h with t2miPid := t2miPid_le n }
  · exact List.forall_mem_nil _

theorem Section.valid_vocabulary (s : Section) : ∀ e ∈ s.vocabulary, e.2.Valid := by
  cases s with
  | tuning => exact valid_tuningVocabulary
  | autoconf => exact valid_autoconfVocabulary
  | sap => exact valid_sapVocabulary
  | cam => exact valid_camVocabulary
  | scam => exact valid_scamVocabulary
  | unicast => exact valid_unicastVocabulary
  | multicast => exact valid_multicastVocabulary
  | rewrite => exact valid_rewriteVocabulary
  | logging => exact valid_loggingVocabulary
  | main => exact valid_mainVocabulary

/-! ### Lines -/

variable {draft draft' : Draft} {keyword : String} {c : Cursor}

theorem valid_apply_openChannel (h : draft.Valid)
    (ha : (Directive.apply .openChannel keyword draft c).result = .ok draft') :
    draft'.Valid := by
  obtain ⟨hl, rfl⟩ := Directive.apply_openChannel ha
  have hl' : draft.store.channels.entries.length < 128 := hl
  refine ⟨?_, .inr ⟨draft.store.channels.entries.length, rfl, ?_⟩, ?_, fun p => ?_⟩
  · rw [List.length_append, List.length_singleton]
    omega
  · rw [List.length_append, List.length_singleton]
  · exact List.forall_mem_append.2 ⟨h.channels, List.forall_mem_singleton.2 valid_opened⟩
  · have hp := h.parts p
    cases p <;> exact hp

theorem valid_apply_channel {first : List Record} {read : Reader (Change Channel)}
    (hr : read.Yields (Keeps Channel.Valid)) (h : draft.Valid)
    (ha : (Directive.apply (.channel first read) keyword draft c).result = .ok draft') :
    draft'.Valid := by
  obtain ⟨i, ch, change, left, ho, hc, rfl⟩ := Directive.apply_channel ha
  obtain ⟨hcur, hentry⟩ := openedChannel_eq_some ho
  have hch : (change ch).1.Valid :=
    hr _ c change left hc ch (h.channels ch (List.mem_of_getElem? hentry))
  have hlen : (draft.store.channels.entries.set i (change ch).1).length =
      draft.store.channels.entries.length := List.length_set
  refine ⟨hlen ▸ h.length, .inr ?_, fun ch' hmem => ?_, fun p => ?_⟩
  · rcases h.current with ⟨hnone, -⟩ | ⟨j, hj, hlast⟩
    · rw [hnone] at hcur
      cases hcur
    · exact ⟨j, hj, hlast.trans hlen.symm⟩
  · rcases List.mem_or_eq_of_mem_set hmem with hmem | rfl
    · exact h.channels ch' hmem
    · exact hch
  · have hp := h.parts p
    cases p <;> exact hp

theorem valid_apply_parameter {p : Part} {read : Reader (Change p.Params)}
    (hr : read.Yields (Keeps p.Valid)) (h : draft.Valid)
    (ha : (Directive.apply (.parameter p read) keyword draft c).result = .ok draft') :
    draft'.Valid := by
  obtain ⟨change, left, hc, rfl⟩ := Directive.apply_parameter ha
  have hv : p.Valid (change (draft.store.part p)).1 := hr _ c change left hc _ (h.parts p)
  have hchannels := draft.store.channels_setPart p (change (draft.store.part p)).1
  refine ⟨?_, ?_, ?_, fun q => ?_⟩
  · rw [hchannels]; exact h.length
  · rw [hchannels]; exact h.current
  · rw [hchannels]; exact h.channels
  · by_cases hq : q = p
    · subst hq
      rw [Store.part_setPart]
      exact hv
    · rw [draft.store.part_setPart_of_ne hq]
      exact h.parts q

theorem valid_apply {d : Directive} (hd : d.Valid) (h : draft.Valid)
    (ha : (d.apply keyword draft c).result = .ok draft') : draft'.Valid := by
  cases d with
  | openChannel => exact valid_apply_openChannel h ha
  | channel first read => exact valid_apply_channel hd h ha
  | parameter p read => exact valid_apply_parameter hd h ha

/-- A line keeps the bounds, whatever becomes of it. -/
theorem valid_dispatch (chain : List Section) (h : draft.Valid) (raw : String) :
    (dispatch chain draft raw).draft.Valid := by
  by_cases ho : ∃ s, (dispatch chain draft raw).outcome = .ok (.handled s)
  · obtain ⟨s, ho⟩ := ho
    obtain ⟨keyword, rest, d, -, -, hd, hr⟩ := dispatch_of_handled ho
    exact valid_apply (s.valid_vocabulary (keyword, d) (Section.mem_vocabulary hd)) h hr
  · rw [dispatch_of_not_handled fun s hs => ho ⟨s, hs⟩]
    exact h

/-- After any lines, of which some may have failed, the store is within its bounds and the channel
that is open is the last one. -/
theorem valid_foldl_dispatch (raws : List String) :
    (raws.foldl (fun draft raw => (dispatch Section.all draft raw).draft) {}).Valid := by
  suffices h : ∀ draft : Draft, draft.Valid →
      (raws.foldl (fun draft raw => (dispatch Section.all draft raw).draft) draft).Valid from
    h {} valid_default
  induction raws with
  | nil => exact fun draft h => h
  | cons raw raws ih => exact fun draft h => ih _ (valid_dispatch Section.all h raw)

end Headend.Config
