import Headend.Proofs.LineEffects
import Headend.Proofs.SourceLines
import Headend.Proofs.StoreBounds

/-!
# The texts of channels

A line of a configuration has no line feed, so nothing that is read from it has one: neither the
addresses of a channel nor its name. Whatever the configuration says, then, what is told of a
channel fits on one line.

Facts: `feedless_decode` (reading makes no line feed), `Section.feedless_vocabulary` (no directive
brings one), `draft_parseLines` (what lines keep), `readiness_declared` and `feedless_declared` (the
channels of a configuration).
-/

namespace Headend.Config

open Headend.Text (Octets ReadsAs)

/-! ### Texts without a line feed -/

/-- A text without a line feed. -/
def Feedless (cs : List Char) : Prop := '\n' ∉ cs

instance (cs : List Char) : Decidable (Feedless cs) := inferInstanceAs (Decidable ('\n' ∉ cs))

theorem Feedless.mono {cs ds : List Char} (h : Feedless cs) (hsub : ds ⊆ cs) : Feedless ds :=
  fun hmem => h (hsub hmem)

/-- Octets without a line feed are read as a text without one. -/
theorem feedless_decode {bs : Octets} (h : lineFeed ∉ bs) : Feedless (Text.decode bs) := by
  have hreads := Text.readsAs_decode bs
  generalize Text.decode bs = cs at hreads
  induction hreads with
  | nothing => exact List.not_mem_nil
  | @character c rest cs _ ih =>
    obtain ⟨hc, hrest⟩ := not_or.1 fun hmem => h (List.mem_append.2 hmem)
    rw [Feedless, List.mem_cons, not_or]
    refine ⟨?_, ih hrest⟩
    rintro rfl
    exact hc (by decide)
  | broken _ _ ih =>
    obtain ⟨-, hrest⟩ := not_or.1 fun hmem => h (List.mem_append.2 hmem)
    rw [Feedless, List.mem_cons, not_or]
    exact ⟨by decide, ih hrest⟩

theorem lineFeed_notMem_of_mem_segments {bs s : Octets} (h : s ∈ segments bs) : lineFeed ∉ s := by
  induction bs generalizing s with
  | nil => cases h
  | cons b rest ih =>
    unfold segments at h
    split at h
    · rcases List.mem_cons.1 h with rfl | h
      · exact List.not_mem_nil
      · exact ih h
    · rename_i hb
      split at h
      · rw [List.mem_singleton.1 h, List.mem_singleton]
        exact Ne.symm hb
      · rename_i first others hsegments
        rcases List.mem_cons.1 h with rfl | h
        · rw [List.mem_cons, not_or]
          exact ⟨Ne.symm hb, ih (hsegments ▸ List.mem_cons_self)⟩
        · exact ih (hsegments ▸ List.mem_cons_of_mem first h)

theorem stripEnds_subset (cs : List Char) : stripEnds cs ⊆ cs := by
  obtain ⟨e, he, -⟩ := (strips_stripEnds cs).ends
  exact fun c hc => he ▸ List.mem_append_left e hc

theorem takeSize_subset (n : Nat) (cs : List Char) : Text.takeSize n cs ⊆ cs := by
  intro c hc
  have happend := Text.takeSize_append_drop n cs
  exact happend ▸ List.mem_append_left _ hc

theorem trim_subset (cs : List Char) : Text.trim cs ⊆ cs := by
  intro c hc
  unfold Text.trim Text.trimEnd at hc
  rw [List.mem_reverse] at hc
  have hc := (List.dropWhile_sublist _).subset hc
  rw [List.mem_reverse] at hc
  exact (List.dropWhile_sublist _).subset hc

theorem feedless_text {n : Nat} {bs : Octets} {l : SourceLine} (h : l ∈ linesFrom n (segments bs)) :
    Feedless l.text.toList := by
  have hsegments : ∀ s ∈ segments bs, lineFeed ∉ s := fun s => lineFeed_notMem_of_mem_segments
  generalize segments bs = ss at h hsegments
  induction ss generalizing n with
  | nil => cases h
  | cons s rest ih =>
    rw [linesFrom] at h
    rcases List.mem_cons.1 h with rfl | h
    · unfold SourceLine.ofSegment
      dsimp only
      rw [String.toList_ofList]
      have hread := feedless_decode (hsegments s List.mem_cons_self)
      exact (hread.mono (stripEnds_subset _)).mono (takeSize_subset _ _)
    · exact ih h fun s hs => hsegments s (List.mem_cons_of_mem _ hs)

/-! ### What is read from a line -/

/-- A piece of a text and what follows it are parts of the text. -/
theorem splitOff_subset {isEnd : Char → Bool} {cs piece rest : List Char}
    (h : Cursor.splitOff isEnd cs = some (piece, rest)) : piece ⊆ cs ∧ rest ⊆ cs := by
  obtain ⟨ending, -, he⟩ := Cursor.splitOff_append h
  constructor
  · intro c hc
    rw [← he]
    simp [hc]
  · intro c hc
    rw [← he]
    simp [hc]

theorem next_subset (c : Cursor) :
    (∀ t, c.next.1 = some t → t.toList ⊆ c.rest) ∧ c.next.2.rest ⊆ c.rest := by
  unfold Cursor.next
  split
  · rename_i token rest h
    have hsub := splitOff_subset h
    refine ⟨fun t ht => ?_, hsub.2⟩
    rw [← Option.some.inj ht, String.toList_ofList]
    exact hsub.1
  · exact ⟨fun t ht => (by cases ht), List.nil_subset _⟩

namespace Reader

/-- All that a reader yields from a line without a line feed has a property. -/
def YieldsFeedless (r : Reader α) (P : α → Prop) : Prop :=
  ∀ site c v left, Feedless c.rest → r.run site c = .ok v left → P v

variable {P : α → Prop} {Q : β → Prop}

theorem Yields.feedless {r : Reader α} (h : r.Yields P) : r.YieldsFeedless P :=
  fun site c v left _ hv => h site c v left hv

theorem yieldsFeedless_word : word.YieldsFeedless fun v => Feedless v.toList := by
  intro site c v left hc hv
  obtain ⟨hsub, -⟩ := next_subset c
  unfold word at hv
  rw [run_bind] at hv
  have hnext : next.run site c = .ok c.next.1 c.next.2 := rfl
  rw [hnext] at hv
  dsimp only at hv
  cases ht : c.next.1 with
  | none => rw [ht] at hv; cases hv
  | some t =>
    rw [ht] at hv
    cases hv
    exact hc.mono (hsub v ht)

theorem yieldsFeedless_whole : whole.YieldsFeedless fun v => Feedless v.toList := by
  intro site c v left hc hv
  unfold run whole Cursor.wholeValue at hv
  split at hv
  · rename_i t rest ht
    cases hv
    split at ht
    · rename_i piece rest' hpiece
      obtain ⟨hsub, -⟩ := splitOff_subset hpiece
      dsimp only at ht
      split at ht
      · cases ht
      · cases ht
        rw [String.toList_ofList]
        exact (hc.mono hsub).mono (trim_subset _)
    · cases ht
  · cases hv

theorem yieldsFeedless_setSaying {read : Reader α} {put : α → β → β} (said : α → List Record)
    (hr : read.YieldsFeedless P) (hput : ∀ v b, P v → Q b → Q (put v b)) :
    (setSaying read put said).YieldsFeedless (Keeps Q) := by
  intro site c change left hc hv
  unfold setSaying at hv
  rw [run_bind] at hv
  split at hv
  · rename_i v mid hread
    cases hv
    exact fun b hb => hput v b (hr site c v left hc hread) hb
  · cases hv

theorem yieldsFeedless_set {read : Reader α} {put : α → β → β} (hr : read.YieldsFeedless P)
    (hput : ∀ v b, P v → Q b → Q (put v b)) : (set read put).YieldsFeedless (Keeps Q) :=
  yieldsFeedless_setSaying (fun _ => []) hr hput

end Reader

open Reader

/-! ### Channels -/

/-- A channel whose addresses and name have no line feed. -/
structure Channel.IsFeedless (c : Channel) : Prop where
  ip4 : ∀ a, c.ip4 = some a → Feedless a.toList
  ip6 : ∀ a, c.ip6 = some a → Feedless a.toList
  name : Feedless c.name.toList

/-- A directive brings no line feed into a channel from a line without one. -/
def Directive.IsFeedless : Directive → Prop
  | .channel _ read => read.YieldsFeedless (Keeps Channel.IsFeedless)
  | .openChannel | .parameter .. => True

theorem feedless_of_frame {read : Reader α} {put : α → Channel → Channel}
    (hput : ∀ v c, c.IsFeedless → (put v c).IsFeedless) :
    (channelDirective (set read put)).IsFeedless :=
  (yields_set_of_frame hput).feedless

theorem feedless_sapVocabulary : ∀ e ∈ sapVocabulary, e.2.IsFeedless := by
  simp only [sapVocabulary, List.forall_mem_cons]
  and_intros
  all_goals try trivial
  · exact feedless_of_frame fun v c h => { h with }
  · exact List.forall_mem_nil _

theorem feedless_scamVocabulary : ∀ e ∈ scamVocabulary, e.2.IsFeedless := by
  simp only [scamVocabulary, List.forall_mem_cons]
  and_intros
  all_goals try trivial
  all_goals try exact feedless_of_frame fun v c h => { h with }
  · exact List.forall_mem_nil _

theorem feedless_unicastVocabulary : ∀ e ∈ unicastVocabulary, e.2.IsFeedless := by
  simp only [unicastVocabulary, List.forall_mem_cons]
  and_intros
  all_goals try trivial
  · exact feedless_of_frame fun v c h => { h with }
  · exact List.forall_mem_nil _

theorem feedless_of_address {read : Reader String} {put : String → Channel → Channel}
    (hr : read.YieldsFeedless fun v => Feedless v.toList)
    (hput : ∀ v c, (∀ a, some v = some a → Feedless a.toList) → c.IsFeedless →
      (put v c).IsFeedless) :
    (channelDirective (set read put)).IsFeedless :=
  yieldsFeedless_set hr fun v c hv h => hput v c (fun _ ha => Option.some.inj ha ▸ hv) h

theorem feedless_multicastVocabulary : ∀ e ∈ multicastVocabulary, e.2.IsFeedless := by
  simp only [multicastVocabulary, List.forall_mem_cons]
  and_intros
  all_goals try trivial
  · exact feedless_of_address yieldsFeedless_word fun v c hv h => { h with ip4 := hv }
  · exact feedless_of_address yieldsFeedless_word fun v c hv h => { h with ip4 := hv }
  · exact feedless_of_address yieldsFeedless_word fun v c hv h => { h with ip6 := hv }
  · exact feedless_of_frame fun v c h => { h with }
  · exact List.forall_mem_nil _

theorem feedless_mainVocabulary : ∀ e ∈ mainVocabulary, e.2.IsFeedless := by
  simp only [mainVocabulary, List.forall_mem_cons]
  and_intros
  all_goals try trivial
  all_goals try exact feedless_of_frame fun v c h => { h with }
  · refine yieldsFeedless_setSaying _ yieldsFeedless_whole fun v c hv h => { h with name := ?_ }
    rw [cutName, String.toList_ofList]
    exact hv.mono (takeSize_subset _ _)
  · exact List.forall_mem_nil _

theorem Section.feedless_vocabulary (s : Section) : ∀ e ∈ s.vocabulary, e.2.IsFeedless := by
  cases s with
  | sap => exact feedless_sapVocabulary
  | scam => exact feedless_scamVocabulary
  | unicast => exact feedless_unicastVocabulary
  | multicast => exact feedless_multicastVocabulary
  | main => exact feedless_mainVocabulary
  | tuning | autoconf | cam | rewrite | logging =>
    -- these sections say nothing of channels
    simp only [vocabulary, tuningVocabulary, autoconfVocabulary, camVocabulary,
      rewriteVocabulary, loggingVocabulary, List.forall_mem_cons]
    and_intros
    all_goals try trivial
    exact List.forall_mem_nil _

/-! ### Lines -/

/-- A draft whose channels have no line feed. -/
def Draft.IsFeedless (d : Draft) : Prop := ∀ c ∈ d.store.channels.entries, c.IsFeedless

variable {draft draft' : Draft} {keyword : String} {c : Cursor}

theorem feedless_opened : ({ readiness := .almostReady } : Channel).IsFeedless where
  ip4 a ha := by cases ha
  ip6 a ha := by cases ha
  name := List.not_mem_nil

theorem directiveLine_subset {line : List Char} (h : directiveLine? line = some (keyword, c)) :
    c.rest ⊆ line := by
  have hsub := (next_subset ⟨line⟩).2
  unfold directiveLine? at h
  split at h
  · cases h
  · split at h
    · rename_i rest hnext
      rw [hnext] at hsub
      split at h
      · cases h
      · split at h
        · cases h
        · cases h
          exact hsub
    · cases h

theorem feedless_apply {d : Directive} (hd : d.IsFeedless) (hc : Feedless c.rest)
    (h : draft.IsFeedless) (ha : (d.apply keyword draft c).result = .ok draft') :
    draft'.IsFeedless := by
  cases d with
  | openChannel =>
    obtain ⟨-, rfl⟩ := Directive.apply_openChannel ha
    exact List.forall_mem_append.2 ⟨h, List.forall_mem_singleton.2 feedless_opened⟩
  | channel first read =>
    obtain ⟨i, ch, change, left, ho, hread, rfl⟩ := Directive.apply_channel ha
    obtain ⟨-, hentry⟩ := openedChannel_eq_some ho
    intro ch' hmem
    rcases List.mem_or_eq_of_mem_set hmem with hmem | rfl
    · exact h ch' hmem
    · exact hd _ c change left hc hread ch (h ch (List.mem_of_getElem? hentry))
  | parameter p read =>
    obtain ⟨change, left, -, rfl⟩ := Directive.apply_parameter ha
    have hchannels := draft.store.channels_setPart p (change (draft.store.part p)).1
    intro ch hmem
    exact h ch (hchannels ▸ hmem)

/-- A line without a line feed brings none into the channels. -/
theorem feedless_dispatch (chain : List Section) (h : draft.IsFeedless) {raw : String}
    (hraw : Feedless raw.toList) : (dispatch chain draft raw).draft.IsFeedless := by
  rw [dispatch_eq]
  split
  · exact h
  · rename_i keyword rest hline
    have hrest : Feedless rest.rest :=
      (hraw.mono (stripEnds_subset _)).mono (directiveLine_subset hline)
    split
    · exact h
    · rename_i s d howner
      split
      · rename_i hresult
        obtain ⟨-, hd⟩ := owner?_eq_some howner
        exact feedless_apply (s.feedless_vocabulary (keyword, d) (Section.mem_vocabulary hd)) hrest
          h hresult
      · exact h

/-- What each line keeps holds after all of them, and after those before a failure. -/
theorem draft_parseLines {P : Draft → Prop} {chain : List Section} {ls : List SourceLine}
    (hstep : ∀ l ∈ ls, ∀ d, P d → P (dispatch chain d l.text).draft) (h : P draft) :
    P (parseLines chain draft ls).draft := by
  induction ls generalizing draft with
  | nil => exact h
  | cons l rest ih =>
    have hl := hstep l List.mem_cons_self draft h
    unfold parseLines
    dsimp only
    split
    · exact hl
    · exact ih (fun l' hl' => hstep l' (List.mem_cons_of_mem l hl')) hl

/-! ### Channels of a configuration -/

/-- The channels that a configuration declares, as they are once it has been read. -/
def declared (chain : List Section) (bs : Octets) : ChannelTable :=
  (parse chain {} bs).draft.store.channels.freeze

theorem valid_parse (chain : List Section) (bs : Octets) : (parse chain {} bs).draft.Valid :=
  draft_parseLines (fun l _ _ hd => valid_dispatch chain hd l.text) valid_default

theorem feedless_parse (chain : List Section) (bs : Octets) :
    (parse chain {} bs).draft.IsFeedless :=
  draft_parseLines (fun _ hl _ hd => feedless_dispatch chain hd (feedless_text hl))
    (List.forall_mem_nil _)

theorem readiness_settle {c : Channel} (h : c.Valid) :
    (ChannelTable.settle c).readiness =
      if (ChannelTable.settle c).pids = [] then .almostReady else .ready := by
  unfold ChannelTable.settle
  by_cases hpids : c.pids = []
  · simp [hpids, h.readiness]
  · simp [hpids, h.pids_set hpids]

theorem feedless_settle {c : Channel} (h : c.IsFeedless) :
    (ChannelTable.settle c).IsFeedless := by
  unfold ChannelTable.settle
  split
  · exact { h with }
  · exact h

variable {chain : List Section} {bs : Octets} {ch : Channel}

/-- A channel is ready exactly if it has PIDs; otherwise it still waits for them. -/
theorem readiness_declared (h : ch ∈ (declared chain bs).entries) :
    ch.readiness = if ch.pids = [] then .almostReady else .ready := by
  obtain ⟨c, hc, rfl⟩ := List.mem_map.1 h
  exact readiness_settle ((valid_parse chain bs).channels c hc)

theorem feedless_declared (h : ch ∈ (declared chain bs).entries) : ch.IsFeedless := by
  obtain ⟨c, hc, rfl⟩ := List.mem_map.1 h
  exact feedless_settle (feedless_parse chain bs c hc)

end Headend.Config
