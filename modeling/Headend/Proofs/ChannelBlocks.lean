import Headend.Proofs.LineEffects
import Headend.Proofs.LineSequence
import Mathlib.Data.List.Forall2

/-!
# Blocks of a configuration

A configuration falls apart into its global lines and one block for each channel. What the global
lines set does not depend on the channels, a block says all about its channel, and neither sees
where the other stands.

Facts: `parses_merge` (lines act on the parameters and on the channels apart), `parses_of_texts`
(the number of a line plays no role), `blocks_of_parses` (each block, parsed alone, gives its
channel), `parses_decomposes` (both together).
-/

namespace Headend.Config

/-! ### Kinds of lines -/

namespace SourceLine

/-- What a line is aimed at, if it is a directive. -/
def target? (l : SourceLine) : Option Target := lineTarget? Section.all l.text

/-- A `new_channel` line. -/
def opens (l : SourceLine) : Bool := l.target? == some .table

/-- A line about the open channel. -/
def isScoped (l : SourceLine) : Bool := l.target? == some .channel

/-- A line about channels. -/
def isLocal (l : SourceLine) : Bool := l.opens || l.isScoped

/-- A line about a part of the store. -/
def isGlobal (l : SourceLine) : Bool := l.target?.isSome && !l.isLocal

variable {l : SourceLine}

theorem opens_iff : l.opens = true ↔ lineKeyword? l.text = some newChannel :=
  beq_iff_eq.trans lineTarget?_eq_table_iff

theorem kinds_of_none (h : l.target? = none) : l.isGlobal = false ∧ l.isLocal = false := by
  simp [isGlobal, isLocal, opens, isScoped, h]

theorem kinds_of_part {p : Part} (h : l.target? = some (.part p)) :
    l.isGlobal = true ∧ l.isLocal = false := by
  simp [isGlobal, isLocal, opens, isScoped, h]

theorem kinds_of_channel (h : l.target? = some .channel) :
    l.isGlobal = false ∧ l.isLocal = true ∧ l.opens = false ∧ l.isScoped = true := by
  simp [isGlobal, isLocal, opens, isScoped, h]

theorem kinds_of_table (h : l.target? = some .table) :
    l.isGlobal = false ∧ l.isLocal = true ∧ l.opens = true := by
  simp [isGlobal, isLocal, opens, isScoped, h]

theorem opens_of_not_local (h : l.isLocal = false) : l.opens = false ∧ l.isScoped = false := by
  simpa [isLocal] using h

end SourceLine

open SourceLine

/-- The lines about the channel that is open, up to the next `new_channel`. -/
def ownLines (ls : List SourceLine) : List SourceLine :=
  (ls.takeWhile fun l => !l.opens).filter isScoped

/-- The blocks of a configuration: each `new_channel` line with the lines about its channel. -/
def blocks : List SourceLine → List (List SourceLine)
  | [] => []
  | l :: ls => if l.opens then (l :: ownLines ls) :: blocks ls else blocks ls

theorem length_blocks (ls : List SourceLine) : (blocks ls).length = ls.countP opens := by
  induction ls with
  | nil => rfl
  | cons l ls ih =>
    by_cases h : l.opens <;> simp [blocks, h, ih]

/-! ### Lines that are carried out without an error -/

/-- Lines do not fail and take one draft to another. -/
def Parses (ls : List SourceLine) (d d' : Draft) : Prop :=
  (parseLines Section.all d ls).result = .ok () ∧ (parseLines Section.all d ls).draft = d'

variable {l : SourceLine} {ls : List SourceLine} {d d' e r : Draft}

theorem parses_nil : Parses [] d d' ↔ d' = d := by
  simp [Parses, parseLines, eq_comm]

theorem parses_cons :
    Parses (l :: ls) d d' ↔ ∃ mid, Accepts Section.all l.text d mid ∧ Parses ls mid d' := by
  unfold Parses Accepts
  rw [parseLines]
  cases h : (dispatch Section.all d l.text).outcome with
  | error e => simp
  | ok outcome => simp

/-- The number of a line, and whether it was cut, play no role. -/
theorem parses_of_texts {ls' : List SourceLine} (h : ls'.map text = ls.map text) :
    Parses ls' d d' ↔ Parses ls d d' := by
  have hagrees := parseLines_of_texts Section.all d h
  unfold Parses
  rw [hagrees.result, hagrees.draft]

/-! ### Parameters and channels apart -/

/-- The parameters of one draft with the channels of another. -/
def Draft.merge (d e : Draft) : Draft where
  store := { d.store with channels := e.store.channels }
  current := e.current

theorem part_merge (d e : Draft) (p : Part) : (d.merge e).store.part p = d.store.part p := by
  cases p <;> rfl

theorem setPart_merge (d e : Draft) (p : Part) (v : p.Params) :
    { d.merge e with store := (d.merge e).store.setPart p v } =
      { d with store := d.store.setPart p v }.merge e := by
  cases p <;> rfl

theorem accepts_merge_part {p : Part} (h : l.target? = some (.part p)) :
    Accepts Section.all l.text (d.merge e) r ↔
      ∃ d', Accepts Section.all l.text d d' ∧ r = d'.merge e := by
  obtain ⟨change?, ha⟩ := accepts_part h
  simp only [ha, part_merge, setPart_merge]
  constructor
  · rintro ⟨change, hc, rfl⟩
    exact ⟨_, ⟨change, hc, rfl⟩, rfl⟩
  · rintro ⟨_, ⟨change, hc, rfl⟩, rfl⟩
    exact ⟨change, hc, rfl⟩

theorem accepts_merge_local (h : l.isLocal = true) :
    Accepts Section.all l.text (d.merge e) r ↔
      ∃ e', Accepts Section.all l.text e e' ∧ r = d.merge e' := by
  rcases Bool.or_eq_true_iff.1 h with ht | ht
  · simp only [accepts_table (beq_iff_eq.1 ht)]
    constructor
    · rintro ⟨hl, rfl⟩
      exact ⟨_, ⟨hl, rfl⟩, rfl⟩
    · rintro ⟨_, ⟨hl, rfl⟩, rfl⟩
      exact ⟨hl, rfl⟩
  · obtain ⟨change?, ha⟩ := accepts_channel (beq_iff_eq.1 ht)
    simp only [ha]
    constructor
    · rintro ⟨change, i, ch, hc, ho, rfl⟩
      exact ⟨_, ⟨change, i, ch, hc, ho, rfl⟩, rfl⟩
    · rintro ⟨_, ⟨change, i, ch, hc, ho, rfl⟩, rfl⟩
      exact ⟨change, i, ch, hc, ho, rfl⟩

/-- Lines do to the parameters what the global ones do, and to the channels what those about
channels do. -/
theorem parses_merge :
    Parses ls (d.merge e) r ↔ ∃ d' e', Parses (ls.filter isGlobal) d d' ∧
      Parses (ls.filter isLocal) e e' ∧ r = d'.merge e' := by
  induction ls generalizing d e with
  | nil => simp [parses_nil]
  | cons l ls ih =>
    rw [parses_cons]
    cases ht : l.target? with
    | none =>
      obtain ⟨hg, hl⟩ := kinds_of_none ht
      rw [List.filter_cons_of_neg (by simp [hg]), List.filter_cons_of_neg (by simp [hl]), ← ih]
      simp [accepts_of_no_target ht]
    | some t =>
      cases t with
      | part p =>
        obtain ⟨hg, hl⟩ := kinds_of_part ht
        rw [List.filter_cons_of_pos hg, List.filter_cons_of_neg (by simp [hl])]
        simp only [parses_cons, accepts_merge_part ht]
        constructor
        · rintro ⟨_, ⟨d1, ha, rfl⟩, hr⟩
          obtain ⟨d', e', hd, he, rfl⟩ := ih.1 hr
          exact ⟨d', e', ⟨d1, ha, hd⟩, he, rfl⟩
        · rintro ⟨d', e', ⟨d1, ha, hd⟩, he, rfl⟩
          exact ⟨_, ⟨d1, ha, rfl⟩, ih.2 ⟨d', e', hd, he, rfl⟩⟩
      | table | channel =>
        have hk : l.isGlobal = false ∧ l.isLocal = true := by
          simp [isGlobal, isLocal, opens, isScoped, ht]
        rw [List.filter_cons_of_neg (by simp [hk.1]), List.filter_cons_of_pos hk.2]
        simp only [parses_cons, accepts_merge_local hk.2]
        constructor
        · rintro ⟨_, ⟨e1, ha, rfl⟩, hr⟩
          obtain ⟨d', e', hd, he, rfl⟩ := ih.1 hr
          exact ⟨d', e', hd, ⟨e1, ha, he⟩, rfl⟩
        · rintro ⟨d', e', hd, ⟨e1, ha, he⟩, rfl⟩
          exact ⟨_, ⟨e1, ha, rfl⟩, ih.2 ⟨d', e', hd, he, rfl⟩⟩

/-! ### One block for each channel -/

/-- A draft whose last channel is open. -/
structure Draft.EndsIn (d : Draft) (before : List Channel) (ch : Channel) : Prop where
  entries : d.store.channels.entries = before ++ [ch]
  current : d.current = some before.length

/-- A draft of a single channel, which is open. -/
def Draft.ofChannel (ch : Channel) : Draft where
  store := { channels := { entries := [ch] } }
  current := some 0

theorem endsIn_opened (d : Draft) :
    d.opened.EndsIn d.store.channels.entries { readiness := .almostReady } where
  entries := rfl
  current := rfl

variable {before : List Channel} {ch : Channel}

theorem openedChannel_of_endsIn (h : d.EndsIn before ch) :
    d.openedChannel = some (before.length, ch) := by
  simp [Draft.openedChannel, h.current, h.entries]

/-- A line that is not about channels leaves them, and which one is open. -/
theorem channels_of_not_local (hl : l.isLocal = false) (ha : Accepts Section.all l.text d d') :
    d'.store.channels = d.store.channels ∧ d'.current = d.current := by
  cases ht : l.target? with
  | none =>
    rw [(accepts_of_no_target ht).1 ha]
    exact ⟨rfl, rfl⟩
  | some t =>
    cases t with
    | part p =>
      obtain ⟨change?, hp⟩ := accepts_part ht
      obtain ⟨change, -, rfl⟩ := (hp d d').1 ha
      exact ⟨d.store.channels_setPart p _, rfl⟩
    | table => simp [(kinds_of_table ht).2.1] at hl
    | channel => simp [(kinds_of_channel ht).2.1] at hl

/-- A line about the last channel does to it what it does to a channel that is alone. -/
theorem exists_channel_of_scoped (hl : l.isScoped = true) (hd : d.EndsIn before ch)
    (ha : Accepts Section.all l.text d d') :
    ∃ ch', d'.EndsIn before ch' ∧
      Accepts Section.all l.text (.ofChannel ch) (.ofChannel ch') := by
  obtain ⟨change?, hc⟩ := accepts_channel (beq_iff_eq.1 hl)
  obtain ⟨change, i, ch0, hchange, ho, rfl⟩ := (hc d d').1 ha
  rw [openedChannel_of_endsIn hd] at ho
  cases ho
  refine ⟨change ch, ⟨?_, hd.current⟩, (hc _ _).2 ⟨change, 0, ch, hchange, rfl, rfl⟩⟩
  simp [ChannelTable.set, hd.entries]

/-- A block, carried out alone, gives a single channel. -/
def IsBlockOf (block : List SourceLine) (ch : Channel) : Prop := Parses block {} (.ofChannel ch)

theorem isBlockOf_cons (hl : l.opens = true)
    (h : Parses ls (.ofChannel { readiness := .almostReady }) (.ofChannel ch)) :
    IsBlockOf (l :: ls) ch :=
  parses_cons.2 ⟨_, (accepts_table (beq_iff_eq.1 hl)).2 ⟨by decide, rfl⟩, h⟩

/-- From a draft whose last channel is open, lines complete this channel by its own lines and go on
with one channel for each block. -/
theorem blocks_of_endsIn (hd : d.EndsIn before ch) (h : Parses ls d d') :
    ∃ ch' after, d'.store.channels.entries = before ++ ch' :: after ∧
      Parses (ownLines ls) (.ofChannel ch) (.ofChannel ch') ∧
      List.Forall₂ IsBlockOf (blocks ls) after := by
  induction ls generalizing d before ch with
  | nil =>
    rw [parses_nil.1 h]
    exact ⟨ch, [], hd.entries, parses_nil.2 rfl, .nil⟩
  | cons l ls ih =>
    obtain ⟨mid, ha, hr⟩ := parses_cons.1 h
    cases hl : l.isLocal with
    | false =>
      obtain ⟨hopens, hscoped⟩ := opens_of_not_local hl
      obtain ⟨hch, hcur⟩ := channels_of_not_local hl ha
      have hmid : mid.EndsIn before ch := ⟨by rw [hch, hd.entries], by rw [hcur, hd.current]⟩
      simpa [ownLines, blocks, hopens, hscoped] using ih hmid hr
    | true =>
      cases hopens : l.opens with
      | false =>
        have hscoped : l.isScoped = true := by simpa [isLocal, hopens] using hl
        obtain ⟨ch1, hmid, halone⟩ := exists_channel_of_scoped hscoped hd ha
        obtain ⟨ch', after, hentries, hown, hblocks⟩ := ih hmid hr
        refine ⟨ch', after, hentries, ?_, by simpa [blocks, hopens] using hblocks⟩
        simpa [ownLines, hopens, hscoped] using parses_cons.2 ⟨_, halone, hown⟩
      | true =>
        obtain ⟨-, rfl⟩ := (accepts_table (beq_iff_eq.1 hopens)).1 ha
        obtain ⟨ch', after, hentries, hown, hblocks⟩ := ih (endsIn_opened d) hr
        refine ⟨ch, ch' :: after, ?_, ?_, ?_⟩
        · rw [hentries, hd.entries, List.append_assoc, List.singleton_append]
        · simpa [ownLines, hopens] using parses_nil.2 rfl
        · simpa [blocks, hopens] using ⟨isBlockOf_cons hopens hown, hblocks⟩

/-- From a draft without channels, lines give one channel for each block. -/
theorem blocks_of_parses (hcur : d.current = none) (hd : d.store.channels.entries = [])
    (h : Parses ls d d') : List.Forall₂ IsBlockOf (blocks ls) d'.store.channels.entries := by
  induction ls generalizing d with
  | nil =>
    rw [parses_nil.1 h, hd]
    exact .nil
  | cons l ls ih =>
    obtain ⟨mid, ha, hr⟩ := parses_cons.1 h
    cases hl : l.isLocal with
    | false =>
      obtain ⟨hopens, -⟩ := opens_of_not_local hl
      obtain ⟨hch, hmid⟩ := channels_of_not_local hl ha
      simpa [blocks, hopens] using ih (hmid.trans hcur) (by rw [hch, hd]) hr
    | true =>
      cases hopens : l.opens with
      | false =>
        -- no channel is open, so a line about it fails
        have hscoped : l.isScoped = true := by simpa [isLocal, hopens] using hl
        obtain ⟨change?, hc⟩ := accepts_channel (beq_iff_eq.1 hscoped)
        obtain ⟨change, i, ch, -, ho, -⟩ := (hc d mid).1 ha
        simp [Draft.openedChannel, hcur] at ho
      | true =>
        obtain ⟨-, rfl⟩ := (accepts_table (beq_iff_eq.1 hopens)).1 ha
        obtain ⟨ch', after, hentries, hown, hblocks⟩ := blocks_of_endsIn (endsIn_opened d) hr
        rw [hentries, hd]
        simpa [blocks, hopens] using ⟨isBlockOf_cons hopens hown, hblocks⟩

/-! ### The whole configuration -/

/-- Lines with the same global ones and the same ones about channels, each in the same order. The
two kinds may stand otherwise to each other, and between them may stand any lines that are no
directives. -/
structure Rearranged (ls ls' : List SourceLine) : Prop where
  globals : (ls'.filter isGlobal).map text = (ls.filter isGlobal).map text
  locals : (ls'.filter isLocal).map text = (ls.filter isLocal).map text

theorem rearranged_of_move {g : SourceLine} (a b : List SourceLine) (hg : g.isGlobal = true)
    (hl : ∀ l ∈ ls, l.isLocal = true) : Rearranged (a ++ g :: ls ++ b) (a ++ ls ++ g :: b) := by
  have hgl : g.isLocal = false := by simp_all [isGlobal]
  have hlg : ls.filter isGlobal = [] := by simp_all [isGlobal]
  constructor <;> simp [hg, hgl, hlg]

theorem rearranged_of_insert (a b : List SourceLine) (hl : l.target? = none) :
    Rearranged (a ++ b) (a ++ l :: b) := by
  obtain ⟨hg, hl⟩ := kinds_of_none hl
  constructor <;> simp [hg, hl]

/-- How the lines of a configuration make up a draft. -/
structure Decomposes (ls : List SourceLine) (r : Draft) : Prop where
  /-- The parameters are those of the lines that are not about channels. -/
  globals : ∃ g, Parses (ls.filter fun l => !l.isLocal) {} g ∧
    ∀ p, r.store.part p = g.store.part p
  /-- Each `new_channel` line makes one entry. -/
  length : r.store.channels.length = ls.countP opens
  /-- Each entry is that of its block alone. -/
  entries : List.Forall₂ IsBlockOf (blocks ls) r.store.channels.entries
  /-- Where a global line stands among those about channels, and all lines that are no
  directives, make no difference. -/
  rearranged : ∀ ls', Rearranged ls ls' → Parses ls' {} r

/-- A configuration without an error is made up of its global lines and its blocks, apart from each
other. -/
theorem parses_decomposes (h : (parseLines Section.all {} ls).result = .ok ()) :
    Decomposes ls (parseLines Section.all {} ls).draft := by
  have hp : Parses ls {} (parseLines Section.all {} ls).draft := ⟨h, rfl⟩
  obtain ⟨g, e, hg, he, hr⟩ := (parses_merge (d := {}) (e := {})).1 hp
  have hblocks := blocks_of_parses rfl rfl hp
  refine ⟨⟨g.merge {}, ?_, fun p => ?_⟩, ?_, hblocks, fun ls' hls => ?_⟩
  · refine (parses_merge (d := {}) (e := {})).2 ⟨g, {}, ?_, ?_, rfl⟩
    · rw [List.filter_filter]
      have hk : ∀ l : SourceLine, (l.isGlobal && !l.isLocal) = l.isGlobal := by
        intro l
        simp [isGlobal]
      simpa only [hk] using hg
    · rw [List.filter_filter]
      simp [parses_nil]
  · rw [hr, part_merge, part_merge]
  · rw [← length_blocks, ← hblocks.length_eq.symm]
    rfl
  · rw [hr]
    refine (parses_merge (d := {}) (e := {})).2 ⟨g, e, ?_, ?_, rfl⟩
    · exact (parses_of_texts hls.globals).2 hg
    · exact (parses_of_texts hls.locals).2 he

theorem parses_decomposes_interleaved :
    let ls : List SourceLine :=
      [⟨1, "card = 1", false⟩, ⟨2, "new_channel", false⟩, ⟨3, "name = One", false⟩,
        ⟨4, "# the second one", false⟩, ⟨5, "new_channel", false⟩, ⟨6, "srate = 27500", false⟩,
        ⟨7, "pids = 100 200", false⟩]
    (parseLines Section.all {} ls).result = .ok () ∧
      Decomposes ls (parseLines Section.all {} ls).draft :=
  have h := by decide +kernel
  ⟨h, parses_decomposes h⟩

end Headend.Config
