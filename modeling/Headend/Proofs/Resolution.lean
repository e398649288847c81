import Headend.Config.Resolve
import Headend.Proofs.Replacement

/-!
# Resolution is a fixed point

The rules read each other's output, so their order counts. What the rules before the templates
decide (`Decided`) is kept by all that follow them, and what the rules after the templates settle
(`Consistent`) holds at the end. On a store with both no rule has anything left to do, and an
expanded template stays as it is. Hence resolving again changes nothing, also where a port
expression stopped the rules half-way.

Facts: `decided_rulesBefore`, `consistent_rulesAfter` and `decided_rulesAfter` (what the rules
establish and keep), `rulesBefore_of_decided` and `rulesAfter_of_consistent` (when they are idle),
`resolve_settled` (resolving again).
-/

namespace Headend.Config

/-! ### What each rule does to the store -/

section rules

variable (s : Store)

theorem cardRule_fst :
    (cardRule s).1 = { s with tuning.card := some (s.tuning.card.getD 0) } := rfl

theorem announceRule_fst :
    (announceRule s).1 =
      { s with
        sap.sap :=
          if s.autoconf.enabled && s.sap.sap.isUndefined && s.multicast.multicast then .on
          else s.sap.sap } := by
  unfold announceRule
  split <;> rfl

theorem patRule_fst :
    (patRule s).1 =
      { s with
        rewrite.pat :=
          if s.autoconf.enabled && s.rewrite.pat.isUndefined then s.rewrite.pat.resolve true
          else s.rewrite.pat } := by
  unfold patRule
  split <;> rfl

theorem sdtRule_fst :
    (sdtRule s).1 =
      { s with
        rewrite.sdt :=
          if s.autoconf.enabled && s.rewrite.sdt.isUndefined then s.rewrite.sdt.resolve true
          else s.rewrite.sdt } := by
  unfold sdtRule
  split <;> rfl

theorem t2miRule_fst :
    (t2miRule s).1 =
      { s with
        buffering.dvrBufferSize :=
          if s.options.t2miPid > 0 && s.buffering.dvrBufferSize < leastT2miBuffer then
            leastT2miBuffer
          else s.buffering.dvrBufferSize } := by
  unfold t2miRule
  split <;> rfl

theorem threadBufferRule_fst :
    (threadBufferRule s).1 =
      { s with
        buffering.maxThreadBufferSize :=
          if s.buffering.maxThreadBufferSize < s.buffering.dvrBufferSize then
            s.buffering.dvrBufferSize
          else s.buffering.maxThreadBufferSize } := by
  unfold threadBufferRule
  split <;> rfl

theorem ttlRule_fst :
    (ttlRule s).1 =
      { s with
        multicast :=
          if s.multicast.ttl == 0 && s.multicast.multicast then
            { s.multicast with ipv4 := false, ipv6 := false }.refresh
          else s.multicast } := by
  unfold ttlRule
  split <;> rfl

theorem rtpRule_fst :
    (rtpRule s).1 =
      { s with
        multicast.rtpHeader :=
          if !s.multicast.multicast && s.multicast.rtpHeader then false
          else s.multicast.rtpHeader } := by
  unfold rtpRule
  split <;> rfl

theorem silenceRule_fst :
    (silenceRule s).1 =
      { s with
        sap.sap :=
          if !s.multicast.multicast && s.sap.sap.isOn then .off else s.sap.sap } := by
  unfold silenceRule
  split <;> rfl

end rules

/-! ### What the rules establish -/

/-- What the rules before the templates decide. -/
structure Decided (s : Store) : Prop where
  card : s.tuning.card ≠ none
  announce : s.autoconf.enabled = true → s.multicast.multicast = true → s.sap.sap ≠ .undefined
  pat : s.autoconf.enabled = true → s.rewrite.pat ≠ .undefined
  sdt : s.autoconf.enabled = true → s.rewrite.sdt ≠ .undefined
  t2mi : 0 < s.options.t2miPid → leastT2miBuffer ≤ s.buffering.dvrBufferSize
  thread : s.buffering.dvrBufferSize ≤ s.buffering.maxThreadBufferSize

/-- What the rules after the templates settle. -/
structure Consistent (s : Store) : Prop where
  ttl : s.multicast.ttl = 0 → s.multicast.multicast = false
  rtp : s.multicast.multicast = false → s.multicast.rtpHeader = false
  silence : s.multicast.multicast = false → s.sap.sap ≠ .on

theorem le_raised (a b : UInt32) : b ≤ if a < b then b else a := by
  split
  · exact UInt32.le_refl b
  · exact UInt32.not_lt.1 ‹_›

theorem decided_rulesBefore (s : Store) : Decided (rulesBefore s).1 := by
  simp only [rulesBefore, Rule.andThen, cardRule_fst, announceRule_fst, patRule_fst, sdtRule_fst,
    t2miRule_fst, threadBufferRule_fst]
  constructor
  · simp
  · intro he hm
    cases h : s.sap.sap <;> simp_all [Tristate.isUndefined]
  · intro he
    cases h : s.rewrite.pat <;> simp_all [Tristate.isUndefined, Tristate.resolve, Tristate.ofBool]
  · intro he
    cases h : s.rewrite.sdt <;> simp_all [Tristate.isUndefined, Tristate.resolve, Tristate.ofBool]
  · intro ht
    dsimp only at ht ⊢
    split <;> simp_all
  · exact le_raised _ _

theorem consistent_rulesAfter (s : Store) : Consistent (rulesAfter s).1 := by
  simp only [rulesAfter, Rule.andThen, ttlRule_fst, rtpRule_fst, silenceRule_fst]
  by_cases ht : (s.multicast.ttl == 0 && s.multicast.multicast) = true
  · simp only [ht, ↓reduceIte, Multicast.refresh]
    constructor
    · simp
    · simp
    · cases h : s.sap.sap <;> simp [Tristate.isOn]
  · simp only [ht, Bool.false_eq_true, ↓reduceIte]
    constructor
    · intro hz
      dsimp only at hz ⊢
      simpa [hz] using ht
    · intro hm
      dsimp only at hm ⊢
      cases h : s.multicast.rtpHeader <;> simp [hm]
    · intro hm
      dsimp only at hm ⊢
      cases h : s.sap.sap <;> simp [hm, Tristate.isOn]

/-! ### What the later rules keep -/

theorem decided_rulesAfter {s : Store} (h : Decided s) : Decided (rulesAfter s).1 := by
  simp only [rulesAfter, Rule.andThen, ttlRule_fst, rtpRule_fst, silenceRule_fst]
  refine ⟨h.card, ?_, h.pat, h.sdt, h.t2mi, h.thread⟩
  intro he hm
  dsimp only at he hm ⊢
  by_cases ht : (s.multicast.ttl == 0 && s.multicast.multicast) = true
  · simp [ht, Multicast.refresh] at hm
  · simp only [ht, Bool.false_eq_true, ↓reduceIte] at hm ⊢
    simpa [hm] using h.announce he hm

/-! ### When the rules are idle -/

theorem Rule.andThen_of_idle {first second : Rule} {s : Store} (h : first s = (s, []))
    (h' : second s = (s, [])) : first.andThen second s = (s, []) := by
  simp only [Rule.andThen, h, h', List.append_nil]

theorem rulesBefore_of_decided {s : Store} (h : Decided s) : rulesBefore s = (s, []) := by
  have hcard : cardRule s = (s, []) := by
    obtain ⟨card, hc⟩ := Option.ne_none_iff_exists'.1 h.card
    have hg : some (s.tuning.card.getD 0) = s.tuning.card := by rw [hc, Option.getD_some]
    rw [cardRule, hg]
  have hannounce : announceRule s = (s, []) := if_neg fun hg => by
    simp only [Bool.and_eq_true, Tristate.isUndefined, beq_iff_eq] at hg
    exact h.announce hg.1.1 hg.2 hg.1.2
  have hpat : patRule s = (s, []) := if_neg fun hg => by
    simp only [Bool.and_eq_true, Tristate.isUndefined, beq_iff_eq] at hg
    exact h.pat hg.1 hg.2
  have hsdt : sdtRule s = (s, []) := if_neg fun hg => by
    simp only [Bool.and_eq_true, Tristate.isUndefined, beq_iff_eq] at hg
    exact h.sdt hg.1 hg.2
  have ht2mi : t2miRule s = (s, []) := if_neg fun hg => by
    simp only [Bool.and_eq_true, decide_eq_true_eq] at hg
    exact UInt32.not_lt.2 (h.t2mi hg.1) hg.2
  have hthread : threadBufferRule s = (s, []) := if_neg (UInt32.not_lt.2 h.thread)
  exact Rule.andThen_of_idle hcard <| Rule.andThen_of_idle hannounce <|
    Rule.andThen_of_idle hpat <| Rule.andThen_of_idle hsdt <| Rule.andThen_of_idle ht2mi hthread

theorem rulesAfter_of_consistent {s : Store} (h : Consistent s) : rulesAfter s = (s, []) := by
  have httl : ttlRule s = (s, []) := if_neg fun hg => by
    simp only [Bool.and_eq_true, beq_iff_eq] at hg
    rw [h.ttl hg.1] at hg
    exact Bool.false_ne_true hg.2
  have hrtp : rtpRule s = (s, []) := if_neg fun hg => by
    simp only [Bool.and_eq_true, Bool.not_eq_eq_eq_not, Bool.not_true] at hg
    rw [h.rtp hg.1] at hg
    exact Bool.false_ne_true hg.2
  have hsilence : silenceRule s = (s, []) := if_neg fun hg => by
    simp only [Bool.and_eq_true, Bool.not_eq_eq_eq_not, Bool.not_true, Tristate.isOn,
      beq_iff_eq] at hg
    exact h.silence hg.1 hg.2
  exact Rule.andThen_of_idle httl (Rule.andThen_of_idle hrtp hsilence)

/-! ### The templates -/

/-- The store with the templates expanded that stand before the port. -/
def expandBefore (s : Store) : Store :=
  expandPortExpression s.templateValues (expandDevicePath s.templateValues s)

theorem decided_expandBefore {s : Store} (h : Decided s) : Decided (expandBefore s) :=
  ⟨h.card, h.announce, h.pat, h.sdt, h.t2mi, h.thread⟩

/-- The rules after the templates change the outputs only. -/
theorem rulesAfter_fst (s : Store) :
    ∃ m a, (rulesAfter s).1 = { s with multicast := m, sap := a } := by
  simp only [rulesAfter, Rule.andThen, ttlRule_fst, rtpRule_fst, silenceRule_fst]
  exact ⟨_, _, rfl⟩

@[simp] theorem templateValues_expandBefore (s : Store) :
    (expandBefore s).templateValues = s.templateValues := rfl

theorem expandBefore_expandBefore (s : Store) : expandBefore (expandBefore s) = expandBefore s := by
  rw [expandBefore, templateValues_expandBefore]
  simp only [expandBefore, expandPortExpression, expandDevicePath, TemplateValues.expand_expand,
    Option.map_map, Function.comp_def]

theorem expandBefore_eq_self_iff {s : Store} :
    expandBefore s = s ↔
      s.templateValues.expand s.tuning.cardDevPath = s.tuning.cardDevPath ∧
        s.unicast.portExpression.map s.templateValues.expand = s.unicast.portExpression := by
  constructor
  · intro h
    exact ⟨congrArg (·.tuning.cardDevPath) h, congrArg (·.unicast.portExpression) h⟩
  · rintro ⟨hd, hp⟩
    rw [expandBefore, expandDevicePath, hd, expandPortExpression, hp]

theorem expandFiles_eq_self_iff {s : Store} :
    expandFiles s.templateValues s = s ↔
      s.logging.file.map s.templateValues.expand = s.logging.file ∧
        s.templateValues.expand s.options.pidFile = s.options.pidFile := by
  constructor
  · intro h
    exact ⟨congrArg (·.logging.file) h, congrArg (·.options.pidFile) h⟩
  · rintro ⟨hl, hp⟩
    rw [expandFiles, hl, hp]

/-- Evaluating the port sets it and nothing else, and finds the same port again. -/
theorem evaluatePort_ok {s t : Store} (h : evaluatePort s = .ok t) :
    ∃ p, t = { s with unicast.port := p } ∧
      ∀ t' : Store, t'.unicast = t.unicast → evaluatePort t' = .ok t' := by
  unfold evaluatePort at h
  split at h
  · rename_i he
    cases h
    refine ⟨s.unicast.port, rfl, fun t' ht => ?_⟩
    rw [evaluatePort, ht, he]
  · rename_i e he
    split at h
    · rename_i p hp
      cases h
      refine ⟨some p, rfl, fun t' ht => ?_⟩
      have he' : t'.unicast.portExpression = some e := by rw [ht]; exact he
      have hp' : t'.unicast.port = some p := by rw [ht]
      simp only [evaluatePort, he', hp]
      rw [← he', ← hp']
    · cases h

/-! ### Resolving again -/

/-- A store on which resolution has nothing to do. -/
structure Settled (s : Store) : Prop where
  decided : Decided s
  before : expandBefore s = s
  port : evaluatePort s = .ok s
  files : expandFiles s.templateValues s = s
  consistent : Consistent s

theorem resolve_eq (s : Store) :
    s.resolve =
      match evaluatePort (expandBefore (rulesBefore s).1) with
      | .error e => ⟨.error e, expandBefore (rulesBefore s).1, (rulesBefore s).2⟩
      | .ok t =>
        let v := (expandBefore (rulesBefore s).1).templateValues
        let (final, after) := rulesAfter (expandFiles v t)
        ⟨if final.hasOutput then .ok () else .error .noOutput, final,
          (rulesBefore s).2 ++ after⟩ := by
  unfold Store.resolve
  rw [templateValues_expandBefore]
  generalize rulesBefore s = r
  obtain ⟨s, records⟩ := r
  cases h : evaluatePort (expandBefore s) with
  | error e =>
    unfold expandBefore at h ⊢
    simp only [h]
  | ok t =>
    unfold expandBefore at h ⊢
    simp only [h]

theorem resolve_of_settled {s : Store} (h : Settled s) :
    s.resolve = ⟨if s.hasOutput then .ok () else .error .noOutput, s, []⟩ := by
  rw [resolve_eq, rulesBefore_of_decided h.decided, h.before, h.port]
  simp only [h.files, rulesAfter_of_consistent h.consistent, List.append_nil]

/-- What resolution leaves when the port has been evaluated. -/
theorem settled_rulesAfter {s t : Store} (hd : Decided s) (hb : expandBefore s = s)
    (ht : evaluatePort s = .ok t) : Settled (rulesAfter (expandFiles s.templateValues t)).1 := by
  obtain ⟨p, rfl, hp⟩ := evaluatePort_ok ht
  have hc := consistent_rulesAfter (expandFiles s.templateValues { s with unicast.port := p })
  have hk := decided_rulesAfter (s := expandFiles s.templateValues { s with unicast.port := p })
    ⟨hd.card, hd.announce, hd.pat, hd.sdt, hd.t2mi, hd.thread⟩
  obtain ⟨m, a, h⟩ := rulesAfter_fst (expandFiles s.templateValues { s with unicast.port := p })
  rw [h] at hc hk ⊢
  obtain ⟨hdir, hport⟩ := expandBefore_eq_self_iff.1 hb
  refine ⟨hk, ?_, hp _ rfl, ?_, hc⟩
  · exact expandBefore_eq_self_iff.2 ⟨hdir, hport⟩
  · have hlog : (s.logging.file.map s.templateValues.expand).map s.templateValues.expand =
        s.logging.file.map s.templateValues.expand := by
      simp only [Option.map_map, Function.comp_def, TemplateValues.expand_expand]
    exact expandFiles_eq_self_iff.2 ⟨hlog, TemplateValues.expand_expand _ _⟩

theorem evaluatePort_error {s : Store} {e : ConfigError} (h : evaluatePort s = .error e) :
    ∃ x, s.unicast.portExpression = some x ∧ e = .badValue "port_http" x := by
  unfold evaluatePort at h
  split at h
  · cases h
  · rename_i x hx
    split at h
    · cases h
    · cases h
      exact ⟨x, hx, rfl⟩

/-- Resolution succeeds, finds no output, or stops at the expression that it leaves. -/
theorem result_resolve (s : Store) :
    s.resolve.result = .ok () ∨ s.resolve.result = .error .noOutput ∨
      ∃ x, s.resolve.store.unicast.portExpression = some x ∧
        s.resolve.result = .error (.badValue "port_http" x) := by
  rw [resolve_eq]
  cases hp : evaluatePort (expandBefore (rulesBefore s).1) with
  | error e =>
    obtain ⟨x, hx, rfl⟩ := evaluatePort_error hp
    exact .inr (.inr ⟨x, hx, rfl⟩)
  | ok t =>
    dsimp only
    split
    · exact .inl rfl
    · exact .inr (.inl rfl)

/-- Resolving a store again ends in the same way, changes nothing and leaves no record, whatever
the store held and however the first resolution ended. -/
theorem resolve_settled (s : Store) :
    (s.resolve.result = .ok () ∨ s.resolve.result = .error .noOutput ∨
      ∃ x, s.resolve.store.unicast.portExpression = some x ∧
        s.resolve.result = .error (.badValue "port_http" x)) ∧
    s.resolve.store.resolve.result = s.resolve.result ∧
    s.resolve.store.resolve.store = s.resolve.store ∧
    s.resolve.store.resolve.records = [] := by
  refine ⟨result_resolve s, ?_⟩
  have hd := decided_expandBefore (decided_rulesBefore s)
  have hb := expandBefore_expandBefore (rulesBefore s).1
  cases hp : evaluatePort (expandBefore (rulesBefore s).1) with
  | error e =>
    -- the rules stopped at the port, and the same expression is evaluated again
    have h : s.resolve = ⟨.error e, expandBefore (rulesBefore s).1, (rulesBefore s).2⟩ := by
      rw [resolve_eq, hp]
    rw [h, resolve_eq, rulesBefore_of_decided hd, hb, hp]
    exact ⟨rfl, rfl, rfl⟩
  | ok t =>
    have h : s.resolve.store =
        (rulesAfter (expandFiles (expandBefore (rulesBefore s).1).templateValues t)).1 := by
      rw [resolve_eq, hp]
    have hr : s.resolve.result = if s.resolve.store.hasOutput then .ok () else .error .noOutput := by
      rw [resolve_eq, hp]
    have hs : Settled s.resolve.store := h ▸ settled_rulesAfter hd hb hp
    rw [hr, resolve_of_settled hs]
    simp only [and_self]

end Headend.Config
