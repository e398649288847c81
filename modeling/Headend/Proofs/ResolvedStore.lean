import Headend.Proofs.Resolution

/-!
# What a resolved store guarantees

A store on which resolution succeeded can be relied on by every later stage: the card is known, an
output is on, what depends on multicast follows it, the buffers fit each other, autoconfiguration
has decided what was open, and no text names the card, the tuner or the server any more. What the
configuration said is respected, and what the rules are not about is left alone.

Facts: `namesNothing_of_expand_eq_self` (a text that expansion keeps names nothing),
`settled_resolve` (nothing is left to do), `coherent_resolve` and `respects_resolve` (the two halves
of the guarantee), `result_resolve_eq_ok_iff` and `result_resolve_eq_noOutput_iff` (how it ends),
`resolve_guarantee`.
-/

namespace Headend.Config

open TemplateValues (cardToken tunerToken serverToken)

/-! ### The guarantee -/

/-- Whether a text is without the names that a template may hold. -/
def NamesNothing (text : String) : Prop :=
  ∀ name ∈ [cardToken, tunerToken, serverToken], ¬ name <:+: text.toList

/-- What the parts of a resolved store say about each other. -/
structure Coherent (t : Store) : Prop where
  card : ∃ card, t.tuning.card = some card
  output : t.multicast.multicast = true ∨ t.unicast.unicast = true
  summary : t.multicast.multicast = (t.multicast.ipv4 || t.multicast.ipv6)
  ttl : t.multicast.ttl = 0 →
    t.multicast.multicast = false ∧ t.multicast.ipv4 = false ∧ t.multicast.ipv6 = false
  silence : t.multicast.multicast = false → t.multicast.rtpHeader = false ∧ t.sap.sap ≠ .on
  t2mi : 0 < t.options.t2miPid → 20 ≤ t.buffering.dvrBufferSize
  thread : t.buffering.dvrBufferSize ≤ t.buffering.maxThreadBufferSize
  rewriting : t.autoconf.enabled = true → t.rewrite.pat ≠ .undefined ∧ t.rewrite.sdt ≠ .undefined
  announcing : t.autoconf.enabled = true → t.multicast.multicast = true → t.sap.sap ≠ .undefined
  devicePath : NamesNothing t.tuning.cardDevPath
  portExpression : ∀ e, t.unicast.portExpression = some e → NamesNothing e
  logFile : ∀ path, t.logging.file = some path → NamesNothing path
  pidFile : NamesNothing t.options.pidFile
  port : ∀ e, t.unicast.portExpression = some e →
    ∃ p, t.unicast.port = some p ∧ PortExpression.value? e = some (p.toNat : Int)

/-- What resolution leaves of a store as it was. -/
structure Respects (s t : Store) : Prop where
  sapOff : s.sap.sap = .off → t.sap.sap = .off
  sapOn : s.sap.sap = .on → t.sap.sap = .on ∨ t.sap.sap = .off ∧ t.multicast.multicast = false
  pat : s.rewrite.pat ≠ .undefined → t.rewrite.pat = s.rewrite.pat
  sdt : s.rewrite.sdt ≠ .undefined → t.rewrite.sdt = s.rewrite.sdt
  dvrBuffer : s.buffering.dvrBufferSize ≤ t.buffering.dvrBufferSize
  threadBuffer : s.buffering.maxThreadBufferSize ≤ t.buffering.maxThreadBufferSize
  port : s.unicast.portExpression = none → t.unicast.port = s.unicast.port
  multicast : t.multicast.multicast = (s.multicast.multicast && s.multicast.ttl != 0)
  summary : s.multicast.multicast = (s.multicast.ipv4 || s.multicast.ipv6) →
    t.multicast.multicast = (t.multicast.ipv4 || t.multicast.ipv6)
  ipv4 : t.multicast.ipv4 = true → s.multicast.ipv4 = true
  ipv6 : t.multicast.ipv6 = true → s.multicast.ipv6 = true
  rtpHeader : t.multicast.rtpHeader = true → s.multicast.rtpHeader = true
  /-- The card and the texts are what they should be, the fields of the rules may have changed, and
  all else is as it was. -/
  rest : t = { s with
    tuning.card := some (s.tuning.card.getD 0)
    tuning.cardDevPath := s.templateValues.expand s.tuning.cardDevPath
    unicast.portExpression := s.unicast.portExpression.map s.templateValues.expand
    unicast.port := t.unicast.port
    logging.file := s.logging.file.map s.templateValues.expand
    options.pidFile := s.templateValues.expand s.options.pidFile
    sap.sap := t.sap.sap
    multicast.multicast := t.multicast.multicast
    multicast.ipv4 := t.multicast.ipv4
    multicast.ipv6 := t.multicast.ipv6
    multicast.rtpHeader := t.multicast.rtpHeader
    rewrite.pat := t.rewrite.pat
    rewrite.sdt := t.rewrite.sdt
    buffering.dvrBufferSize := t.buffering.dvrBufferSize
    buffering.maxThreadBufferSize := t.buffering.maxThreadBufferSize }

/-- Whether the expanded port expression, if there is one, has a value that can be a port. -/
def PortFits (s : Store) : Prop :=
  ∀ e, s.unicast.portExpression = some e →
    ∃ n, PortExpression.value? (s.templateValues.expand e) = some n ∧ 0 ≤ n ∧ n ≤ 65535

/-! ### Texts that name nothing -/

/-- A text that expansion keeps holds none of the names. -/
theorem namesNothing_of_expand_eq_self {v : TemplateValues} {text : String}
    (h : v.expand text = text) : NamesNothing text := by
  intro name hname
  have htext : v.expandText text.toList = text.toList := by
    have := congrArg String.toList h
    rwa [TemplateValues.expand, String.toList_ofList] at this
  have hb : ∃ b ∈ v.bindings, b.1 = name := by
    simpa [TemplateValues.bindings, eq_comm] using hname
  obtain ⟨b, hb, rfl⟩ := hb
  rw [← htext]
  exact v.expandText_clean text.toList hb

theorem namesNothing_of_map_expand_eq_self {v : TemplateValues} {text : Option String}
    (h : text.map v.expand = text) : ∀ x, text = some x → NamesNothing x := by
  rintro x rfl
  exact namesNothing_of_expand_eq_self (Option.some.inj h)

/-! ### Ports -/

theorem value?_of_portOf? {e : String} {p : UInt16} (h : portOf? e = some p) :
    PortExpression.value? e = some (p.toNat : Int) := by
  unfold portOf? at h
  split at h
  · rename_i n hn
    obtain ⟨⟨hnonneg, hlt⟩, hp⟩ := Option.ite_none_right_eq_some.1 h
    rw [hn, ← Option.some.inj hp, UInt16.toNat_ofNat']
    congr 1
    simp only [UInt16.size] at hlt
    omega
  · cases h

/-- An expression has a port exactly if its value is between the least and the greatest port. -/
theorem exists_portOf?_iff (e : String) :
    (∃ p, portOf? e = some p) ↔ ∃ n, PortExpression.value? e = some n ∧ 0 ≤ n ∧ n ≤ 65535 := by
  constructor
  · rintro ⟨p, hp⟩
    refine ⟨_, value?_of_portOf? hp, by omega, ?_⟩
    have := p.toNat_lt
    omega
  · rintro ⟨n, hn, hnonneg, hle⟩
    have hrange : 0 ≤ n ∧ n < UInt16.size := ⟨hnonneg, by simp only [UInt16.size]; omega⟩
    exact ⟨UInt16.ofNat n.toNat, by rw [portOf?, hn]; exact if_pos hrange⟩

/-- The port of a store can be evaluated exactly if its expression, if there is one, has one. -/
theorem exists_evaluatePort_iff (s : Store) :
    (∃ t, evaluatePort s = .ok t) ↔
      ∀ e, s.unicast.portExpression = some e → ∃ p, portOf? e = some p := by
  unfold evaluatePort
  cases s.unicast.portExpression with
  | none => simp
  | some e => cases h : portOf? e <;> simp [h]

theorem evaluatePort_eq_self {t : Store} (h : evaluatePort t = .ok t) {e : String}
    (he : t.unicast.portExpression = some e) : t.unicast.port = portOf? e := by
  unfold evaluatePort at h
  rw [he] at h
  dsimp only at h
  split at h
  · rename_i p hp
    rw [hp, ← congrArg (·.unicast.port) (Except.ok.inj h)]
  · cases h

/-! ### Nothing is left to do -/

section

variable {s t : Store} (ht : evaluatePort (expandBefore (rulesBefore s).1) = .ok t)
include ht

theorem resolve_of_port :
    s.resolve.store =
        (rulesAfter (expandFiles (expandBefore (rulesBefore s).1).templateValues t)).1 ∧
      s.resolve.result = if s.resolve.store.hasOutput then .ok () else .error .noOutput := by
  rw [resolve_eq, ht]
  exact ⟨rfl, rfl⟩

theorem settled_resolve : Settled s.resolve.store := by
  rw [(resolve_of_port ht).1]
  exact settled_rulesAfter (decided_expandBefore (decided_rulesBefore s))
    (expandBefore_expandBefore _) ht

end

/-- Resolution only goes beyond the templates if the port could be evaluated. -/
theorem exists_port_of_result {s : Store}
    (h : s.resolve.result = .ok () ∨ s.resolve.result = .error .noOutput) :
    ∃ t, evaluatePort (expandBefore (rulesBefore s).1) = .ok t := by
  cases ht : evaluatePort (expandBefore (rulesBefore s).1) with
  | ok t => exact ⟨t, rfl⟩
  | error e =>
    obtain ⟨x, -, rfl⟩ := evaluatePort_error ht
    rw [resolve_eq, ht] at h
    rcases h with h | h <;> cases h

/-! ### What the rules do to a store -/

theorem le_ite_of_imp {a b : UInt32} {p : Prop} [Decidable p] (h : p → a ≤ b) :
    a ≤ if p then b else a := by
  split
  · exact h ‹p›
  · exact UInt32.le_refl a

/-- The rules before the templates decide what was open and only enlarge the buffers. -/
theorem rulesBefore_fst (s : Store) :
    ∃ sap pat sdt dvr thread, (rulesBefore s).1 =
      { s with
        tuning.card := some (s.tuning.card.getD 0)
        sap.sap := sap
        rewrite.pat := pat
        rewrite.sdt := sdt
        buffering.dvrBufferSize := dvr
        buffering.maxThreadBufferSize := thread } ∧
      (s.sap.sap ≠ .undefined → sap = s.sap.sap) ∧
      (s.rewrite.pat ≠ .undefined → pat = s.rewrite.pat) ∧
      (s.rewrite.sdt ≠ .undefined → sdt = s.rewrite.sdt) ∧
      s.buffering.dvrBufferSize ≤ dvr ∧ s.buffering.maxThreadBufferSize ≤ thread := by
  simp only [rulesBefore, Rule.andThen, cardRule_fst, announceRule_fst, patRule_fst, sdtRule_fst,
    t2miRule_fst, threadBufferRule_fst]
  refine ⟨_, _, _, _, _, rfl, fun ha => ?_, fun hp => ?_, fun hd => ?_, ?_, ?_⟩
  · simp [Tristate.isUndefined, ha]
  · simp [Tristate.isUndefined, hp]
  · simp [Tristate.isUndefined, hd]
  · refine le_ite_of_imp fun hlow => ?_
    simp only [Bool.and_eq_true, decide_eq_true_eq] at hlow
    exact UInt32.le_of_lt hlow.2
  · exact le_ite_of_imp UInt32.le_of_lt

/-- The rules after the templates turn multicast off if no packet leaves, and then what depends on
it. -/
theorem rulesAfter_fst_of_multicast (s : Store) :
    ∃ on ip4 ip6 rtp sap, (rulesAfter s).1 =
      { s with
        sap.sap := sap
        multicast.multicast := on
        multicast.ipv4 := ip4
        multicast.ipv6 := ip6
        multicast.rtpHeader := rtp } ∧
      on = (s.multicast.multicast && s.multicast.ttl != 0) ∧
      (s.multicast.multicast = (s.multicast.ipv4 || s.multicast.ipv6) → on = (ip4 || ip6)) ∧
      (sap = s.sap.sap ∨ s.sap.sap = .on ∧ sap = .off ∧ on = false) ∧
      (ip4 = true → s.multicast.ipv4 = true) ∧ (ip6 = true → s.multicast.ipv6 = true) ∧
      (rtp = true → s.multicast.rtpHeader = true) := by
  simp only [rulesAfter, Rule.andThen, ttlRule_fst, rtpRule_fst, silenceRule_fst]
  by_cases ht : (s.multicast.ttl == 0 && s.multicast.multicast) = true
  · simp only [ht, ↓reduceIte, Multicast.refresh, Bool.or_false, Bool.not_false, Bool.true_and]
    refine ⟨_, _, _, _, _, rfl, ?_, fun _ => rfl, ?_, by simp, by simp, by simp⟩
    · simp_all
    · cases h : s.sap.sap <;> simp [Tristate.isOn]
  · simp only [ht, Bool.false_eq_true, ↓reduceIte]
    refine ⟨_, _, _, _, _, rfl, ?_, id, ?_, id, id, by simp⟩
    · cases hm : s.multicast.multicast <;> simp_all
    · cases h : s.sap.sap <;> cases hm : s.multicast.multicast <;> simp [Tristate.isOn]

theorem evaluatePort_of_none {s t : Store} (h : evaluatePort s = .ok t)
    (hn : s.unicast.portExpression = none) : t = s := by
  rw [evaluatePort, hn] at h
  exact (Except.ok.inj h).symm

/-- Resolution leaves the channels alone. -/
theorem channels_resolve (s : Store) : s.resolve.store.channels = s.channels := by
  obtain ⟨_, _, _, _, _, hbefore, -⟩ := rulesBefore_fst s
  have hexpanded : (expandBefore (rulesBefore s).1).channels = s.channels := by
    rw [hbefore]
    rfl
  rw [resolve_eq]
  generalize expandBefore (rulesBefore s).1 = t at hexpanded
  cases hport : evaluatePort t with
  | error e => exact hexpanded
  | ok t' =>
    obtain ⟨port, rfl, -⟩ := evaluatePort_ok hport
    obtain ⟨_, _, hafter⟩ :=
      rulesAfter_fst (expandFiles t.templateValues { t with unicast.port := port })
    exact (congrArg Store.channels hafter).trans hexpanded

/-! ### Assembling the guarantee -/

section

variable {s t : Store} (ht : evaluatePort (expandBefore (rulesBefore s).1) = .ok t)
include ht

theorem respects_resolve : Respects s s.resolve.store := by
  rw [(resolve_of_port ht).1]
  have hnone := evaluatePort_of_none ht
  obtain ⟨p, rfl, -⟩ := evaluatePort_ok ht
  obtain ⟨sap, pat, sdt, dvr, thread, hbefore, hsap, hpat, hsdt, hdvr, hthread⟩ :=
    rulesBefore_fst s
  rw [hbefore] at hnone ⊢
  generalize hu : expandFiles _ _ = u
  obtain ⟨on, ip4, ip6, rtp, sap', hafter, hon, hsummary, hsap', hip4, hip6, hrtp⟩ :=
    rulesAfter_fst_of_multicast u
  rw [hafter]
  subst hu
  exact {
    sapOff := fun h => by
      have hoff : sap = .off := (hsap (by rw [h]; decide)).trans h
      rcases hsap' with hkept | ⟨hwas, -, -⟩
      · exact hkept.trans hoff
      · exact absurd (hoff.symm.trans hwas) (by decide)
    sapOn := fun h => by
      have hon : sap = .on := (hsap (by rw [h]; decide)).trans h
      rcases hsap' with hkept | ⟨-, hoff, hsilent⟩
      · exact .inl (hkept.trans hon)
      · exact .inr ⟨hoff, hsilent⟩
    pat := hpat
    sdt := hsdt
    dvrBuffer := hdvr
    threadBuffer := hthread
    port := fun h => by
      have hexpression : s.unicast.portExpression.map s.templateValues.expand = none := by
        rw [h]
        rfl
      exact congrArg (·.unicast.port) (hnone hexpression)
    multicast := hon
    summary := hsummary
    ipv4 := hip4
    ipv6 := hip6
    rtpHeader := hrtp
    rest := rfl }

theorem coherent_resolve (hs : s.multicast.multicast = (s.multicast.ipv4 || s.multicast.ipv6))
    (hok : s.resolve.result = .ok ()) : Coherent s.resolve.store := by
  have hsettled := settled_resolve ht
  have hsummary := (respects_resolve ht).summary hs
  obtain ⟨hdevice, hexpression⟩ := expandBefore_eq_self_iff.1 hsettled.before
  obtain ⟨hlog, hpid⟩ := expandFiles_eq_self_iff.1 hsettled.files
  exact {
    card := Option.ne_none_iff_exists'.1 hsettled.decided.card
    output := by
      rw [(resolve_of_port ht).2] at hok
      split at hok
      · simpa [Store.hasOutput] using ‹s.resolve.store.hasOutput = true›
      · cases hok
    summary := hsummary
    ttl := fun hz => by
      have hoff := hsettled.consistent.ttl hz
      rw [hoff] at hsummary
      have hboth := Bool.or_eq_false_iff.1 hsummary.symm
      exact ⟨hoff, hboth.1, hboth.2⟩
    silence := fun hoff => ⟨hsettled.consistent.rtp hoff, hsettled.consistent.silence hoff⟩
    t2mi := hsettled.decided.t2mi
    thread := hsettled.decided.thread
    rewriting := fun he => ⟨hsettled.decided.pat he, hsettled.decided.sdt he⟩
    announcing := hsettled.decided.announce
    devicePath := namesNothing_of_expand_eq_self hdevice
    portExpression := namesNothing_of_map_expand_eq_self hexpression
    logFile := namesNothing_of_map_expand_eq_self hlog
    pidFile := namesNothing_of_expand_eq_self hpid
    port := fun e he => by
      have hport := evaluatePort_eq_self hsettled.port he
      obtain ⟨p, hp⟩ := (exists_evaluatePort_iff s.resolve.store).1 ⟨_, hsettled.port⟩ e he
      exact ⟨p, hport.trans hp, value?_of_portOf? hp⟩ }

end

/-- Resolution gets beyond the port exactly if the expanded expression, if there is one, has one. -/
theorem exists_port_iff (s : Store) :
    (∃ t, evaluatePort (expandBefore (rulesBefore s).1) = .ok t) ↔ PortFits s := by
  have hexpression : (expandBefore (rulesBefore s).1).unicast.portExpression =
      s.unicast.portExpression.map s.templateValues.expand := by
    obtain ⟨_, _, _, _, _, hbefore, -⟩ := rulesBefore_fst s
    rw [hbefore]
    rfl
  simp only [PortFits, exists_evaluatePort_iff, hexpression, exists_portOf?_iff,
    Option.map_eq_some_iff, forall_exists_index, and_imp, forall_apply_eq_imp_iff₂]

/-- If the port causes no error, all depends on whether an output reaches anyone. -/
theorem result_resolve_of_portFits {s : Store} (h : PortFits s) :
    s.resolve.result =
      if s.unicast.unicast = true ∨ s.multicast.multicast = true ∧ s.multicast.ttl ≠ 0 then .ok ()
      else .error .noOutput := by
  obtain ⟨t, ht⟩ := (exists_port_iff s).2 h
  have hunicast : s.resolve.store.unicast.unicast = s.unicast.unicast :=
    congrArg (·.unicast.unicast) (respects_resolve ht).rest
  rw [(resolve_of_port ht).2, Store.hasOutput, (respects_resolve ht).multicast, hunicast]
  cases s.unicast.unicast <;> cases s.multicast.multicast <;> simp

/-- Resolution succeeds exactly if the port causes no error and an output reaches someone. -/
theorem result_resolve_eq_ok_iff (s : Store) :
    s.resolve.result = .ok () ↔
      PortFits s ∧
        (s.unicast.unicast = true ∨ s.multicast.multicast = true ∧ s.multicast.ttl ≠ 0) := by
  constructor
  · intro h
    have hfits := (exists_port_iff s).1 (exists_port_of_result (.inl h))
    rw [result_resolve_of_portFits hfits] at h
    refine ⟨hfits, ?_⟩
    split at h
    · assumption
    · cases h
  · rintro ⟨hfits, houtput⟩
    rw [result_resolve_of_portFits hfits, if_pos houtput]

/-- Resolution finds no output exactly if the port causes no error, unicast is off, and multicast is
off or reaches nobody. -/
theorem result_resolve_eq_noOutput_iff (s : Store) :
    s.resolve.result = .error .noOutput ↔
      PortFits s ∧ s.unicast.unicast = false ∧
        (s.multicast.multicast = false ∨ s.multicast.ttl = 0) := by
  have hneither : ¬(s.unicast.unicast = true ∨ s.multicast.multicast = true ∧ s.multicast.ttl ≠ 0) ↔
      s.unicast.unicast = false ∧ (s.multicast.multicast = false ∨ s.multicast.ttl = 0) := by
    cases s.unicast.unicast <;> cases s.multicast.multicast <;> simp
  rw [← hneither]
  constructor
  · intro h
    have hfits := (exists_port_iff s).1 (exists_port_of_result (.inr h))
    rw [result_resolve_of_portFits hfits] at h
    refine ⟨hfits, ?_⟩
    split at h
    · cases h
    · assumption
  · rintro ⟨hfits, hnone⟩
    rw [result_resolve_of_portFits hfits, if_neg hnone]

/-- From a store whose summary of multicast is right, resolution succeeds exactly if the port causes
no error and an output reaches someone, and then it leaves a coherent store that respects what was
given. It finds no output exactly if the port causes no error and neither output reaches anyone. -/
theorem resolve_guarantee {s : Store}
    (hs : s.multicast.multicast = (s.multicast.ipv4 || s.multicast.ipv6)) :
    (s.resolve.result = .ok () → Coherent s.resolve.store ∧ Respects s s.resolve.store) ∧
    (s.resolve.result = .ok () ↔
      PortFits s ∧
        (s.unicast.unicast = true ∨ s.multicast.multicast = true ∧ s.multicast.ttl ≠ 0)) ∧
    (s.resolve.result = .error .noOutput ↔
      PortFits s ∧ s.unicast.unicast = false ∧
        (s.multicast.multicast = false ∨ s.multicast.ttl = 0)) := by
  refine ⟨fun hok => ?_, result_resolve_eq_ok_iff s, result_resolve_eq_noOutput_iff s⟩
  obtain ⟨t, ht⟩ := exists_port_of_result (.inl hok)
  exact ⟨coherent_resolve ht hs hok, respects_resolve ht⟩

/-- A store in which every rule has something to do. -/
def unsettled : Store where
  tuning := { tuner := 1 }
  autoconf := { mode := .full }
  unicast := { unicast := true, portExpression := some "4000 + %card*10 + %tuner" }
  multicast := { ttl := 0, rtpHeader := true }
  buffering := { dvrBufferSize := 2, maxThreadBufferSize := 10 }
  logging := { file := some "/tmp/dvbzap_%card_%tuner_%server.log" }
  options := { serverId := -3, t2miPid := 4096 }

theorem resolve_guarantee_unsettled :
    unsettled.multicast.multicast = (unsettled.multicast.ipv4 || unsettled.multicast.ipv6) ∧
      unsettled.resolve.result = .ok () ∧ Coherent unsettled.resolve.store ∧
      Respects unsettled unsettled.resolve.store := by
  have hs : unsettled.multicast.multicast =
      (unsettled.multicast.ipv4 || unsettled.multicast.ipv6) := rfl
  have hfine : unsettled.resolve.result.isOk = true := by decide +kernel
  have hok : unsettled.resolve.result = .ok () := by
    cases hr : unsettled.resolve.result with
    | ok _ => rfl
    | error e => rw [hr] at hfine; cases hfine
  exact ⟨hs, hok, (resolve_guarantee hs).1 hok⟩

end Headend.Config
