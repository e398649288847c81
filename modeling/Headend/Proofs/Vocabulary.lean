import Headend.Proofs.Directives

/-!
# The vocabulary of the configuration

The keywords of each section with what they stand for. The program of each section carries out
exactly what its vocabulary says, whatever the keyword: a section that does not own a keyword leaves
it, the line and the draft as they are.

Facts: `keywords_nodup` (no two entries of the vocabulary share a keyword), `Section.recognize_eq`
(the program of a section follows its vocabulary).
-/

namespace Headend.Config

/-- Keywords with what they stand for. -/
abbrev Vocabulary := List (String × Directive)

/-- Carries out what a keyword stands for; a keyword that is not in the vocabulary passes. -/
def Vocabulary.recognize (v : Vocabulary) : Recognizer Recognized := do
  match v.lookup (← Recognizer.keyword) with
  | some d => d.recognize
  | none => return .notMine

open Reader Recognizer

/-! ### Programs that follow a vocabulary -/

section

variable {v : Vocabulary} {k : String} {r : Recognizer Recognized} {d : Directive}

theorem keyword_bind (f : String → Recognizer α) (k : String) : (keyword >>= f) k = f k k := rfl

theorem keyword_under (q : Recognizer α) (f : α → String → Recognizer β) (k : String) :
    (q >>= fun a => keyword >>= f a) k = (q >>= fun a => f a k) k := rfl

/-- A program stands for the entry of a keyword. -/
theorem stands (hr : r = d.recognize) (h : v.lookup k = some d) : r k = v.recognize k := by
  rw [hr, Vocabulary.recognize, keyword_bind, h]

/-- A program that passes stands for a keyword that is not in the vocabulary. -/
theorem passes (h : v.lookup k = none) :
    (pure .notMine : Recognizer Recognized) k = v.recognize k := by
  rw [Vocabulary.recognize, keyword_bind, h]

end

/-! ### Tuning -/

/-- A directive of the tuning part. -/
def tuningDirective (read : Reader (Change Tuning)) : Directive := .parameter .tuning read

/-- A directive of the converter's settings. -/
def lnbDirective (read : Reader v) (put : v → Lnb → Lnb) : Directive :=
  tuningDirective (set read fun v t => { t with lnb := put v t.lnb })

/-- Frequency, polarization, converter and device. -/
def tuningVocabulary : Vocabulary := [
  ("freq", tuningDirective (set float fun v t => { t with freq := v })),
  ("pol", tuningDirective (set (named Polarization.ofName?) fun v t => { t with pol := some v })),
  ("polarization",
    tuningDirective (set (named Polarization.ofName?) fun v t => { t with pol := some v })),
  ("srate", tuningDirective (set uint fun v t => { t with srate := v })),
  ("card", tuningDirective (set uint fun v t => { t with card := some v })),
  ("tuner", tuningDirective (set uint fun v t => { t with tuner := v })),
  ("card_dev_path", tuningDirective (setPath fun v t => { t with cardDevPath := v })),
  ("tuning_timeout", tuningDirective (set uint fun v t => { t with tuningTimeout := v })),
  ("delivery_system",
    tuningDirective (set (named DeliverySystem.ofName?) fun v t =>
      { t with deliverySystem := some v })),
  ("modulation", tuningDirective (set word fun v t => { t with modulation := some v })),
  ("bandwidth", tuningDirective (set uint fun v t => { t with bandwidth := v })),
  ("lnb_type", lnbDirective (named LnbKind.ofName?) fun v l => { l with kind := v }),
  ("lnb_lof_standard", lnbDirective uint fun v l => { l with lofStandard := v }),
  ("lnb_slof", lnbDirective uint fun v l => { l with slof := v }),
  ("lnb_lof_low", lnbDirective uint fun v l => { l with lofLow := v }),
  ("lnb_lof_high", lnbDirective uint fun v l => { l with lofHigh := v }),
  ("lnb_voltage_off", lnbDirective flag fun v l => { l with voltageOff := v }),
  ("sat_number",
    tuningDirective (set (uint8 greatestPosition) fun v t => { t with satNumber := v })),
  ("read_file_path", tuningDirective (setPath fun v t => { t with readFilePath := some v }))]

theorem tuningSection_eq : tuningSection = tuningVocabulary.recognize := by
  funext k
  simp only [tuningSection, assign_handled, assignPath_handled, keyword_bind]
  split
  case h_20 => exact passes (by simp_all [tuningVocabulary])
  all_goals exact stands rfl rfl

/-- A directive of the autoconfiguration part. -/
def autoconfDirective (read : Reader (Change Autoconf)) : Directive := .parameter .autoconf read

/-- Which channels are found by themselves, and their names. -/
def autoconfVocabulary : Vocabulary := [
  ("autoconfiguration",
    autoconfDirective (setSaying (named AutoconfMode.ofName?) (fun v a => { a with mode := v })
      autoconfRecords)),
  ("autoconf_radios", autoconfDirective (set flag fun v a => { a with radios := v })),
  ("autoconf_scrambled", autoconfDirective (set flag fun v a => { a with scrambled := v })),
  ("autoconf_pid_update", autoconfDirective (set flag fun v a => { a with pidUpdate := v })),
  ("autoconf_ip4", autoconfDirective (set word fun v a => { a with ip4Template := v })),
  ("autoconf_name_template",
    autoconfDirective (set whole fun v a => { a with nameTemplate := some v })),
  ("autoconf_sid_list", autoconfDirective (set serviceList fun v a => { a with sidList := v }))]

theorem autoconfSection_eq : autoconfSection = autoconfVocabulary.recognize := by
  funext k
  simp only [autoconfSection, assign_handled, keyword_bind]
  split
  case h_1 => exact stands (assign_say_handled fun s v => rfl) rfl
  case h_8 => exact passes (by simp_all [autoconfVocabulary])
  all_goals exact stands rfl rfl

/-- A directive of the announcement part. -/
def sapDirective (read : Reader (Change Sap)) : Directive := .parameter .sap read

/-- A directive about the open channel. -/
def channelDirective (read : Reader (Change Channel)) : Directive := .channel [] read

/-- The announcements, and the group of a channel. -/
def sapVocabulary : Vocabulary := [
  ("sap_group", channelDirective (set word fun v c => { c with sapGroup := some v })),
  ("sap", sapDirective (set tristate fun v s => { s with sap := v })),
  ("sap_organisation", sapDirective (set whole fun v s => { s with organisation := v })),
  ("sap_uri", sapDirective (set word fun v s => { s with uri := some v })),
  ("sap_sending_ip", sapDirective (set word fun v s => { s with sendingIp := v })),
  ("sap_interval", sapDirective (set uint fun v s => { s with interval := v })),
  ("sap_default_group", sapDirective (set word fun v s => { s with defaultGroup := some v })),
  ("sap_ttl", sapDirective (set uint fun v s => { s with ttl := v }))]

theorem sapSection_eq : sapSection = sapVocabulary.recognize := by
  funext k
  simp only [sapSection, assign_handled, assignChannel_handled, keyword_bind]
  split
  case isTrue h => subst h; exact stands rfl rfl
  case isFalse h =>
    rw [keyword_bind]
    split
    case h_8 => exact passes (by simp_all [sapVocabulary])
    all_goals exact stands rfl rfl

/-- A directive of the part for the hardware module. -/
def camDirective (read : Reader (Change Cam)) : Directive := .parameter .cam read

/-- The hardware module for conditional access. -/
def camVocabulary : Vocabulary := [
  ("cam_support", camDirective (setSaying flag (fun v c => { c with support := v }) camRecords)),
  ("cam_number", camDirective (set uint fun v c => { c with number := v })),
  ("cam_reset_interval", camDirective (set uint fun v c => { c with resetInterval := v })),
  ("cam_delay_pmt_send", camDirective (set uint fun v c => { c with delayPmtSend := v }))]

theorem camSection_eq : camSection = camVocabulary.recognize := by
  funext k
  simp only [camSection, assign_handled, keyword_bind]
  split
  case h_1 => exact stands (assign_say_handled fun s v => rfl) rfl
  case h_5 => exact passes (by simp_all [camVocabulary])
  all_goals exact stands rfl rfl

/-- A directive about the descrambling of the open channel. -/
def channelScamDirective (read : Reader v) (put : v → ChannelScam → ChannelScam) : Directive :=
  channelDirective (set read fun v c => { c with scam := put v c.scam })

/-- A directive of the part for descrambling in software. -/
def scamDirective (read : Reader (Change Scam)) : Directive := .parameter .scam read

/-- Descrambling in software, of a channel and by default. -/
def scamVocabulary : Vocabulary := [
  ("oscam", channelScamDirective flag fun v s => { s with oscam := v }),
  ("ring_buffer_size", channelScamDirective uint fun v s => { s with ringBufferSize := some v }),
  ("decsa_delay", channelScamDirective uint fun v s => { s with decsaDelay := some v }),
  ("send_delay", channelScamDirective uint fun v s => { s with sendDelay := some v }),
  ("scam_support", scamDirective (set flag fun v s => { s with support := v })),
  ("ring_buffer_default_size",
    scamDirective (set uint fun v s => { s with ringBufferDefaultSize := v })),
  ("decsa_default_delay", scamDirective (set uint fun v s => { s with decsaDefaultDelay := v })),
  ("send_default_delay", scamDirective (set uint fun v s => { s with sendDefaultDelay := v }))]

theorem scamSection_eq : scamSection = scamVocabulary.recognize := by
  funext k
  simp only [scamSection, assign_handled, keyword_bind]
  split
  case h_9 => exact passes (by simp_all [scamVocabulary])
  case h_1 | h_2 | h_3 | h_4 =>
    rw [keyword_under]
    exact stands (assignEntry_handled _ _) rfl
  all_goals exact stands rfl rfl

/-- A directive of the part for output over HTTP. -/
def unicastDirective (read : Reader (Change Unicast)) : Directive := .parameter .unicast read

/-- Output over HTTP, and the port of a channel. -/
def unicastVocabulary : Vocabulary := [
  ("unicast_port", channelDirective (set uint16 fun v c => { c with unicastPort := some v })),
  ("unicast", unicastDirective (set flag fun v u => { u with unicast := v })),
  ("ip_http", unicastDirective (set word fun v u => { u with ipHttp := v })),
  ("port_http", unicastDirective (set expression fun v u => { u with portExpression := some v })),
  ("unicast_max_clients", unicastDirective (set uint fun v u => { u with maxClients := v })),
  ("unicast_consecutive_errors_timeout",
    unicastDirective (set uint fun v u => { u with consecutiveErrorsTimeout := v })),
  ("unicast_queue_size", unicastDirective (set uint fun v u => { u with queueSize := v }))]

theorem unicastSection_eq : unicastSection = unicastVocabulary.recognize := by
  funext k
  simp only [unicastSection, assign_handled, assignChannel_handled, keyword_bind]
  split
  case isTrue h => subst h; exact stands rfl rfl
  case isFalse h =>
    rw [keyword_bind]
    split
    case h_7 => exact passes (by simp_all [unicastVocabulary])
    all_goals exact stands rfl rfl

/-- A directive of the part for multicast output. -/
def multicastDirective (read : Reader (Change Multicast)) : Directive :=
  .parameter .multicast read

/-- Output to multicast groups, and the address of a channel. -/
def multicastVocabulary : Vocabulary := [
  ("ip", channelDirective (set word fun v c => { c with ip4 := some v })),
  ("ip4", channelDirective (set word fun v c => { c with ip4 := some v })),
  ("ip6", channelDirective (set word fun v c => { c with ip6 := some v })),
  ("port", channelDirective (set uint16 fun v c => { c with port := some v })),
  ("multicast", multicastDirective (set flag fun v m => { m with ipv4 := v }.refresh)),
  ("multicast_ipv4", multicastDirective (set flag fun v m => { m with ipv4 := v }.refresh)),
  ("multicast_ipv6", multicastDirective (set flag fun v m => { m with ipv6 := v }.refresh)),
  ("multicast_ttl", multicastDirective (set uint fun v m => { m with ttl := v })),
  ("multicast_auto_join", multicastDirective (set flag fun v m => { m with autoJoin := v })),
  ("rtp_header", multicastDirective (set flag fun v m => { m with rtpHeader := v })),
  ("multicast_iface4", multicastDirective (set word fun v m => { m with iface4 := some v })),
  ("multicast_iface6", multicastDirective (set word fun v m => { m with iface6 := some v })),
  ("common_port", multicastDirective (set uint16 fun v m => { m with commonPort := v }))]

theorem multicastSection_eq : multicastSection = multicastVocabulary.recognize := by
  funext k
  simp only [multicastSection, assign_handled, assign_change_handled, assignChannel_handled,
    keyword_bind]
  split
  case h_5 =>
    rw [keyword_bind]
    split
    case h_10 => exact passes (by simp_all [multicastVocabulary])
    all_goals exact stands rfl rfl
  all_goals exact stands rfl rfl

/-- A directive of the part for rewriting. -/
def rewriteDirective (read : Reader (Change Rewrite)) : Directive := .parameter .rewrite read

/-- The tables that are rewritten. -/
def rewriteVocabulary : Vocabulary := [
  ("rewrite_pat", rewriteDirective (set tristate fun v r => { r with pat := v })),
  ("rewrite_sdt", rewriteDirective (set tristate fun v r => { r with sdt := v })),
  ("rewrite_eit", rewriteDirective (set flag fun v r => { r with eit := v })),
  ("sdt_force_eit", rewriteDirective (set flag fun v r => { r with sdtForceEit := v }))]

theorem rewriteSection_eq : rewriteSection = rewriteVocabulary.recognize := by
  funext k
  simp only [rewriteSection, assign_handled, keyword_bind]
  split
  case h_5 => exact passes (by simp_all [rewriteVocabulary])
  all_goals exact stands rfl rfl

/-- A directive of the logging part. -/
def loggingDirective (read : Reader (Change Logging)) : Directive := .parameter .logging read

/-- The log and its reports. -/
def loggingVocabulary : Vocabulary := [
  ("log_type",
    loggingDirective (setSaying (named LogTarget.ofName?) (fun v l => { l with target := v })
      targetRecords)),
  ("log_header", loggingDirective (set flag fun v l => { l with header := v })),
  ("log_flush_interval", loggingDirective (set float fun v l => { l with flushInterval := v })),
  ("log_file", loggingDirective (setPath fun v l => { l with file := some v })),
  ("show_traffic_interval",
    loggingDirective (set uint fun v l => { l with showTrafficInterval := v })),
  ("compute_traffic_interval",
    loggingDirective (set uint fun v l => { l with computeTrafficInterval := v }))]

theorem loggingSection_eq : loggingSection = loggingVocabulary.recognize := by
  funext k
  simp only [loggingSection, assign_handled, assignPath_handled, keyword_bind]
  split
  case h_1 => exact stands (assign_say_handled fun s v => rfl) rfl
  case h_7 => exact passes (by simp_all [loggingVocabulary])
  all_goals exact stands rfl rfl

/-- A directive of the remaining options. -/
def optionsDirective (read : Reader (Change Options)) : Directive := .parameter .options read

/-- A directive of the buffering part. -/
def bufferingDirective (read : Reader (Change Buffering)) : Directive := .parameter .buffering read

/-- Sets the filtering of tables; a name that is none is passed over with a warning. -/
def setFiltering : Reader (Change Options) := do
  let raw ← word
  match TableFiltering.ofName? raw with
  | some mode => return fun o => ({ o with tableFiltering := mode }, filteringRecords mode)
  | none => return fun o => (o, unknownFiltering raw :: filteringRecords o.tableFiltering)

theorem filterTables_handled :
    (do filterTables; return .handled) = (optionsDirective setFiltering).recognize := by
  let made (raw : String) : Change Options := fun o =>
    match TableFiltering.ofName? raw with
    | some mode => ({ o with tableFiltering := mode }, filteringRecords mode)
    | none => (o, unknownFiltering raw :: filteringRecords o.tableFiltering)
  have hset : setFiltering = (do let raw ← word; return made raw) := by
    refine bind_congr fun raw => ?_
    dsimp only [made]
    cases TableFiltering.ofName? raw <;> rfl
  rw [hset, filterTables, bind_assoc]
  refine read_parameter fun raw keyword ctx => ?_
  dsimp only [made]
  cases TableFiltering.ofName? raw with
  | some mode => rfl
  | none =>
    simp only [Recognizer.run_bind, run_say, run_store, Recognizer.run_pure, List.append_assoc,
      List.singleton_append, Store.setPart_part]
    rfl

/-- Sets the service of a channel. -/
def setService : Reader (Change Channel) := set uint16 fun v c => { c with serviceId := some v }

/-- Channels with their services, and the options of the process. -/
def mainVocabulary : Vocabulary := [
  ("new_channel", .openChannel),
  ("timeout_no_diff", optionsDirective (set uint fun v o => { o with timeoutNoDiff := v })),
  ("tuning_no_diff", optionsDirective (set uint fun v o => { o with tuningNoDiff := v })),
  ("dont_send_scrambled",
    optionsDirective (set flag fun v o => { o with dontSendScrambled := v })),
  ("filter_transport_error",
    optionsDirective (set flag fun v o => { o with filterTransportError := v })),
  ("psi_tables_filtering", optionsDirective setFiltering),
  ("dvr_buffer_size",
    bufferingDirective (setSaying int
      (fun n b => { b with dvrBufferSize := bufferSize n, showBufferStats := true })
      bufferRecords)),
  ("dvr_thread",
    bufferingDirective (setSaying flag (fun v b => { b with threadedRead := v }) threadRecords)),
  ("dvr_thread_buffer_size",
    bufferingDirective (set uint fun v b => { b with maxThreadBufferSize := v })),
  ("service_id", channelDirective setService),
  ("ts_id",
    .channel [.warn "The option ts_id is depreciated, use service_id instead."] setService),
  ("pids",
    channelDirective (set pidList fun v c =>
      { c with pids := v, pidsUserSet := true, pmtRewrite := true })),
  ("pmt_pid", channelDirective (set pmtPid fun v c => { c with pmtPid := some v })),
  ("name",
    channelDirective (setSaying whole
      (fun v c => { c with name := cutName v, userName := cutName v, nameUserSet := true })
      nameRecords)),
  ("server_id", optionsDirective (set int fun v o => { o with serverId := v })),
  ("filename_pid", optionsDirective (setPath fun v o => { o with pidFile := v })),
  ("check_cc", optionsDirective (set flag fun v o => { o with checkCc := v })),
  ("t2mi_pid",
    optionsDirective (setSaying int (fun n o => { o with t2miPid := t2miPid n }) t2miRecords)),
  ("t2mi_plp", optionsDirective (set (uint8 255) fun v o => { o with t2miPlp := v }))]

theorem mainSection_eq : mainSection = mainVocabulary.recognize := by
  funext k
  simp only [mainSection, assign_handled, assignPath_handled, assignChannel_handled, change_change,
    openChannel_handled, filterTables_handled, say_change_handled, say_changeChannel_handled,
    keyword_bind]
  split
  case h_10 =>
    rw [keyword_bind, if_neg (by decide)]
    exact stands rfl rfl
  case h_11 =>
    rw [keyword_bind, if_pos rfl]
    exact stands (say_channel _ _) rfl
  case h_20 => exact passes (by simp_all [mainVocabulary])
  all_goals exact stands rfl rfl

/-! ### Sections -/

namespace Section

/-- The keywords of a section. -/
def vocabulary : Section → Vocabulary
  | tuning => tuningVocabulary
  | autoconf => autoconfVocabulary
  | sap => sapVocabulary
  | cam => camVocabulary
  | scam => scamVocabulary
  | unicast => unicastVocabulary
  | multicast => multicastVocabulary
  | rewrite => rewriteVocabulary
  | logging => loggingVocabulary
  | main => mainVocabulary

/-- What a keyword stands for in a section, if the section owns it. -/
def directive? (s : Section) (keyword : String) : Option Directive :=
  s.vocabulary.lookup keyword

/-- The keywords of all sections. -/
def keywords : List String := all.flatMap fun s => s.vocabulary.map (·.1)

theorem keywords_nodup : keywords.Nodup := by decide +kernel

theorem mem_keys_iff {s : Section} {k : String} :
    k ∈ s.vocabulary.map (·.1) ↔ ∃ d, s.directive? k = some d := by
  unfold directive?
  rw [← Option.isSome_iff_exists, List.lookup_isSome_iff, List.mem_map]
  refine exists_congr fun entry => and_congr_right fun _ => ?_
  rw [beq_iff_eq, eq_comm]

/-- The program of a section follows its vocabulary. -/
theorem recognize_eq (s : Section) : s.recognize = s.vocabulary.recognize := by
  cases s with
  | tuning => exact tuningSection_eq
  | autoconf => exact autoconfSection_eq
  | sap => exact sapSection_eq
  | cam => exact camSection_eq
  | scam => exact scamSection_eq
  | unicast => exact unicastSection_eq
  | multicast => exact multicastSection_eq
  | rewrite => exact rewriteSection_eq
  | logging => exact loggingSection_eq
  | main => exact mainSection_eq

variable {s : Section} {k : String}

theorem recognize_of_directive {d : Directive} (h : s.directive? k = some d) (ctx : Context) :
    s.recognize.run k ctx = d.recognize.run k ctx := by
  rw [recognize_eq]
  exact congrFun (stands rfl h).symm ctx

theorem recognize_of_no_directive (h : s.directive? k = none) (ctx : Context) :
    s.recognize.run k ctx = .ok .notMine ctx := by
  rw [recognize_eq]
  exact congrFun (passes h).symm ctx

/-- A section passes exactly the keywords that are not in its vocabulary, and leaves no trace. -/
theorem notMine_iff {ctx ctx' : Context} :
    s.recognize.run k ctx = .ok .notMine ctx' ↔ s.directive? k = none ∧ ctx' = ctx := by
  cases hd : s.directive? k with
  | none =>
    rw [recognize_of_no_directive hd]
    simp [eq_comm]
  | some d =>
    rw [recognize_of_directive hd]
    simp [d.recognize_ne_notMine]

end Section

/-! ### Lines -/

/-- The first section of a chain that owns a keyword, and what the keyword stands for. -/
def owner? (chain : List Section) (keyword : String) : Option (Section × Directive) :=
  chain.findSome? fun s => (s.directive? keyword).map (s, ·)

/-- Asking in turn finds the owner of the keyword, and no other section has left a trace. -/
theorem ask_eq (chain : List Section) (k : String) (ctx : Context) :
    (ask chain).run k ctx =
      match owner? chain k with
      | none => .ok .unknown ctx
      | some (s, d) =>
        match d.recognize.run k ctx with
        | .ok _ left => .ok (.handled s) left
        | .error e left => .error e left := by
  induction chain with
  | nil => rfl
  | cons s rest ih =>
    simp only [ask, Recognizer.run_bind, owner?, List.findSome?_cons]
    cases hd : s.directive? k with
    | none =>
      rw [Section.recognize_of_no_directive hd]
      exact ih
    | some d =>
      rw [Section.recognize_of_directive hd]
      simp only [Recognizer.run, Directive.recognize, Option.map_some]
      cases (d.apply k ctx.draft ctx.left).result <;> rfl

/-- A line goes to the owner of its keyword, wherever it stands in the chain. -/
theorem dispatch_eq (chain : List Section) (draft : Draft) (raw : String) :
    dispatch chain draft raw =
      match directiveLine? (stripEnds raw.toList) with
      | none => ⟨.ok .skipped, draft, []⟩
      | some (keyword, rest) =>
        match owner? chain keyword with
        | none => ⟨.ok .unknown, draft, unknownRecords (stripEnds raw.toList) keyword⟩
        | some (s, d) =>
          match (d.apply keyword draft rest).result with
          | .ok draft' => ⟨.ok (.handled s), draft', (d.apply keyword draft rest).records⟩
          | .error e => ⟨.error e, draft, (d.apply keyword draft rest).records⟩ := by
  unfold dispatch
  dsimp only
  cases directiveLine? (stripEnds raw.toList) with
  | none => rfl
  | some r =>
    obtain ⟨keyword, rest⟩ := r
    dsimp only
    rw [ask_eq]
    cases owner? chain keyword with
    | none => rfl
    | some found =>
      obtain ⟨s, d⟩ := found
      simp only [Recognizer.run, Directive.recognize]
      cases (d.apply keyword draft rest).result <;> rfl

end Headend.Config
