import Headend.Config.Recognizer

/-!
# The sections of the configuration

Each section recognizes the keywords of its part of the configuration and carries out what they
stand for. A section answers `notMine` to any other keyword, and the line goes on to the next one.
-/

namespace Headend.Config

/-- The sections of the configuration. -/
inductive Section where
  | tuning | autoconf | sap | cam | scam | unicast | multicast | rewrite | logging | main
deriving DecidableEq

namespace Section

/-- The name of a section in the log. -/
def tag : Section → String
  | tuning => "Tune"
  | autoconf => "Autoconf"
  | sap => "SAP"
  | cam => "CAM"
  | scam => "SCAM"
  | unicast => "Unicast"
  | multicast => "Multicast"
  | rewrite => "Rewrite"
  | logging => "Logging"
  | main => "Main"

/-- All sections, in the order in which they are asked. -/
def all : List Section :=
  [tuning, autoconf, sap, cam, scam, unicast, multicast, rewrite, logging, main]

end Section

/-- The keyword that opens a channel. It may stand without a value. -/
def newChannel : String := "new_channel"

open Reader Recognizer

/-! ### Tuning -/

/-- The highest position of the satellite switch. -/
def greatestPosition : Nat := 4

/-- Frequency, polarization, converter and device. -/
def tuningSection : Recognizer Recognized := do
  match ← keyword with
  | "freq" => assign .tuning float fun v t => { t with freq := v }
  | "pol" | "polarization" =>
    assign .tuning (named Polarization.ofName?) fun v t => { t with pol := some v }
  | "srate" => assign .tuning uint fun v t => { t with srate := v }
  | "card" => assign .tuning uint fun v t => { t with card := some v }
  | "tuner" => assign .tuning uint fun v t => { t with tuner := v }
  | "card_dev_path" => assignPath .tuning fun v t => { t with cardDevPath := v }
  | "tuning_timeout" => assign .tuning uint fun v t => { t with tuningTimeout := v }
  | "delivery_system" =>
    assign .tuning (named DeliverySystem.ofName?) fun v t => { t with deliverySystem := some v }
  | "modulation" => assign .tuning word fun v t => { t with modulation := some v }
  | "bandwidth" => assign .tuning uint fun v t => { t with bandwidth := v }
  | "lnb_type" => assign .tuning (named LnbKind.ofName?) fun v t => { t with lnb.kind := v }
  | "lnb_lof_standard" => assign .tuning uint fun v t => { t with lnb.lofStandard := v }
  | "lnb_slof" => assign .tuning uint fun v t => { t with lnb.slof := v }
  | "lnb_lof_low" => assign .tuning uint fun v t => { t with lnb.lofLow := v }
  | "lnb_lof_high" => assign .tuning uint fun v t => { t with lnb.lofHigh := v }
  | "lnb_voltage_off" => assign .tuning flag fun v t => { t with lnb.voltageOff := v }
  | "sat_number" =>
    assign .tuning (uint8 greatestPosition) fun v t => { t with satNumber := v }
  | "read_file_path" => assignPath .tuning fun v t => { t with readFilePath := some v }
  | _ => return .notMine
  return .handled

/-! ### Autoconfiguration -/

/-- The records of choosing a mode of autoconfiguration. -/
def autoconfRecords : AutoconfMode → List Record
  | .full => [.info "Full autoconfiguration, we activate SAP announces if multicast is on"]
  | .none => []

/-- A list of service identifiers. -/
def serviceList : Reader (List UInt16) :=
  fold (fun sids raw => do return sids ++ [← orBad raw (uint16? raw)]) []

/-- Which channels are found by themselves, and their names. -/
def autoconfSection : Recognizer Recognized := do
  match ← keyword with
  | "autoconfiguration" =>
    assign .autoconf (named AutoconfMode.ofName?) fun v a => { a with mode := v }
    say (autoconfRecords (← store).autoconf.mode)
  | "autoconf_radios" => assign .autoconf flag fun v a => { a with radios := v }
  | "autoconf_scrambled" => assign .autoconf flag fun v a => { a with scrambled := v }
  | "autoconf_pid_update" => assign .autoconf flag fun v a => { a with pidUpdate := v }
  | "autoconf_ip4" => assign .autoconf word fun v a => { a with ip4Template := v }
  | "autoconf_name_template" =>
    assign .autoconf whole fun v a => { a with nameTemplate := some v }
  | "autoconf_sid_list" => assign .autoconf serviceList fun v a => { a with sidList := v }
  | _ => return .notMine
  return .handled

/-! ### Announcements -/

/-- The group of a channel, and the announcements. -/
def sapSection : Recognizer Recognized := do
  if (← keyword) = "sap_group" then
    assignChannel word fun v c => { c with sapGroup := some v }
    return .handled
  match ← keyword with
  | "sap" => assign .sap tristate fun v s => { s with sap := v }
  | "sap_organisation" => assign .sap whole fun v s => { s with organisation := v }
  | "sap_uri" => assign .sap word fun v s => { s with uri := some v }
  | "sap_sending_ip" => assign .sap word fun v s => { s with sendingIp := v }
  | "sap_interval" => assign .sap uint fun v s => { s with interval := v }
  | "sap_default_group" => assign .sap word fun v s => { s with defaultGroup := some v }
  | "sap_ttl" => assign .sap uint fun v s => { s with ttl := v }
  | _ => return .notMine
  return .handled

/-! ### Conditional access -/

/-- The records of switching the hardware module on or off. -/
def camRecords (on : Bool) : List Record :=
  if on then
    [.info "You have enabled the support for conditional access modules (scrambled channels)"]
  else []

/-- The hardware module for conditional access. -/
def camSection : Recognizer Recognized := do
  match ← keyword with
  | "cam_support" =>
    assign .cam flag fun v c => { c with support := v }
    say (camRecords (← store).cam.support)
  | "cam_number" => assign .cam uint fun v c => { c with number := v }
  | "cam_reset_interval" => assign .cam uint fun v c => { c with resetInterval := v }
  | "cam_delay_pmt_send" => assign .cam uint fun v c => { c with delayPmtSend := v }
  | _ => return .notMine
  return .handled

/-- Descrambling in software, of a channel and by default. -/
def scamSection : Recognizer Recognized := do
  match ← keyword with
  | "oscam" | "ring_buffer_size" | "decsa_delay" | "send_delay" =>
    let i ← openedIndex
    match ← keyword with
    | "oscam" => assignEntry i flag fun v c => { c with scam.oscam := v }
    | "ring_buffer_size" => assignEntry i uint fun v c => { c with scam.ringBufferSize := some v }
    | "decsa_delay" => assignEntry i uint fun v c => { c with scam.decsaDelay := some v }
    | _ => assignEntry i uint fun v c => { c with scam.sendDelay := some v }
  | "scam_support" => assign .scam flag fun v s => { s with support := v }
  | "ring_buffer_default_size" => assign .scam uint fun v s => { s with ringBufferDefaultSize := v }
  | "decsa_default_delay" => assign .scam uint fun v s => { s with decsaDefaultDelay := v }
  | "send_default_delay" => assign .scam uint fun v s => { s with sendDefaultDelay := v }
  | _ => return .notMine
  return .handled

/-! ### Output -/

/-- An expression, which may be written with blanks anywhere. -/
def expression : Reader String :=
  return String.ofList (Text.dropBlanks (← whole).toList)

/-- The port of a channel, and output over HTTP. -/
def unicastSection : Recognizer Recognized := do
  if (← keyword) = "unicast_port" then
    assignChannel uint16 fun v c => { c with unicastPort := some v }
    return .handled
  match ← keyword with
  | "unicast" => assign .unicast flag fun v u => { u with unicast := v }
  | "ip_http" => assign .unicast word fun v u => { u with ipHttp := v }
  | "port_http" => assign .unicast expression fun v u => { u with portExpression := some v }
  | "unicast_max_clients" => assign .unicast uint fun v u => { u with maxClients := v }
  | "unicast_consecutive_errors_timeout" =>
    assign .unicast uint fun v u => { u with consecutiveErrorsTimeout := v }
  | "unicast_queue_size" => assign .unicast uint fun v u => { u with queueSize := v }
  | _ => return .notMine
  return .handled

/-- The address of a channel, and output to multicast groups. -/
def multicastSection : Recognizer Recognized := do
  match ← keyword with
  | "ip" | "ip4" =>
    assignChannel word fun v c => { c with ip4 := some v }
    return .handled
  | "ip6" =>
    assignChannel word fun v c => { c with ip6 := some v }
    return .handled
  | "port" =>
    assignChannel uint16 fun v c => { c with port := some v }
    return .handled
  | _ => pure ()
  match ← keyword with
  | "multicast" | "multicast_ipv4" =>
    assign .multicast flag fun v m => { m with ipv4 := v }
    change .multicast Multicast.refresh
  | "multicast_ipv6" =>
    assign .multicast flag fun v m => { m with ipv6 := v }
    change .multicast Multicast.refresh
  | "multicast_ttl" => assign .multicast uint fun v m => { m with ttl := v }
  | "multicast_auto_join" => assign .multicast flag fun v m => { m with autoJoin := v }
  | "rtp_header" => assign .multicast flag fun v m => { m with rtpHeader := v }
  | "multicast_iface4" => assign .multicast word fun v m => { m with iface4 := some v }
  | "multicast_iface6" => assign .multicast word fun v m => { m with iface6 := some v }
  | "common_port" => assign .multicast uint16 fun v m => { m with commonPort := v }
  | _ => return .notMine
  return .handled

/-! ### Rewriting -/

/-- The tables that are rewritten. -/
def rewriteSection : Recognizer Recognized := do
  match ← keyword with
  | "rewrite_pat" => assign .rewrite tristate fun v r => { r with pat := v }
  | "rewrite_sdt" => assign .rewrite tristate fun v r => { r with sdt := v }
  | "rewrite_eit" => assign .rewrite flag fun v r => { r with eit := v }
  | "sdt_force_eit" => assign .rewrite flag fun v r => { r with sdtForceEit := v }
  | _ => return .notMine
  return .handled

/-! ### Log -/

/-- The records of choosing a target of the log. -/
def targetRecords : LogTarget → List Record
  | .syslog => [.warn "syslog output is not available, logging to the console"]
  | _ => []

/-- The log and its reports. -/
def loggingSection : Recognizer Recognized := do
  match ← keyword with
  | "log_type" =>
    assign .logging (named LogTarget.ofName?) fun v l => { l with target := v }
    say (targetRecords (← store).logging.target)
  | "log_header" => assign .logging flag fun v l => { l with header := v }
  | "log_flush_interval" => assign .logging float fun v l => { l with flushInterval := v }
  | "log_file" => assignPath .logging fun v l => { l with file := some v }
  | "show_traffic_interval" => assign .logging uint fun v l => { l with showTrafficInterval := v }
  | "compute_traffic_interval" =>
    assign .logging uint fun v l => { l with computeTrafficInterval := v }
  | _ => return .notMine
  return .handled

/-! ### Channels and the process -/

/-- The records of the filtering that is in force. -/
def filteringRecords : TableFiltering → List Record
  | .patOnly => [.info "You have enabled PSI tables filtering, only PAT will be send"]
  | .patCatOnly => [.info "You have enabled PSI tables filtering, only PAT and CAT will be send"]
  | .none => []

/-- The record of a name that is no filtering. -/
def unknownFiltering (name : String) : Record :=
  .warn s!"psi_tables_filtering : unknown mode {name}, ignored"

/-- Reads a filtering and assigns it. A name that is none keeps the filtering as it is. -/
def filterTables : Recognizer Unit := do
  let raw ← word
  match TableFiltering.ofName? raw with
  | some mode => change .options fun o => { o with tableFiltering := mode }
  | none => say [unknownFiltering raw]
  say (filteringRecords (← store).options.tableFiltering)

/-- The size of a buffer of at least one packet, bounded by 32 bits. -/
def bufferSize (n : Int) : UInt32 :=
  if n ≤ 0 then 1 else UInt32.ofNat (min n.toNat (UInt32.size - 1))

/-- The records of a size of a buffer. -/
def bufferRecords (n : Int) : List Record :=
  if n ≤ 0 then [.warn "The buffer size MUST be >0, forced to 1 packet"] else []

/-- The records of reading the device from a thread of its own. -/
def threadRecords (on : Bool) : List Record :=
  if on then
    [.warn "You want to use a thread for reading the card, please report bugs/problems"]
  else []

/-- The record of a keyword that has been replaced. -/
def deprecatedRecord : Record :=
  .warn "The option ts_id is depreciated, use service_id instead."

/-- A list of PIDs within their range, fewer than the limit. -/
def pidList : Reader (List UInt16) :=
  fold
    (fun pids raw => do
      let pid := Number.leadingInteger raw
      if pid < leastPid ∨ greatestPid < pid then throw (.pidOutOfRange pid)
      let pids := pids ++ [UInt16.ofNat pid.toNat]
      if maxPids ≤ pids.length then throw (.tooManyPids pids.length (← read).channel)
      return pids)
    []

/-- The PID of a map table within its range. -/
def pmtPid : Reader UInt16 := do
  let pid ← int
  if pid < leastPid ∨ greatestPmtPid < pid then throw (.pmtPidOutOfRange pid)
  return UInt16.ofNat pid.toNat

/-- A name, cut to the size that names may have. -/
def cutName (name : String) : String := String.ofList (Text.takeSize maxNameSize name.toList)

/-- The records of a name; the warning starts at the size that just fits. -/
def nameRecords (name : String) : List Record :=
  if maxNameSize ≤ Text.size name.toList then [.warn "Channel name too long"] else []

/-- The PID of a T2-MI stream for one that is out of range. -/
def fallbackT2miPid : UInt16 := 4096

/-- The PID of a T2-MI stream. -/
def t2miPid (n : Int) : UInt16 :=
  if 1 ≤ n ∧ n ≤ greatestPid then UInt16.ofNat n.toNat else fallbackT2miPid

/-- The records of the PID of a T2-MI stream. -/
def t2miRecords (n : Int) : List Record :=
  .info s!"Demuxing T2-MI stream on pid {n} as input" ::
    if 1 ≤ n ∧ n ≤ greatestPid then []
    else [.warn s!"wrong t2mi pid, forced to {fallbackT2miPid.toNat}"]

/-- Channels with their services, and the options of the process. -/
def mainSection : Recognizer Recognized := do
  match ← keyword with
  | "new_channel" =>
    let i ← openChannel
    say [.info s!"New channel, current number {i}"]
  | "timeout_no_diff" => assign .options uint fun v o => { o with timeoutNoDiff := v }
  | "tuning_no_diff" => assign .options uint fun v o => { o with tuningNoDiff := v }
  | "dont_send_scrambled" => assign .options flag fun v o => { o with dontSendScrambled := v }
  | "filter_transport_error" => assign .options flag fun v o => { o with filterTransportError := v }
  | "psi_tables_filtering" => filterTables
  | "dvr_buffer_size" =>
    let n ← int
    say (bufferRecords n)
    change .buffering fun b => { b with dvrBufferSize := bufferSize n }
    change .buffering fun b => { b with showBufferStats := true }
  | "dvr_thread" =>
    let threaded ← flag
    say (threadRecords threaded)
    change .buffering fun b => { b with threadedRead := threaded }
  | "dvr_thread_buffer_size" =>
    assign .buffering uint fun v b => { b with maxThreadBufferSize := v }
  | "service_id" | "ts_id" =>
    if (← keyword) = "ts_id" then say [deprecatedRecord]
    assignChannel uint16 fun v c => { c with serviceId := some v }
  | "pids" =>
    assignChannel pidList fun v c => { c with pids := v, pidsUserSet := true, pmtRewrite := true }
  | "pmt_pid" => assignChannel pmtPid fun v c => { c with pmtPid := some v }
  | "name" =>
    let i ← openedIndex
    let raw ← whole
    say (nameRecords raw)
    changeChannel i fun c =>
      { c with name := cutName raw, userName := cutName raw, nameUserSet := true }
  | "server_id" => assign .options int fun v o => { o with serverId := v }
  | "filename_pid" => assignPath .options fun v o => { o with pidFile := v }
  | "check_cc" => assign .options flag fun v o => { o with checkCc := v }
  | "t2mi_pid" =>
    let n ← int
    say (t2miRecords n)
    change .options fun o => { o with t2miPid := t2miPid n }
  | "t2mi_plp" => assign .options (uint8 255) fun v o => { o with t2miPlp := v }
  | _ => return .notMine
  return .handled

/-- Asks a section about a line. -/
def Section.recognize : Section → Recognizer Recognized
  | tuning => tuningSection
  | autoconf => autoconfSection
  | sap => sapSection
  | cam => camSection
  | scam => scamSection
  | unicast => unicastSection
  | multicast => multicastSection
  | rewrite => rewriteSection
  | logging => loggingSection
  | main => mainSection

end Headend.Config
