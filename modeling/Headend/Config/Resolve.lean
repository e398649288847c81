import Headend.Config.Parameters
import Headend.Config.PortExpression
import Headend.Config.Template

/-!
# Resolution of the parameters

When the configuration has been read, what it left open is decided and what contradicts is settled,
by rules in a fixed order: the card, what autoconfiguration needs, the buffers, the templates, and
what the outputs exclude. A port expression that has no port stops the rules where they are.
-/

namespace Headend.Config

open Headend.Number (Binary64)

/-- A rule that always succeeds: the store it leaves and its records. -/
abbrev Rule := Store → Store × List Record

/-- One rule after another. -/
def Rule.andThen (first second : Rule) : Rule := fun s =>
  let (s, r) := first s
  let (s, r') := second s
  (s, r ++ r')

/-! ### The rules -/

/-- The card is the first one unless another was given. -/
def cardRule : Rule := fun s =>
  ({ s with tuning.card := some (s.tuning.card.getD 0) }, [])

/-- Autoconfiguration announces sessions if multicast is on and nothing was said. -/
def announceRule : Rule := fun s =>
  if s.autoconf.enabled && s.sap.sap.isUndefined && s.multicast.multicast then
    ({ s with sap.sap := .on },
      [.info "Autoconfiguration, we activate SAP announces. if you want to disable them see the README."])
  else (s, [])

/-- Autoconfiguration rewrites the table of programs if nothing was said. -/
def patRule : Rule := fun s =>
  if s.autoconf.enabled && s.rewrite.pat.isUndefined then
    ({ s with rewrite.pat := s.rewrite.pat.resolve true },
      [.info "Autoconfiguration, we activate PAT rewriting. if you want to disable it see the README."])
  else (s, [])

/-- Autoconfiguration rewrites the table of services if nothing was said. -/
def sdtRule : Rule := fun s =>
  if s.autoconf.enabled && s.rewrite.sdt.isUndefined then
    ({ s with rewrite.sdt := s.rewrite.sdt.resolve true },
      [.info "Autoconfiguration, we activate SDT rewriting. if you want to disable it see the README."])
  else (s, [])

/-- The smallest buffer, in packets, that holds a frame of a T2-MI stream. -/
def leastT2miBuffer : UInt32 := 20

/-- A T2-MI stream needs a buffer that holds its frames. -/
def t2miRule : Rule := fun s =>
  if s.options.t2miPid > 0 && s.buffering.dvrBufferSize < leastT2miBuffer then
    ({ s with buffering.dvrBufferSize := leastT2miBuffer },
      [.warn s!"Warning : You set a DVR buffer size too low to accept T2-MI frames, I increase your dvr_buffer_size to {leastT2miBuffer.toNat} ..."])
  else (s, [])

/-- The buffer of the reading thread is at least as large as the one of the device. -/
def threadBufferRule : Rule := fun s =>
  if s.buffering.maxThreadBufferSize < s.buffering.dvrBufferSize then
    ({ s with buffering.maxThreadBufferSize := s.buffering.dvrBufferSize },
      [.warn "Warning : You set a thread buffer size lower than your DVR buffer size, it's not possible to use such values. I increase your dvr_thread_buffer_size ..."])
  else (s, [])

/-- With a lifetime of zero no packet reaches a group. -/
def ttlRule : Rule := fun s =>
  if s.multicast.ttl == 0 && s.multicast.multicast then
    ({ s with multicast := { s.multicast with ipv4 := false, ipv6 := false }.refresh },
      [.info "The multicast TTL is set to 0, multicast will be disabled."])
  else (s, [])

/-- Without multicast there is no stream to put a header on. -/
def rtpRule : Rule := fun s =>
  if !s.multicast.multicast && s.multicast.rtpHeader then
    ({ s with multicast.rtpHeader := false }, [.info "NO Multicast, RTP Header is disabled."])
  else (s, [])

/-- Without multicast there is nothing to announce. -/
def silenceRule : Rule := fun s =>
  if !s.multicast.multicast && s.sap.sap.isOn then
    ({ s with sap.sap := .off }, [.info "NO Multicast, SAP announces are disabled."])
  else (s, [])

/-- The rules before the templates. -/
def rulesBefore : Rule :=
  cardRule.andThen <| announceRule.andThen <| patRule.andThen <| sdtRule.andThen <|
    t2miRule.andThen threadBufferRule

/-- The rules after the templates. -/
def rulesAfter : Rule := ttlRule.andThen <| rtpRule.andThen silenceRule

/-! ### The templates -/

/-- The numbers that the templates of a store name. -/
def Store.templateValues (s : Store) : TemplateValues :=
  ⟨s.tuning.card.getD 0, s.tuning.tuner, s.options.serverId⟩

/-- The port of an expression, if it has one. -/
def portOf? (expression : String) : Option UInt16 :=
  match PortExpression.value? expression with
  | some n => if 0 ≤ n ∧ n < UInt16.size then some (UInt16.ofNat n.toNat) else none
  | none => none

/-- Expands the directory of the device. -/
def expandDevicePath (v : TemplateValues) (s : Store) : Store :=
  { s with tuning.cardDevPath := v.expand s.tuning.cardDevPath }

/-- Expands the expression of the port. -/
def expandPortExpression (v : TemplateValues) (s : Store) : Store :=
  { s with unicast.portExpression := s.unicast.portExpression.map v.expand }

/-- Sets the port to the value of its expression. An expression without a port is an error. -/
def evaluatePort (s : Store) : Except ConfigError Store :=
  match s.unicast.portExpression with
  | none => .ok s
  | some e =>
    match portOf? e with
    | some p => .ok { s with unicast.port := some p }
    | none => .error (.badValue "port_http" e)

/-- Expands the paths of the log file and of the file for the process id. -/
def expandFiles (v : TemplateValues) (s : Store) : Store :=
  { s with
    logging.file := s.logging.file.map v.expand
    options.pidFile := v.expand s.options.pidFile }

/-! ### All rules -/

/-- What resolution did: whether it succeeded, the store it leaves, and the records. -/
structure Resolved where
  result : Except ConfigError Unit
  store : Store
  records : List Record

/-- Whether one of the outputs is on. -/
def Store.hasOutput (s : Store) : Bool := s.multicast.multicast || s.unicast.unicast

/-- Resolves the parameters of a store. -/
def Store.resolve (s : Store) : Resolved :=
  let (s, before) := rulesBefore s
  let v := s.templateValues
  let s := expandPortExpression v (expandDevicePath v s)
  match evaluatePort s with
  | .error e => ⟨.error e, s, before⟩
  | .ok s =>
    let (s, after) := rulesAfter (expandFiles v s)
    ⟨if s.hasOutput then .ok () else .error .noOutput, s, before ++ after⟩

end Headend.Config
