import Headend.Config.Channel
import Headend.Config.Tristate
import Headend.Config.Value
import Headend.Number.Binary64

/-!
# Parameters

The parameters of each part of the process, with the values that hold when the configuration says
nothing, and the store that keeps them together.
-/

namespace Headend.Config

open Headend.Number (Binary64)

/-- The frequencies of a low noise block converter, in MHz, and its supply. -/
structure Lnb where
  kind : LnbKind := .universal
  /-- The oscillator of a standard converter. -/
  lofStandard : UInt32 := 10750
  /-- The frequency from which a universal converter uses its high band. -/
  slof : UInt32 := 11700
  lofLow : UInt32 := 9750
  lofHigh : UInt32 := 10600
  voltageOff : Bool := false
deriving DecidableEq

/-- What to tune to, and on which device. -/
structure Tuning where
  /-- The adapter; open until given or resolved. -/
  card : Option UInt32 := none
  tuner : UInt32 := 0
  /-- The frequency in MHz. -/
  freq : Binary64 := .zero
  pol : Option Polarization := none
  /-- The symbol rate in thousands per second. -/
  srate : UInt32 := 0
  modulation : Option String := none
  /-- The bandwidth of a terrestrial channel in MHz. -/
  bandwidth : UInt32 := 8
  deliverySystem : Option DeliverySystem := none
  /-- The directory of the adapter's devices, as a template. -/
  cardDevPath : String := "/dev/dvb/adapter%card"
  /-- The seconds allowed for tuning; with zero there is no limit. -/
  tuningTimeout : UInt32 := 300
  lnb : Lnb := {}
  /-- The position of the satellite switch, or zero for none. -/
  satNumber : UInt8 := 0
  /-- A recorded stream that takes the place of a device. -/
  readFilePath : Option String := none
deriving DecidableEq

/-- How channels are found by themselves. -/
structure Autoconf where
  mode : AutoconfMode := .none
  radios : Bool := false
  scrambled : Bool := false
  pidUpdate : Bool := true
  ip4Template : String := "239.100.%card.%number"
  nameTemplate : Option String := none
  /-- The services to look for; with none given, all. -/
  sidList : List UInt16 := []
deriving DecidableEq

/-- Whether autoconfiguration is on. -/
def Autoconf.enabled (a : Autoconf) : Bool := a.mode != .none

/-- The announcements of sessions. -/
structure Sap where
  sap : Tristate := .undefined
  organisation : String := "dvbzap"
  uri : Option String := none
  sendingIp : String := "0.0.0.0"
  interval : UInt32 := 5
  defaultGroup : Option String := none
  ttl : UInt32 := 255
deriving DecidableEq

/-- The hardware module for conditional access. -/
structure Cam where
  support : Bool := false
  number : UInt32 := 0
  resetInterval : UInt32 := 30
  delayPmtSend : UInt32 := 0
deriving DecidableEq

/-- Descrambling in software. -/
structure Scam where
  support : Bool := false
  ringBufferDefaultSize : UInt32 := 32768
  decsaDefaultDelay : UInt32 := 500000
  sendDefaultDelay : UInt32 := 1500000
deriving DecidableEq

/-- Output over HTTP. -/
structure Unicast where
  unicast : Bool := false
  ipHttp : String := "0.0.0.0"
  /-- The expression for the port. -/
  portExpression : Option String := none
  /-- The port, once the expression has been evaluated. -/
  port : Option UInt16 := none
  maxClients : UInt32 := 0
  consecutiveErrorsTimeout : UInt32 := 5
  queueSize : UInt32 := 512
deriving DecidableEq

/-- Output to multicast groups. -/
structure Multicast where
  /-- Whether either kind of multicast is on. -/
  multicast : Bool := true
  ipv4 : Bool := true
  ipv6 : Bool := false
  ttl : UInt32 := 2
  autoJoin : Bool := false
  rtpHeader : Bool := false
  iface4 : Option String := none
  iface6 : Option String := none
  commonPort : UInt16 := 1234
deriving DecidableEq

/-- Brings the summary up to date after a change to either kind. -/
def Multicast.refresh (m : Multicast) : Multicast := { m with multicast := m.ipv4 || m.ipv6 }

/-- Which tables of program information are rewritten. -/
structure Rewrite where
  pat : Tristate := .undefined
  sdt : Tristate := .undefined
  eit : Bool := false
  sdtForceEit : Bool := false
deriving DecidableEq

/-- How the stream is read from the device, in packets. -/
structure Buffering where
  dvrBufferSize : UInt32 := 1
  threadedRead : Bool := false
  maxThreadBufferSize : UInt32 := 5000
  showBufferStats : Bool := false
deriving DecidableEq

/-- Where the log goes, and what is reported in it. -/
structure Logging where
  target : LogTarget := .undefined
  header : Bool := true
  /-- The seconds between two flushes of the log file. -/
  flushInterval : Binary64 := .minusOne
  /-- The log file, as a template. -/
  file : Option String := none
  showTrafficInterval : UInt32 := 10
  computeTrafficInterval : UInt32 := 10
deriving DecidableEq

/-- The remaining options of the process. -/
structure Options where
  timeoutNoDiff : UInt32 := 600
  tuningNoDiff : UInt32 := 0
  dontSendScrambled : Bool := false
  filterTransportError : Bool := false
  tableFiltering : TableFiltering := .none
  /-- The server's number in templates. -/
  serverId : Int := 0
  /-- The file for the process id, as a template. -/
  pidFile : String := "/var/run/dvbzap/dvbzap_adapter%card_tuner%tuner.pid"
  checkCc : Bool := false
  /-- The PID of a T2-MI stream, or zero. -/
  t2miPid : UInt16 := 0
  t2miPlp : UInt8 := 0
deriving DecidableEq

/-- All parameters of the process. -/
structure Store where
  tuning : Tuning := {}
  autoconf : Autoconf := {}
  sap : Sap := {}
  cam : Cam := {}
  scam : Scam := {}
  unicast : Unicast := {}
  multicast : Multicast := {}
  rewrite : Rewrite := {}
  buffering : Buffering := {}
  logging : Logging := {}
  options : Options := {}
  channels : ChannelTable := {}
deriving DecidableEq

/-- Equality of two stores by value: the two zeros are the same frequency, and a store that holds
no number differs from itself. -/
def Store.same (a b : Store) : Bool :=
  a.tuning.freq.same b.tuning.freq && a.logging.flushInterval.same b.logging.flushInterval &&
    { a with
      tuning.freq := b.tuning.freq
      logging.flushInterval := b.logging.flushInterval } == b

/-! ### Parts of the store -/

/-- The parts of the store other than the channels. -/
inductive Part where
  | tuning | autoconf | sap | cam | scam | unicast | multicast | rewrite | buffering | logging
  | options
deriving DecidableEq

/-- The parameters of a part. -/
@[reducible] def Part.Params : Part → Type
  | tuning => Tuning
  | autoconf => Autoconf
  | sap => Sap
  | cam => Cam
  | scam => Scam
  | unicast => Unicast
  | multicast => Multicast
  | rewrite => Rewrite
  | buffering => Buffering
  | logging => Logging
  | options => Options

/-- The parameters of a part of a store. -/
def Store.part (s : Store) : (p : Part) → p.Params
  | .tuning => s.tuning
  | .autoconf => s.autoconf
  | .sap => s.sap
  | .cam => s.cam
  | .scam => s.scam
  | .unicast => s.unicast
  | .multicast => s.multicast
  | .rewrite => s.rewrite
  | .buffering => s.buffering
  | .logging => s.logging
  | .options => s.options

/-- A store with other parameters in one part. -/
def Store.setPart (s : Store) : (p : Part) → p.Params → Store
  | .tuning, v => { s with tuning := v }
  | .autoconf, v => { s with autoconf := v }
  | .sap, v => { s with sap := v }
  | .cam, v => { s with cam := v }
  | .scam, v => { s with scam := v }
  | .unicast, v => { s with unicast := v }
  | .multicast, v => { s with multicast := v }
  | .rewrite, v => { s with rewrite := v }
  | .buffering, v => { s with buffering := v }
  | .logging, v => { s with logging := v }
  | .options, v => { s with options := v }

namespace Store

@[simp] theorem part_setPart (s : Store) (p : Part) (v : p.Params) :
    (s.setPart p v).part p = v := by
  cases p <;> rfl

theorem part_setPart_of_ne (s : Store) {p q : Part} (h : q ≠ p) (v : p.Params) :
    (s.setPart p v).part q = s.part q := by
  cases p <;> cases q <;> first | exact absurd rfl h | rfl

@[simp] theorem setPart_part (s : Store) (p : Part) : s.setPart p (s.part p) = s := by
  cases p <;> rfl

@[simp] theorem setPart_setPart (s : Store) (p : Part) (v w : p.Params) :
    (s.setPart p v).setPart p w = s.setPart p w := by
  cases p <;> rfl

@[simp] theorem channels_setPart (s : Store) (p : Part) (v : p.Params) :
    (s.setPart p v).channels = s.channels := by
  cases p <;> rfl

end Store

end Headend.Config
