import Headend.Config.Error
import Headend.Log

/-!
# Channels

The table of channels grows by one entry at each `new_channel` and never shrinks. When the
configuration has been read the table is frozen: channels with PIDs become ready, and the number of
channels is published.

Facts: `openChannel_eq_ok_iff` (a channel opens exactly below the limit), `length_freeze`,
`length_streamed_add_length_notStreamed` (each channel is streamed or not).
-/

namespace Headend.Config

/-- The most channels that a configuration may have. -/
def maxChannels : Nat := 128

/-- One more than the most PIDs that a channel may have. -/
def maxPids : Nat := 128

/-- The most octets that a channel's name may have. -/
def maxNameSize : Nat := 255

/-- The lowest PID that may be given. -/
def leastPid : Int := 10

/-- The highest PID of a channel. -/
def greatestPid : Int := 8192

/-- The highest PID of a map table. -/
def greatestPmtPid : Int := 8191

/-- How far a channel is from being streamed. -/
inductive Readiness where
  | undefined
  /-- Declared, waiting for its PIDs. -/
  | almostReady
  /-- The PIDs are known. -/
  | ready
deriving DecidableEq

/-- The name of a readiness in the log. -/
def Readiness.name : Readiness → String
  | undefined => "Undefined"
  | almostReady => "AlmostReady"
  | ready => "Ready"

/-- The descrambling settings of a channel. -/
structure ChannelScam where
  oscam : Bool := false
  ringBufferSize : Option UInt32 := none
  decsaDelay : Option UInt32 := none
  sendDelay : Option UInt32 := none
deriving DecidableEq

/-- One channel of the configuration. -/
structure Channel where
  serviceId : Option UInt16 := none
  pids : List UInt16 := []
  /-- The PIDs come from the configuration. -/
  pidsUserSet : Bool := false
  pmtPid : Option UInt16 := none
  pmtRewrite : Bool := false
  name : String := ""
  /-- The name as it was given, for templates of names. -/
  userName : String := ""
  nameUserSet : Bool := false
  readiness : Readiness := .undefined
  ip4 : Option String := none
  ip6 : Option String := none
  port : Option UInt16 := none
  unicastPort : Option UInt16 := none
  sapGroup : Option String := none
  scam : ChannelScam := {}
deriving DecidableEq

/-- The channels in the order of the configuration, and their number once it is final. -/
structure ChannelTable where
  entries : List Channel := []
  published : Option Nat := none
deriving DecidableEq

namespace ChannelTable

/-- The number of channels. -/
def length (t : ChannelTable) : Nat := t.entries.length

/-- Appends a channel that waits for its PIDs, and tells its index. -/
def openChannel (t : ChannelTable) : Except ConfigError (Nat × ChannelTable) :=
  if t.length < maxChannels then
    .ok (t.length, { t with entries := t.entries ++ [{ readiness := .almostReady }] })
  else .error (.tooManyChannels (t.length + 1) maxChannels)

/-- Replaces the channel at an index. -/
def set (t : ChannelTable) (i : Nat) (c : Channel) : ChannelTable :=
  { t with entries := t.entries.set i c }

/-- A channel as it is when the table is frozen: ready if the configuration gave it PIDs. -/
def settle (c : Channel) : Channel :=
  if c.pidsUserSet && !c.pids.isEmpty then { c with readiness := .ready } else c

/-- The table at the end of the configuration. -/
def freeze (t : ChannelTable) : ChannelTable where
  entries := t.entries.map settle
  published := some t.length

/-- The record of freezing the table. -/
def frozenRecord (t : ChannelTable) : Record :=
  .info s!"Channel table frozen with {t.length} channel(s)"

/-- The channels that are streamed. -/
def streamed (t : ChannelTable) : List Channel := t.entries.filter (·.readiness == .ready)

/-- The channels that are not streamed. -/
def notStreamed (t : ChannelTable) : List Channel := t.entries.filter (·.readiness != .ready)

/-! ### The length of the table -/

theorem openChannel_eq_ok_iff (t : ChannelTable) :
    (∃ r, t.openChannel = .ok r) ↔ t.length < maxChannels := by
  unfold openChannel
  split <;> simp [*]

@[simp] theorem length_set (t : ChannelTable) (i : Nat) (c : Channel) :
    (t.set i c).length = t.length := by
  simp [set, length]

theorem length_streamed_add_length_notStreamed (t : ChannelTable) :
    t.streamed.length + t.notStreamed.length = t.length := by
  simp only [streamed, notStreamed, length]
  induction t.entries with
  | nil => rfl
  | cons c r ih =>
    by_cases h : c.readiness = .ready <;> simp [h, bne] at ih ⊢ <;> omega

@[simp] theorem length_freeze (t : ChannelTable) : t.freeze.length = t.length := by
  simp [freeze, length]

end ChannelTable

end Headend.Config
