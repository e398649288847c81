import Headend.Text.Escaped

/-!
# Log records

A record is a level and a text, and it comes from an area of the program. A filter lets through the
records up to its level.
-/

namespace Headend

/-- How much a record matters, the most severe first. -/
inductive Level where
  | error | warn | info | debug | trace
deriving DecidableEq

namespace Level

/-- The place of a level, from the most severe on. -/
def rank : Level → Nat
  | error => 1
  | warn => 2
  | info => 3
  | debug => 4
  | trace => 5

/-- The name in a written record. -/
def name : Level → String
  | error => "ERROR"
  | warn => "WARN"
  | info => "INFO"
  | debug => "DEBUG"
  | trace => "TRACE"

end Level

/-- One record of the log. -/
structure Record where
  level : Level
  text : String
deriving DecidableEq

namespace Record

/-- A record of something that failed. -/
def error (text : String) : Record := ⟨.error, text⟩

/-- A record of something to look at. -/
def warn (text : String) : Record := ⟨.warn, text⟩

/-- A record of something that happened. -/
def info (text : String) : Record := ⟨.info, text⟩

/-- A record for following each step. -/
def trace (text : String) : Record := ⟨.trace, text⟩

/-- The line that a record takes in a log file. -/
def line (r : Record) : String := r.level.name ++ " " ++ Text.escape r.text ++ "\n"

end Record

/-- The area of the program that a record comes from. -/
inductive Area where
  /-- Reading and resolving the configuration. -/
  | configuration
  /-- The order of the stages. -/
  | startup
  /-- Opening a source and tuning it. -/
  | acquisition
  /-- The front-end itself. -/
  | frontend
  /-- The generated files. -/
  | lists
  /-- Keeping the source. -/
  | engine
  /-- Giving back what was acquired. -/
  | shutdown
deriving DecidableEq

/-- The name by which a setting of the log knows an area. -/
def Area.name : Area → String
  | configuration => "dvbzap_conf"
  | startup => "dvbzap::orchestrator"
  | acquisition => "dvbzap::sequencer"
  | frontend => "dvbzap::tuner::linux"
  | lists => "dvbzap::lists"
  | engine => "dvbzap::engine"
  | shutdown => "dvbzap::shutdown"

/-- Which records are kept: those up to a level, or none. -/
inductive LogFilter where
  | off
  | upTo (level : Level)
deriving DecidableEq

namespace LogFilter

/-- Whether a record is kept. -/
def keeps : LogFilter → Record → Bool
  | off, _ => false
  | upTo level, r => r.level.rank ≤ level.rank

/-- The name of a filter. -/
def name : LogFilter → String
  | off => "off"
  | upTo .error => "error"
  | upTo .warn => "warn"
  | upTo .info => "info"
  | upTo .debug => "debug"
  | upTo .trace => "trace"

/-- The filters in order, from the one that keeps nothing on; a filter's place is its number. -/
def all : List LogFilter :=
  [off, upTo .error, upTo .warn, upTo .info, upTo .debug, upTo .trace]

/-- The filter for a balance of requests for more and for less output. -/
def ofVerbosity (v : Int) : LogFilter :=
  if v ≤ -2 then upTo .error
  else if v = -1 then upTo .warn
  else if v = 0 then upTo .info
  else if v = 1 then upTo .debug
  else upTo .trace

end LogFilter

end Headend
