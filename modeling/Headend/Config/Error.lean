import Headend.ExitCode
import Headend.Host.Failure
import Headend.Text.Quoted

/-!
# Configuration errors

What makes a configuration unusable. Each error ends the process with the exit code of its kind.
-/

namespace Headend.Config

open Headend.Host (Failure)

/-- Why a configuration was refused. -/
inductive ConfigError where
  /-- The file could not be opened. -/
  | cannotOpen (path : String) (failure : Failure)
  /-- The file could not be read beyond a line. -/
  | cannotRead (path : String) (line : Nat) (failure : Failure)
  /-- A directive about a channel stands before every channel. -/
  | noChannel (keyword : String)
  /-- The table of channels is full. -/
  | tooManyChannels (count limit : Nat)
  /-- A PID of a channel is outside its range. -/
  | pidOutOfRange (pid : Int)
  /-- A channel has more PIDs than it can carry. -/
  | tooManyPids (count channel : Nat)
  /-- The PID of a channel's map table is outside its range. -/
  | pmtPidOutOfRange (pid : Int)
  /-- A directive has no value. -/
  | missingValue (keyword : String)
  /-- A directive's value could not be understood. -/
  | badValue (keyword value : String)
  /-- Neither output is on. -/
  | noOutput
deriving DecidableEq

namespace ConfigError

/-- The text of an error. -/
def message : ConfigError → String
  | cannotOpen path failure => s!"{path}: {failure.message}"
  | cannotRead path line failure => s!"{path}: read error after line {line}: {failure.message}"
  | noChannel keyword =>
    s!"{keyword} : You have to start a channel first (using new_channel)"
  | tooManyChannels count limit => s!"Too many channels : {count} limit : {limit}"
  | pidOutOfRange pid => s!"Config issue : in pids, given pid : {pid}"
  | tooManyPids count channel => s!"Too many pids : {count} channel : {channel}"
  | pmtPidOutOfRange pid => s!"Configuration issue in pmt_pid, given PID : {pid}"
  | missingValue keyword => s!"{keyword} : missing value"
  | badValue keyword value => keyword ++ " : bad value " ++ Text.quote value
  | noOutput => "NO Multicast AND NO unicast. No data can be send"

/-- The exit code of an error. -/
def exitCode : ConfigError → ExitCode
  | cannotOpen .. | cannotRead .. => .configurationFile
  | tooManyChannels .. => .tooManyChannels
  | _ => .configuration

end ConfigError

end Headend.Config
