import Headend.Host.FileSystem
import Headend.Tuner.Parameters

/-!
# Sources

What the stream comes from: a front-end device that is open, or a recording that stands in for one.
-/

namespace Headend.Tuner

open Headend.Host (FileId)

/-- A front-end device that is open, with what it told about itself. -/
structure OpenDevice where
  path : String
  name : String
  type : UInt32
  /-- The file that stands for the device. -/
  file : FileId
deriving DecidableEq

/-- The name of a device in the log. -/
def OpenDevice.describe (d : OpenDevice) : String := s!"{d.name} ({d.path})"

/-- What the stream comes from. -/
inductive Source where
  | device (d : OpenDevice)
  | recording (path : String)
deriving DecidableEq

namespace Source

/-- The path that was opened. -/
def path : Source → String
  | device d => d.path
  | recording path => path

/-- The name of a source in the log. -/
def describe : Source → String
  | device d => d.describe
  | recording path => s!"replay of {path}"

end Source

end Headend.Tuner
