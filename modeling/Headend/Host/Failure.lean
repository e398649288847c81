/-!
# Failures of the host system

What the host answers when it cannot carry out a request on a file or a device, and the text that
it has for each.
-/

namespace Headend.Host

/-- Why the host refused a request. -/
inductive Failure where
  /-- There is no such entry. -/
  | missing
  /-- The process may not do that. -/
  | denied
  /-- The device did not do its part. -/
  | inputOutput
  /-- Something on the way is not a directory. -/
  | notDirectory
  /-- A directory stands where a file is needed. -/
  | isDirectory
  /-- The request does not fit its object. -/
  | invalid
  /-- The file is no device that understands the request. -/
  | noDevice
  /-- There is no room for what is written. -/
  | noSpace
  /-- A name, or a whole path, is too long. -/
  | nameTooLong
  /-- The host has no more of what was asked for. -/
  | exhausted
  /-- A path holds the character that ends paths. -/
  | endInPath
deriving DecidableEq

/-- The host's text for a failure. -/
def Failure.message : Failure → String
  | missing => "No such file or directory (os error 2)"
  | denied => "Permission denied (os error 13)"
  | inputOutput => "Input/output error (os error 5)"
  | notDirectory => "Not a directory (os error 20)"
  | isDirectory => "Is a directory (os error 21)"
  | invalid => "Invalid argument (os error 22)"
  | noDevice => "Inappropriate ioctl for device (os error 25)"
  | noSpace => "No space left on device (os error 28)"
  | nameTooLong => "File name too long (os error 36)"
  | exhausted => "Resource temporarily unavailable (os error 11)"
  | endInPath => "file name contained an unexpected NUL byte"

end Headend.Host
