import Headend.Config.Parameters
import Headend.Host.World

/-!
# Generated files

The lists of the channels that are streamed and of those that are not, an empty file for the
hardware module, and the file with the process id. A list that cannot be created or written is
passed over with a warning.

Facts: `length_all` (there are two or three files).
-/

namespace Headend.Service

open Headend.Config
open Headend.Host

/-- The paths of the lists for an adapter and a tuner. -/
structure ListPaths where
  streamed : String
  notStreamed : String
  /-- The file for the hardware module, if it is supported. -/
  camInfo : Option String
deriving DecidableEq

namespace ListPaths

/-- The paths in a directory. -/
def make (directory : String) (card tuner : UInt32) (withCam : Bool) : ListPaths :=
  let path (kind : String) : String :=
    joinPath directory s!"{kind}_adapter{card.toNat}_tuner{tuner.toNat}"
  { streamed := path "channels_streamed"
    notStreamed := path "channels_unstreamed"
    camInfo := if withCam then some (path "caminfo") else none }

/-- All paths, in the order in which the files are created. -/
def all (p : ListPaths) : List String := [p.streamed, p.notStreamed] ++ p.camInfo.toList

end ListPaths

/-- What creating the lists achieved. -/
structure Lists where
  /-- The paths of the files that were created. -/
  created : List String
  /-- Both lists of channels could be written, so they can be written again. -/
  canRefresh : Bool
deriving DecidableEq

/-- The address of a channel without one. -/
def noAddress : String := "0.0.0.0"

/-- The line of a channel in a list. -/
def listLine (commonPort : UInt16) (c : Channel) : String :=
  let address := (c.ip4.or c.ip6).getD noAddress
  let port := (c.port.getD commonPort).toNat
  s!"{address}:{port}:{c.name}\n"

/-- Writes lines to a file that is open, one after the other, up to a failure. -/
def writeLines (id : FileId) : List String → Run (Except Failure Unit)
  | [] => return .ok ()
  | line :: rest => do
    match ← Run.writeText id line with
    | .error e => return .error e
    | .ok () => writeLines id rest

/-- Writes a file of lines. A failure to write leaves a file that has been created. -/
def writeList (path : String) (lines : List String) : Run (Except Failure Unit) := do
  match ← Run.createFile path with
  | .error e => return .error e
  | .ok id =>
    match ← writeLines id lines with
    | .error e => return .error e
    | .ok () =>
      Run.reach (.completed path)
      return .ok ()

/-- The warning about a file that could not be created. -/
def notCreated (path : String) (e : Failure) : Record :=
  .warn s!"Can't create {path}: {e.message}"

/-- Says that a file could not be written, or adds it to those that were. -/
def settle (path : String) (created : List String) : Except Failure Unit → Run (List String)
  | .ok () => return created ++ [path]
  | .error e => do
    Run.log .lists (notCreated path e)
    return created

/-- Creates the lists of a store. Both lists of channels are written before anything is said about
them. -/
def createLists (paths : ListPaths) (s : Store) : Run Lists := do
  let text := listLine s.multicast.commonPort
  let streamed ← writeList paths.streamed (s.channels.streamed.map text)
  let notStreamed ← writeList paths.notStreamed (s.channels.notStreamed.map text)
  let created ← settle paths.streamed [] streamed
  let created ← settle paths.notStreamed created notStreamed
  let canRefresh := streamed.isOk && notStreamed.isOk
  match paths.camInfo with
  | none => return { created, canRefresh }
  | some path =>
    let created ← settle path created (← writeList path [])
    return { created, canRefresh }

/-- Writes the file with the process id. -/
def writePidFile (path : String) : Run (Except Failure Unit) := do
  let n ← Run.look (·.processId)
  writeList path [s!"{n}\n"]

theorem length_all (p : ListPaths) : p.all.length = 2 + p.camInfo.toList.length := by
  simp [ListPaths.all]; omega

end Headend.Service
