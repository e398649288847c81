import Headend.Service.Launch

/-!
# The program

The outer layer of the command: it shows the process the part of the file system that its arguments
and its configuration name, lets it live its life, and carries out what the process did to the
files. The records of the log go to the error output. No front-end can be driven and no signal
arrives here, so a process that would hold its source ends after the first wait.
-/

namespace Headend.Main

open Headend.Host
open Headend.Service

/-- Adds what stands where a path leads, and the directories on the way. -/
def importPath (fs : FileSystem) (path : String) (withContent : Bool) : IO FileSystem := do
  let names := pathNames path
  let root := if isAbsolute path then "/" else ""
  let mut fs := fs
  for n in [0:names.length] do
    let part := root ++ "/".intercalate (names.take (n + 1))
    if let .ok found := ← (IO.FS.realPath part).toBaseIO then
      if ← found.isDir then fs := fs.makeDirectory part
      else
        let content ← if withContent then IO.FS.readBinFile part else pure .empty
        fs := fs.writeFile part content.data.toList
  return fs

/-- Adds a directory with all that is below it, down to a depth; contents are left out. -/
def importTree (path : String) : Nat → FileSystem → IO FileSystem
  | 0, fs => pure fs
  | depth + 1, fs => do
    let mut fs ← importPath fs path false
    if let .ok found := ← (IO.FS.realPath path).toBaseIO then
      if ← found.isDir then
        for entry in ← found.readDir do
          fs ← importTree (joinPath path entry.fileName) depth fs
    return fs

/-- The paths that the parameters of a run name. -/
def namedPaths (o : CommandLine.Options) (s : Config.Store) : List String :=
  let lists := ListPaths.make o.runDir (s.tuning.card.getD 0) s.tuning.tuner s.cam.support
  s.logging.file.toList ++ [s.options.pidFile] ++ lists.all

/-- The part of the file system that a run can reach. -/
def importFiles (o : CommandLine.Options) : IO FileSystem := do
  let here := (← IO.currentDir).toString
  let fs ← importPath {} here false
  let fs := { fs with workingDirectory := pathNames here }
  if o.listCards then return ← importTree adapterRoot 3 fs
  let fs ← o.config.toList.foldlM (importPath · · true) fs
  match load o { files := fs } with
  | .ok (.ok s) _ =>
    let device := Tuner.frontendPath s.tuning.cardDevPath s.tuning.tuner
    let fs ← (device :: s.tuning.readFilePath.toList).foldlM (importPath · · false) fs
    (namedPaths o s).foldlM (importPath · · true) fs
  | _ => return fs

/-- The file system with its names told from the root. -/
def fromRoot (fs : FileSystem) : FileSystem := { fs with workingDirectory := [] }

/-- Carries out the changes to the files. -/
def exportFiles (before after : FileSystem) : IO Unit := do
  for name in (fromRoot after).goneSince (fromRoot before) do
    IO.FS.removeFile ("/" ++ name)
  for (name, content) in (fromRoot after).since (fromRoot before) do
    IO.FS.writeBinFile ("/" ++ name) ⟨content.toArray⟩

/-- The line for a refusal of the arguments. -/
def refusalLine : CommandLine.Refusal → String
  | .displayHelp => "dvbzap tunes a DVB front-end from a configuration file and keeps it tuned"
  | .displayVersion => s!"dvbzap {version}"
  | .unknownArgument => "dvbzap: unexpected argument"
  | .invalidValue => "dvbzap: a value is missing"
  | .valueValidation => "dvbzap: a value cannot be understood"
  | .argumentConflict => "dvbzap: an option stands twice"
  | .tooManyValues => "dvbzap: an option takes no value"

/-- The number of this process, as the host tells it. -/
def ownProcessId : IO Nat := do
  match ← (IO.FS.readFile "/proc/self/stat").toBaseIO with
  | .ok text => return Number.natural (text.toList.takeWhile Char.isDigit)
  | .error _ => return 1

/-- Runs the process and shows what it left. -/
def run (args : List String) (o : CommandLine.Options) (directives : Option String) :
    IO UInt32 := do
  let files ← importFiles o
  match launch false args directives { files, processId := ← ownProcessId } with
  | .error e _ =>
    IO.eprintln e.message
    return UInt32.ofNat breakdownStatus.toNat
  | .ok done w =>
    for event in w.trace do
      if let .log a r := event then
        if (w.logFilter a).keeps r then IO.eprint r.line
    exportFiles files w.files
    IO.print done.output
    IO.eprint done.errors
    return UInt32.ofNat done.status.toNat

end Headend.Main

/-- The command. -/
def main (args : List String) : IO UInt32 := do
  match Headend.CommandLine.parse args with
  | .error r =>
    let line := Headend.Main.refusalLine r
    if r.isAnswer then IO.println line else IO.eprintln line
    return UInt32.ofNat (Headend.Service.refusalStatus r).toNat
  | .ok o => Headend.Main.run args o (← IO.getEnv "DVBZAP_LOG")
