import Headend.CommandLine.Options
import Headend.Config.Resolve
import Headend.Config.Source
import Headend.Host.World

/-!
# Reading the configuration

A configuration file is read twice: first every line is shown in the log, then the lines are carried
out. Both times the lines are the same. The parameters of a run come from the file, then from the
command line, and are resolved at the end.

Facts: `readConfiguration_of_no_file` (without a file the parameters start from their defaults).
-/

namespace Headend.Service

open Headend.Config
open Headend.Host
open Headend.Text (Octets)

/-- What reading a file left: whether it succeeded, and the draft. -/
structure FileRead where
  result : Except ConfigError Unit
  draft : Draft

/-- The records that show the lines of a configuration. -/
def echoRecords (bs : Octets) : List Record := (lines bs).flatMap fun l => l.records ++ [l.echo]

/-- Carries out a configuration and leaves its records in the log. -/
def carryOut (chain : List Section) (draft : Draft) (bs : Octets) : Run FileRead := do
  let parsed := parse chain draft bs
  Run.logAll .configuration parsed.records
  return ⟨parsed.result, parsed.draft⟩

/-- Shows a configuration file in the log and carries it out. A directory can be opened, but not
even its first line can be read. -/
def parseFile (chain : List Section) (draft : Draft) (path : String) : Run FileRead := do
  match ← Run.openForReading path with
  | .error e => return ⟨.error (.cannotOpen path e), draft⟩
  | .ok node =>
    Run.log .configuration (.trace "Full configuration file :")
    match ← Run.readNode node with
    | .error e => return ⟨.error (.cannotRead path 0 e), draft⟩
    | .ok shown =>
      Run.logAll .configuration (echoRecords shown)
      match ← Run.readNode node with
      | .error e => return ⟨.error (.cannotRead path 0 e), draft⟩
      | .ok bs => carryOut chain draft bs

/-- The draft of the configuration that was asked for. -/
def readConfiguration (o : CommandLine.Options) : Run (Except ConfigError Draft) := do
  match o.config with
  | none => return .ok {}
  | some path =>
    let done ← parseFile Section.all {} path
    return done.result.map fun () => done.draft

/-- The parameters of a run. -/
def load (o : CommandLine.Options) : Run (Except ConfigError Store) := do
  match ← readConfiguration o with
  | .error e => return .error e
  | .ok draft =>
    let table := draft.store.channels
    Run.log .configuration table.frozenRecord
    let resolved := (o.override { draft.store with channels := table.freeze }).resolve
    Run.logAll .configuration resolved.records
    return resolved.result.map fun () => resolved.store

theorem readConfiguration_of_no_file {o : CommandLine.Options} (h : o.config = none) :
    readConfiguration o = pure (.ok {}) := by
  simp only [readConfiguration, h]

end Headend.Service
