import Headend.CommandLine.Parse
import Headend.Log.Directive
import Headend.Service.Startup
import Headend.Tuner.CardListing

/-!
# Launching

From the arguments to the exit status: the command line is read, a list of the front-ends is given
if that was asked for, and otherwise the process lives its life with the front-ends of the host and
the engine that keeps the source. A setting of the environment stands above the command line in
what the log keeps; one that breaks down while it is read ends the process.

Facts: `launch_of_refusal` (arguments that are refused start nothing).
-/

namespace Headend.Service

open Headend.CommandLine (Refusal)
open Headend.Host
open Headend.Tuner (Frontend)

/-- The directory of the adapters. -/
def adapterRoot : String := "/dev/dvb"

/-- The filters of the log. What the environment asks for counts if it can be understood, but not
every text can be read to its end. -/
def chooseFilters (o : CommandLine.Options) : Option String → Option (Area → LogFilter)
  | none => some fun _ => o.logFilter
  | some text =>
    match LogDirective.filters text with
    | .ok filters => some filters
    | .error .malformed => some fun _ => o.logFilter
    | .error .split => none

/-- The exit status of a process that broke down. -/
def breakdownStatus : Int := 101

/-- What the process leaves for its parent and the terminal. -/
structure Finished where
  status : Int
  output : String := ""
  errors : String := ""

/-- The list of the front-ends. It is no failure if there is none to read. -/
def showCards (styled : Bool) (w : World) : Finished :=
  match Tuner.listCards w adapterRoot with
  | .ok cards => { status := 0, output := Tuner.cardsText styled cards }
  | .error e => { status := 0, errors := s!"Cannot read {adapterRoot}: {e.message}\n" }

/-- The exit status for arguments that lead to no run. -/
def refusalStatus (r : Refusal) : Int := if r.isAnswer then 0 else ExitCode.arguments.number

/-- The whole process. -/
def launch (styled : Bool) (args : List String) (directives : Option String) : Run Finished := do
  match CommandLine.parse args with
  | .error r => return { status := refusalStatus r }
  | .ok o =>
    if o.listCards then Run.look (showCards styled)
    else
      match chooseFilters o directives with
      | none => return { status := breakdownStatus }
      | some logFilter =>
        Run.change fun w => { w with logFilter }
        return { status := ← start o .hardware (.holding o.exitAfterTune o.showSignal) }

theorem launch_of_refusal {args : List String} {r : Refusal}
    (h : CommandLine.parse args = .error r) (styled : Bool) (directives : Option String) :
    launch styled args directives = pure { status := refusalStatus r } := by
  simp only [launch, h]

end Headend.Service
