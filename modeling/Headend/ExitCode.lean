/-!
# Exit codes

The reasons for which the process ends other than by request, and the number that tells each of
them to its parent.

Facts: `ofNumber?_number` (a number names its code), `number_of_ofNumber?` (and no other one).
-/

namespace Headend

/-- Why the process failed. -/
inductive ExitCode where
  /-- The command line could not be understood. -/
  | arguments
  /-- The configuration file could not be opened or read. -/
  | configurationFile
  /-- The configuration is malformed. -/
  | configuration
  /-- The configuration opens more channels than the table holds. -/
  | tooManyChannels
  /-- A mandatory file could not be created. -/
  | createFile
  /-- A generated file could not be removed. -/
  | removeFile
  /-- The device could not be opened or tuned, or not in time. -/
  | tuning
  /-- Anything else. -/
  | generic
deriving DecidableEq

namespace ExitCode

/-- Every code. -/
def all : List ExitCode :=
  [arguments, configurationFile, configuration, tooManyChannels, createFile, removeFile, tuning,
   generic]

/-- The status that the process ends with. -/
def number : ExitCode → Int
  | arguments => 1
  | configurationFile => 2
  | configuration => 3
  | tooManyChannels => 4
  | createFile => 5
  | removeFile => 6
  | tuning => 7
  | generic => 12

/-- The code of a number, if it has one. -/
def ofNumber? (n : Int) : Option ExitCode := all.find? fun c => c.number == n

theorem mem_all (c : ExitCode) : c ∈ all := by cases c <;> decide

@[simp] theorem ofNumber?_number (c : ExitCode) : ofNumber? c.number = some c := by
  cases c <;> decide

theorem number_of_ofNumber? {n : Int} {code : ExitCode} (h : ofNumber? n = some code) :
    code.number = n := by
  have hfound := List.find?_some h
  exact eq_of_beq hfound

end ExitCode

end Headend
