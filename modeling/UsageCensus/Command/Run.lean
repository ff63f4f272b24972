import UsageCensus.Command.Inspect
import UsageCensus.Command.Redetect

/-!
# Running commands

A command runs to its end or to a fault. Two causes are told to the user, as a note: a bad
configuration, and something that is not there. All others end the program.
-/

namespace UsageCensus.Command

variable {m : Type → Type} [Host m] [Room]

def perform : Command → m Unit
  | analyze request => writeReports request
  | scan file config asJson => showFile file config asJson
  | classify values => showClassified values
  | defaults config output => redetect config output
  | components config asJson => showTracked config asJson

/-- The fault is told to the user. -/
def isTold : Fault → Bool
  | .config _ => true
  | .missing _ => true
  | _ => false

/-- The exit code of a command that has not been ended by a fault. -/
abbrev ExitCode : Type := Nat

/-- Performs a command. -/
def run (command : Command) : m ExitCode := do
  try
    perform command
    return 0
  catch fault =>
    if isTold fault then
      Host.note .red ("  Error: " ++ (fault.message?).getD "")
      return 1
    else throw fault

/-- The exit code where reading the arguments stopped. -/
def Stop.exitCode : Stop → ExitCode
  | .help => 0
  | .misuse => 2

end UsageCensus.Command
