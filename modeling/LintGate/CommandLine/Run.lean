import LintGate.CommandLine.Analyze
import LintGate.CommandLine.FirstConfig
import LintGate.CommandLine.ShowTools

/-!
The tasks of the command line, carried out on a system.
-/

namespace LintGate.CommandLine

/-- Carries out what was asked for. -/
def Invocation.run (i : Invocation) (s : Host) : Outcome :=
  match i.task with
  | .analyze options => analyzeSources s (Host.work false) i.config options
  | .writeConfig force => writeConfig s force
  | .showTools file => showTools s i.config file

/-- The exit code of a command line that is answered with its usage. -/
def UsageKind.code : UsageKind → Nat
  | .help => 0
  | .version => 0
  | _ => 2

/-- What is said of a command line that is not carried out. -/
def UsageKind.message : UsageKind → String
  | .help => "usage: cxxlens [--config FILE] [--verbose] analyze|init|tools|help [ARGUMENTS]"
  | .version => "cxxlens"
  | .nothingGiven => "a command is needed; try help"
  | .missingCommand => "a command is needed; try help"
  | .unknownCommand => "there is no such command"
  | .missingWord => "a path is needed"
  | .badValue => "an option has a bad value or none"
  | .unknownOption => "there is no such option or argument"
  | .repeated => "an option is given twice"
  | .unwantedValue => "an option takes no value"

/-- What a command line does on a system, or why it is answered with its usage. -/
def run (s : Host) (arguments : List String) : Except UsageKind Outcome :=
  (Invocation.ofArguments arguments).map fun i => i.run s

end LintGate.CommandLine
