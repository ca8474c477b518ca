import LintGate.Linter.Command
import LintGate.Linter.Settings
import LintGate.Path.Absolute
import LintGate.Report.Cppcheck
import LintGate.Report.Line
import LintGate.Report.Rats

/-!
A tool with its settings: the command that lets it look at a file, and the reading of its output.
-/

namespace LintGate

/-- A tool that can be run. -/
structure Linter where
  tool : Tool
  settings : ToolSettings
  /-- What stands between the key of the tool `other` and a rule on its lines. -/
  namespaceKey : Option String
  deriving DecidableEq

namespace Linter

/-- The tool with these settings. Only the tool `other` has a key of its own, and a blank key is
none. -/
def make (tool : Tool) (settings : ToolSettings) (key : Option String) : Linter where
  tool := tool
  settings := settings
  namespaceKey :=
    if tool = .other then key.filter fun k => !Text.isBlankText k.toList else none

/-- The rule id of a rule the tool names. -/
def ruleId (l : Linter) (rule : String) : String :=
  match l.namespaceKey with
  | some key => l.tool.ruleId (key ++ "." ++ rule)
  | none => l.tool.ruleId rule

/-- The form in which PC-lint is told to print a finding. -/
def formatOption : String :=
  "-format=%(%F(%l):%) error : (%t -- %m) : [%n]"

/-- The option files that PC-lint reads before the arguments of the settings. -/
def optionFiles : List String :=
  ["+ffn", "std.lnt", "env-vc10.lnt"]

/-- What PC-lint is told first: the form of its lines, and the directory of the executable, where
its option files lie. -/
def lintOptions (executable : Path) : List String :=
  let directory := match executable.parent? with
    | some parent => if parent.isEmpty then [] else ["-i" ++ parent.text]
    | none => []
  formatOption :: directory ++ optionFiles

/-- The arguments before those of the settings. -/
def leadingArguments (l : Linter) : List String :=
  if l.tool = .pclint then lintOptions l.settings.executable else []

/-- The command that lets the tool look at `file`, whose absolute path comes last. -/
def command (l : Linter) (cwd file : Path) : Command where
  program := l.settings.executable
  arguments :=
    l.leadingArguments ++ Command.split l.settings.arguments ++ [(Path.absolute cwd file).text]
  environment := l.settings.environment.toMap
  workingDir := l.settings.workingDir
  timeout := l.settings.timeout

/-- The stream that carries the findings. -/
def stream (l : Linter) : Stream :=
  l.settings.stream.getD l.tool.defaultStream

/-- Reads the lines of that stream. -/
def read (l : Linter) (lines : List String) : Reading :=
  match l.tool with
  | .cppcheck => Report.Cppcheck.read lines
  | .rats => Report.Rats.read lines
  | .vera => FindingLine.readAll FindingLine.located l.ruleId lines
  | .pclint => FindingLine.readAll FindingLine.bracketed l.ruleId lines
  | .other => FindingLine.readAll FindingLine.bracketed l.ruleId lines

end Linter

end LintGate
