import LintGate.CommandLine.Grammar
import LintGate.Path.Basic

/-!
What a command line asks for: to analyze sources, to write a first configuration, or to show the
commands of the tools.
-/

namespace LintGate.CommandLine

/-- How reports are written. -/
inductive OutputFormat
  | text
  | json
  deriving DecidableEq, Repr

/-- What is to be analyzed and how. -/
structure AnalyzeOptions where
  paths : List Path
  profile : Option Path := none
  reference : Option Path := none
  modifiedLinesOnly : Bool := false
  /-- The names of the tools that are run; all of them when there are none. -/
  tools : List String := []
  projectKey : Option String := none
  format : OutputFormat := .text

inductive Task
  | analyze (options : AnalyzeOptions)
  | writeConfig (force : Bool)
  | showTools (file : Path)

structure Invocation where
  config : Option Path
  verbose : Bool
  task : Task

/-- Options that every command takes. -/
def commonSwitches : List Switch :=
  [⟨"config", some 'c', .valued .path false⟩, ⟨"verbose", some 'v', .flag⟩,
    ⟨"help", some 'h', .help⟩]

/-- The program before its command. -/
def mainGrammar : Grammar where
  switches := ⟨"version", some 'V', .version⟩ :: commonSwitches
  words := .none
  commands := ["analyze", "init", "tools", "help"]

def analyzeGrammar : Grammar where
  switches :=
    [⟨"profile", some 'p', .valued .path false⟩, ⟨"reference", none, .valued .path false⟩,
      ⟨"modified-lines-only", none, .flag⟩, ⟨"tool", some 't', .valued .text true⟩,
      ⟨"project-key", none, .valued .text false⟩,
      ⟨"format", some 'f', .valued (.choice ["text", "json"]) false⟩] ++ commonSwitches
  words := .many
  commands := []

def initGrammar : Grammar where
  switches := ⟨"force", none, .flag⟩ :: commonSwitches
  words := .none
  commands := []

def toolsGrammar : Grammar where
  switches := commonSwitches
  words := .one
  commands := []

/-- The arguments of a command, all of them looked at. -/
def readAll (g : Grammar) (arguments : List String) : Except UsageKind Progress := do
  let (p, _) ← g.readUpTo {} arguments
  p.settle

/-- The first value of an option. -/
def Progress.value? (p : Progress) (long : String) : Option String :=
  (p.valuesOf long).head?

/-- The task that the arguments of `analyze` ask for; paths have to be among them. -/
def analyzeTask (p : Progress) : Except UsageKind Task :=
  if p.words.isEmpty then .error .missingWord
  else
    .ok (.analyze {
      paths := p.words.map Path.ofString
      profile := (p.value? "profile").map Path.ofString
      reference := (p.value? "reference").map Path.ofString
      modifiedLinesOnly := p.has "modified-lines-only"
      tools := p.valuesOf "tool"
      projectKey := p.value? "project-key"
      format := if p.value? "format" == some "json" then .json else .text })

/-- The file for which commands are shown when none is named. -/
def exampleFile : String := "example.cpp"

/-- The answer to `help`: the words after it have to lead to a command. -/
def helpKind : List String → UsageKind
  | [] => .help
  | [command] => if mainGrammar.commands.contains command then .help else .unknownCommand
  | _ => .unknownCommand

/-- The arguments of a command, and the task they ask for. -/
def readCommand (command : String) (arguments : List String) :
    Except UsageKind (Progress × Task) := do
  match command with
  | "analyze" =>
    let p ← readAll analyzeGrammar arguments
    return (p, ← analyzeTask p)
  | "init" =>
    let p ← readAll initGrammar arguments
    return (p, .writeConfig (p.has "force"))
  | "tools" =>
    let p ← readAll toolsGrammar arguments
    return (p, .showTools (Path.ofString (p.words.headD exampleFile)))
  | _ => throw (helpKind arguments)

/-- What the arguments ask for. An option counts where it stands last: after the command rather than
before it. -/
def Invocation.ofArguments (arguments : List String) : Except UsageKind Invocation := do
  let (before, command) ← mainGrammar.readUpTo {} arguments
  match command with
  | none =>
    let before ← before.settle
    throw (if before.given.isEmpty then .nothingGiven else .missingCommand)
  | some (command, rest) =>
    let (after, task) ← readCommand command rest
    let before ← before.settle
    return {
      config := ((after.value? "config") <|> (before.value? "config")).map Path.ofString
      verbose := after.has "verbose" || before.has "verbose"
      task := task }

end LintGate.CommandLine
