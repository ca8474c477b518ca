import LintGate.Analysis.Run
import LintGate.CommandLine.Outcome
import LintGate.CommandLine.Summary
import LintGate.Discovery.Walk

/-!
The analysis of sources. Everything that can be wrong with what was asked for is found out first, as
a plan is made; only then are tools started and something printed.
-/

namespace LintGate.CommandLine

/-- What is to be done. -/
structure AnalyzePlan where
  linters : List Linter
  requests : List AnalysisRequest
  format : OutputFormat

/-- The linters of a configuration, of the named tools only if tools are named. -/
def selectLinters (config : Config) (names : List String) : Except TaskFailure (List Linter) :=
  if names.isEmpty then .ok config.linters
  else do
    let tools ← names.mapM fun name =>
      match Tool.ofName? name with
      | some tool => .ok tool
      | none => .error (.unknownTool name)
    return config.linters.filter fun l => tools.contains l.tool

/-- The profile in a file. -/
def profileAt (s : Host) (file : Path) : Except TaskFailure Profile :=
  match FileTree.readBytes s.files s.directory file with
  | .error fault => .error (.profile (.unreadable fault))
  | .ok bytes => (Profile.ofBytes bytes).mapError .profile

/-- The text of the reference, which can be given for one file only. -/
def referenceText (s : Host) (found : List Path) (reference : Option Path) :
    Except TaskFailure (Option String) :=
  match reference with
  | none => .ok none
  | some file =>
    if 1 < found.length then .error (.severalFiles found.length)
    else ((FileTree.readText s.files s.directory file).mapError .file).map some

/-- The configuration with what the command line sets in its stead. -/
def override (config : Config) (o : AnalyzeOptions) : Config :=
  { config with
    modifiedLinesOnly := config.modifiedLinesOnly || o.modifiedLinesOnly
    projectKey := o.projectKey <|> config.projectKey }

/-- The sources that are to be analyzed. -/
def sources (s : Host) (config : Config) (paths : List Path) : List Path :=
  Discovery.walk s.files s.directory
    { userExcludes := s.userExcludes, includes := config.includes, excludes := config.excludes }
    paths

/-- What is asked for of one source. -/
def requestFor (s : Host) (config : Config) (profile : Profile) (reference : Option String)
    (file : Path) : AnalysisRequest where
  file := file
  profile := profile
  modifiedLinesOnly := config.modifiedLinesOnly
  reference := reference
  componentKey := config.projectKey.bind fun project =>
    Path.componentKey? s.directory project (config.baseDir.getD s.directory) file

namespace AnalyzePlan

/-- The plan for what was asked for. -/
def make (s : Host) (named : Option Path) (o : AnalyzeOptions) :
    Except TaskFailure AnalyzePlan := do
  let config := override (← loadConfig s named) o
  let linters ← selectLinters config o.tools
  if linters.isEmpty then throw .noTools
  match o.profile <|> config.profile with
  | none => throw .noProfile
  | some file =>
    let profile ← profileAt s file
    let found := sources s config o.paths
    let reference ← referenceText s found o.reference
    return ⟨linters, found.map (requestFor s config profile reference), o.format⟩

/-- The commands of a plan. -/
def commands (cwd : Path) (p : AnalyzePlan) : List Command :=
  p.requests.flatMap fun r => p.linters.map fun l => l.command cwd r.file

/-- What is said of the files whose analysis gave no report. -/
def failuresText (failures : List (Path × RunFailure)) : String :=
  if failures.isEmpty then ""
  else
    s!"\n{failures.length} file(s) failed to analyze:\n" ++
      String.join (failures.map fun f => s!"  {f.1.text}: {f.2.message}\n")

/-- Carries a plan out; `execute` runs a command on a system, which it may change. -/
def carryOut (s : Host) (execute : Command → StateM Host WorkerOutcome) (p : AnalyzePlan) :
    Outcome :=
  let ((reports, failures), after) :=
    (analyzeFiles s.directory p.linters execute Host.read p.requests).run s
  let sorted := reports.mergeSort fun a b => (Path.compare a.file b.file).isLE
  let (stdout, stderr) := printed p.format sorted
  { stdout := stdout
    stderr := failuresText failures ++ stderr
    hasFindings := sorted.any (·.hasIssues) || !failures.isEmpty
    started := p.commands s.directory
    files := after.files }

end AnalyzePlan

/-- Analyzes sources; `execute` runs a command. -/
def analyzeSources (s : Host) (execute : Command → StateM Host WorkerOutcome)
    (named : Option Path) (o : AnalyzeOptions) : Outcome :=
  match AnalyzePlan.make s named o with
  | .error f => .ofFailure s f
  | .ok plan => plan.carryOut s execute

end LintGate.CommandLine
