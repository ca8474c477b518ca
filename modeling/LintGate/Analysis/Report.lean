import LintGate.Diff.Filter
import LintGate.Issue.Document
import LintGate.Linter.Basic
import LintGate.Process.Output
import LintGate.Profile

/-!
Reports: what was asked for of one file, how each tool ended, and the findings that count.
-/

namespace LintGate

open Json

/-- What is asked for. -/
structure AnalysisRequest where
  file : Path
  profile : Profile
  /-- Only findings on lines that differ from the reference are asked for. -/
  modifiedLinesOnly : Bool := false
  reference : Option String := none
  /-- The component of every finding, instead of the path of the file. -/
  componentKey : Option String := none

/-- The component of every finding of the request. -/
def AnalysisRequest.component (r : AnalysisRequest) : String :=
  r.componentKey.getD r.file.text

/-- How the run of a tool ended. -/
inductive ToolStatus
  | completed (exitCode : Option Int)
  | failed (reason : String)
  | timedOut
  | cancelled
  deriving DecidableEq, Repr

def ToolStatus.isCompleted : ToolStatus → Bool
  | .completed _ => true
  | _ => false

/-- What became of one tool. -/
structure ToolReport where
  tool : Tool
  status : ToolStatus
  /-- How many findings the tool printed. -/
  reported : Nat := 0
  /-- How many of them belong to the file and count by the profile. -/
  kept : Nat := 0
  /-- How many entries could not be read. -/
  skipped : Nat := 0
  deriving DecidableEq, Repr

/-- What became of one file. -/
structure AnalysisReport where
  file : Path
  issues : List Issue
  tools : List ToolReport
  diff : DiffOutcome
  deriving DecidableEq

namespace AnalysisReport

def hasIssues (r : AnalysisReport) : Bool :=
  !r.issues.isEmpty

/-- The reports of the tools that did not complete. -/
def failedTools (r : AnalysisReport) : List ToolReport :=
  r.tools.filter fun t => !t.status.isCompleted

end AnalysisReport

/-- The findings on the file that count, each with the component of the request. -/
def correlate (cwd : Path) (request : AnalysisRequest) (issues : List Issue) : List Issue :=
  let own := issues.filter fun i =>
    !i.component.isEmpty && Path.sameFile cwd (Path.ofString i.component) request.file
  own.filterMap fun i => request.profile.annotate { i with component := request.component }

/-- How the worker of one tool ended. -/
inductive WorkerOutcome
  | output (output : ProcessOutput)
  | failure (failure : RunFailure)
  /-- The worker died before it had a result. -/
  | died
  /-- There was no worker. -/
  | notStarted (reason : String)
  deriving DecidableEq, Repr

/-- What a worker hands in: the findings that count, and the report of its tool. -/
def WorkerOutcome.settlement (cwd : Path) (linter : Linter) (request : AnalysisRequest) :
    WorkerOutcome → List Issue × ToolReport
  | .output o =>
    let reading := linter.read (o.lines linter.stream)
    let kept := correlate cwd request reading.issues
    (kept, {
      tool := linter.tool
      status := .completed o.exitCode
      reported := reading.issues.length
      kept := kept.length
      skipped := reading.skipped.length })
  | .failure (.timedOut _) => ([], { tool := linter.tool, status := .timedOut })
  | .failure (.cancelled _) => ([], { tool := linter.tool, status := .cancelled })
  | .failure f => ([], { tool := linter.tool, status := .failed f.message })
  | .died => ([], { tool := linter.tool, status := .failed "worker panicked" })
  | .notStarted reason =>
    ([], { tool := linter.tool, status := .failed s!"failed to start worker: {reason}" })

namespace AnalysisReport

/-- Reports are ordered by line, then rule id, then message. -/
def inOrder (a b : Issue) : Bool :=
  ((compare a.line b.line).then
    ((compare a.ruleId b.ruleId).then (compare a.message b.message))).isLE

/-- The report of a request whose tools have all ended. `content` is the file as it is then. -/
def ofSettled (request : AnalysisRequest) (content : Except FileFault (List UInt8))
    (issues : List Issue) (tools : List ToolReport) : AnalysisReport :=
  let sorted := issues.mergeSort inOrder
  let (kept, diff) :=
    if request.modifiedLinesOnly then DiffOutcome.filter content request.reference sorted
    else (sorted, .notRequested)
  ⟨request.file, kept, tools, diff⟩

/-- A status as a JSON object. -/
def statusValue : ToolStatus → Value
  | .completed code =>
    .object [("state", .string "completed"), ("exit_code", .ofOption exitCodeValue code)]
  | .failed reason => .object [("state", .string "failed"), ("reason", .string reason)]
  | .timedOut => .object [("state", .string "timedOut")]
  | .cancelled => .object [("state", .string "cancelled")]
where
  exitCodeValue (code : Int) : Value :=
    if code < 0 then .number (.negative code.natAbs) else .ofNat code.toNat

/-- What became of the restriction to changed lines, as a JSON object. -/
def diffValue : DiffOutcome → Value
  | .notRequested => .object [("status", .string "notRequested")]
  | .applied kept dropped =>
    .object [("status", .string "applied"), ("kept", .ofNat kept), ("dropped", .ofNat dropped)]
  | .skipped cause => .object [("status", .string "skipped"), ("reason", .string cause.message)]

/-- The report of a tool as a JSON object. -/
def toolValue (t : ToolReport) : Value :=
  .object [("tool", .string t.tool.key), ("status", statusValue t.status),
    ("reported", .ofNat t.reported), ("kept", .ofNat t.kept), ("skipped", .ofNat t.skipped)]

/-- The report as a JSON object. -/
def toValue (r : AnalysisReport) : Value :=
  .object [("file", .string r.file.text), ("issues", .array (r.issues.map Issue.toValue)),
    ("tools", .array (r.tools.map toolValue)), ("diff", diffValue r.diff)]

end AnalysisReport

end LintGate
