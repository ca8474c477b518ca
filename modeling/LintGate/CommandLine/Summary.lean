import LintGate.Analysis.Report
import LintGate.CommandLine.Invocation
import LintGate.Json.Printer

/-!
Reports as text: the findings of each file and two totals, with a remark for each tool that did not
complete and each file that could not be restricted to changed lines; or as JSON.
-/

namespace LintGate.CommandLine

/-- One finding on a line. -/
def issueLine (i : Issue) : String :=
  let severity := (i.severity.map (·.name)).getD "-"
  s!"  {i.line} {severity} [{i.ruleId}]: {i.message}\n"

/-- The findings of a file, after an empty line and its name; nothing when there are none. -/
def issuesText (r : AnalysisReport) : String :=
  if r.issues.isEmpty then "" else s!"\n{r.file.text}:\n" ++ String.join (r.issues.map issueLine)

/-- How many findings there are in all. -/
def totalIssues (reports : List AnalysisReport) : Nat :=
  reports.foldl (fun n report => n + report.issues.length) 0

/-- The findings of all files, and the totals. -/
def summaryText (reports : List AnalysisReport) : String :=
  String.join (reports.map issuesText) ++
    s!"\nAnalyzed {reports.length} files, found {totalIssues reports} issues\n"

/-- Why a tool did not complete. -/
def incompleteReason? : ToolStatus → Option String
  | .failed reason => some reason
  | .timedOut => some "timed out"
  | .cancelled => some "cancelled"
  | .completed _ => none

/-- The remarks on a file. -/
def remarks (r : AnalysisReport) : String :=
  let tools := r.failedTools.filterMap fun t =>
    (incompleteReason? t.status).map fun reason =>
      s!"{r.file.text}: {t.tool.key} did not complete: {reason}\n"
  let diff := match r.diff with
    | .skipped cause => s!"{r.file.text}: modified-lines filter skipped: {cause.message}\n"
    | _ => ""
  String.join tools ++ diff

/-- The reports as a JSON array. -/
def reportsJson (reports : List AnalysisReport) : String :=
  (Json.Value.array (reports.map AnalysisReport.toValue)).indented ++ "\n"

/-- What is printed of the reports on the output and the error stream. -/
def printed (format : OutputFormat) (reports : List AnalysisReport) : String × String :=
  match format with
  | .text => (summaryText reports, String.join (reports.map remarks))
  | .json => (reportsJson reports, "")

end LintGate.CommandLine
