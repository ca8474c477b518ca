import LintGate.Analysis.Report

/-!
Runs: several tools look at one file, each has a slot, and the one that settles the last slot
completes the run. `Run.settle` is the only step; in which order the slots are settled is left open.
-/

namespace LintGate

/-- The issues and tool reports with which a run was completed. -/
structure Completion where
  issues : List Issue
  tools : List ToolReport
  deriving DecidableEq

/-- A run while its tools are at work, and after. Completing it takes the slots away. -/
structure Run where
  issues : List Issue
  slots : List (Option ToolReport)
  remaining : Nat
  /-- Every completion so far, the first one first. -/
  completions : List Completion
  deriving DecidableEq

namespace Run

/-- A run with a slot for each of `size` tools. Without tools it is complete. -/
def start (size : Nat) : Run :=
  ⟨[], List.replicate size none, size, if size = 0 then [⟨[], []⟩] else []⟩

/-- Hands in the result for a slot. The first result of a slot counts and later ones change nothing.
There is no run when there is no such slot. -/
def settle (run : Run) (index : Nat) (issues : List Issue) (report : ToolReport) : Option Run :=
  match run.slots[index]? with
  | none => none
  | some (some _) => some run
  | some none =>
    let issues := run.issues ++ issues
    let slots := run.slots.set index (some report)
    let remaining := run.remaining - 1
    if remaining = 0 then some ⟨[], [], 0, run.completions ++ [⟨issues, slots.filterMap id⟩]⟩
    else some ⟨issues, slots, remaining, run.completions⟩

/-- Hands in the results in the order of their slots, from `index` on. -/
def settleFrom (run : Run) (index : Nat) : List (List Issue × ToolReport) → Option Run
  | [] => some run
  | (issues, report) :: rest => do
    let run ← run.settle index issues report
    run.settleFrom (index + 1) rest

end Run

/-- An analysis under way, as its caller sees it: at most one report waits to be taken. -/
structure AnalysisHandle where
  file : Path
  waiting : Option AnalysisReport
  deriving DecidableEq

namespace AnalysisHandle

/-- The report, if it has come, and what is left. -/
def take (h : AnalysisHandle) : Option AnalysisReport × AnalysisHandle :=
  (h.waiting, { h with waiting := none })

/-- The report of an analysis whose tools have all ended. -/
def wait (h : AnalysisHandle) : Except RunFailure AnalysisReport :=
  match h.waiting with
  | some report => .ok report
  | none => .error (.internal s!"analysis of {h.file.text} ended without a report")

end AnalysisHandle

/-- Lets every tool look at the file and settles the slots in their order; `execute` runs a command,
which can change the world, and `read` sees the world in which the run is completed. -/
def analyze (cwd : Path) (linters : List Linter) (execute : Command → StateM σ WorkerOutcome)
    (read : σ → Path → Except FileFault (List UInt8)) (request : AnalysisRequest) :
    StateM σ AnalysisHandle := do
  let settlements ← linters.mapM fun l => do
    return (← execute (l.command cwd request.file)).settlement cwd l request
  let run := (Run.start linters.length).settleFrom 0 settlements
  let world ← get
  return ⟨request.file, do
    let run ← run
    let completion ← run.completions.head?
    return .ofSettled request (read world request.file) completion.issues completion.tools⟩

/-- Analyses of several files: the reports of those that have one, and the others with the cause. -/
def analyzeFiles (cwd : Path) (linters : List Linter) (execute : Command → StateM σ WorkerOutcome)
    (read : σ → Path → Except FileFault (List UInt8)) (requests : List AnalysisRequest) :
    StateM σ (List AnalysisReport × List (Path × RunFailure)) := do
  let results ← requests.mapM fun r => do
    return (r.file, (← analyze cwd linters execute read r).wait)
  return (results.filterMap (·.2.toOption), results.filterMap fun
    | (file, .error failure) => some (file, failure)
    | _ => none)

end LintGate
