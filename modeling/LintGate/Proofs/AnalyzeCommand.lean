import LintGate.CommandLine.Run
import LintGate.Proofs.PathOrder
import LintGate.Proofs.RefusedAnalysis
import LintGate.Proofs.SettlementOrder

/-!
The command that analyzes sources. Whatever is wrong with what was asked for is found before a tool
is started or anything is printed; otherwise each source has one report, and the exit code and the
totals are those of the reports.
-/

namespace LintGate.Proofs.AnalyzeCommand

open LintGate.CommandLine
open LintGate.Proofs.PathOrder
open LintGate.Proofs.RefusedAnalysis
open LintGate.Proofs.SettlementOrder

section Running

variable {σ : Type} (cwd : Path) (linters : List Linter)

/-- Analyzes one source of several. -/
def analyzeOne (execute : Command → StateM σ WorkerOutcome)
    (read : σ → Path → Except FileFault (List UInt8)) (request : AnalysisRequest) :
    StateM σ (Path × Except RunFailure AnalysisReport) := do
  return (request.file, (← analyze cwd linters execute read request).wait)

theorem analyzeOne_run (execute : Command → StateM σ WorkerOutcome)
    (read : σ → Path → Except FileFault (List UInt8)) (request : AnalysisRequest) (world : σ) :
    ∃ outcomes after,
      (linters.mapM fun l => execute (l.command cwd request.file)).run world = (outcomes, after) ∧
        (analyzeOne cwd linters execute read request).run world =
          ((request.file, .ok (sequentialReport cwd request (read after request.file)
            (linters.zip outcomes))), after) := by
  obtain ⟨outcomes, after, hran, -, hanalyze⟩ := analyze_run cwd request execute read linters world
  have heq : (analyzeOne cwd linters execute read request).run world =
      let ran := (analyze cwd linters execute read request).run world
      ((request.file, ran.1.wait), ran.2) := rfl
  refine ⟨outcomes, after, hran, ?_⟩
  rw [heq, hanalyze]
  rfl

theorem run_mapM_analyzeOne (execute : Command → StateM σ WorkerOutcome)
    (read : σ → Path → Except FileFault (List UInt8)) (requests : List AnalysisRequest)
    (world : σ) :
    ∃ (reports : List AnalysisReport) (after : σ),
      (requests.mapM (analyzeOne cwd linters execute read)).run world =
          (reports.map fun r => (r.file, .ok r), after) ∧
        reports.map (·.file) = requests.map (·.file) := by
  induction requests generalizing world with
  | nil => exact ⟨[], world, rfl, rfl⟩
  | cons request rest ih =>
      obtain ⟨outcomes, next, -, hfirst⟩ := analyzeOne_run cwd linters execute read request world
      obtain ⟨reports, after, hrest, hfiles⟩ := ih next
      let report := sequentialReport cwd request (read next request.file) (linters.zip outcomes)
      refine ⟨report :: reports, after, ?_, ?_⟩
      · rw [run_mapM_cons, hfirst, hrest]
        rfl
      · rw [List.map_cons, List.map_cons, hfiles]
        rfl

theorem analyzeFiles_eq (execute : Command → StateM σ WorkerOutcome)
    (read : σ → Path → Except FileFault (List UInt8)) (requests : List AnalysisRequest)
    (world : σ) :
    (analyzeFiles cwd linters execute read requests).run world =
      let ran := (requests.mapM (analyzeOne cwd linters execute read)).run world
      ((ran.1.filterMap (·.2.toOption), ran.1.filterMap fun
        | (file, .error failure) => some (file, failure)
        | _ => none), ran.2) :=
  rfl

/-- Of several sources each has its report, and they come in the order of the requests. -/
theorem analyzeFiles_run (execute : Command → StateM σ WorkerOutcome)
    (read : σ → Path → Except FileFault (List UInt8)) (requests : List AnalysisRequest)
    (world : σ) :
    ∃ reports after, (analyzeFiles cwd linters execute read requests).run world =
        ((reports, []), after) ∧
      reports.map (·.file) = requests.map (·.file) := by
  obtain ⟨reports, after, hran, hfiles⟩ :=
    run_mapM_analyzeOne cwd linters execute read requests world
  refine ⟨reports, after, ?_, hfiles⟩
  rw [analyzeFiles_eq, hran]
  refine Prod.ext (Prod.ext ?_ ?_) rfl
  · exact List.filterMap_map.trans List.filterMap_some
  · exact List.filterMap_map.trans (List.filterMap_eq_nil_iff.mpr fun _ _ => rfl)

/-- Runs commands and notes down each of them. -/
def noting (execute : Command → StateM σ WorkerOutcome) (c : Command) :
    StateM (σ × List Command) WorkerOutcome := fun world =>
  let (outcome, after) := (execute c).run world.1
  (outcome, after, world.2 ++ [c])

/-- What a step does that is noted down, and the commands it runs. -/
def NotesOf {α β : Type} (f : α → StateM σ β) (g : α → StateM (σ × List Command) β)
    (notes : α → List Command) : Prop :=
  ∀ a world log, (g a).run (world, log) =
    (((f a).run world).1, ((f a).run world).2, log ++ notes a)

theorem NotesOf.mapM {α β : Type} {f : α → StateM σ β} {g : α → StateM (σ × List Command) β}
    {notes : α → List Command} (h : NotesOf f g notes) (xs : List α) (world : σ)
    (log : List Command) :
    (xs.mapM g).run (world, log) =
      (((xs.mapM f).run world).1, ((xs.mapM f).run world).2, log ++ xs.flatMap notes) := by
  induction xs generalizing world log with
  | nil =>
      rw [List.flatMap_nil, List.append_nil]
      rfl
  | cons a rest ih =>
      rw [run_mapM_cons, run_mapM_cons, h, ih, List.flatMap_cons, List.append_assoc]

theorem notesOf_handIn (execute : Command → StateM σ WorkerOutcome) (request : AnalysisRequest) :
    NotesOf (handIn cwd request execute) (handIn cwd request (noting execute))
      fun l => [l.command cwd request.file] := by
  intro l world log
  rfl

theorem run_analyzeOne (execute : Command → StateM σ WorkerOutcome)
    (read : σ → Path → Except FileFault (List UInt8)) (request : AnalysisRequest) (world : σ) :
    (analyzeOne cwd linters execute read request).run world =
      let settled := (linters.mapM (handIn cwd request execute)).run world
      ((request.file, (AnalysisHandle.mk request.file <|
        ((Run.start linters.length).settleFrom 0 settled.1).bind fun run =>
          run.completions.head?.bind fun c =>
            some (.ofSettled request (read settled.2 request.file) c.issues c.tools)).wait),
        settled.2) :=
  rfl

theorem notesOf_analyzeOne (execute : Command → StateM σ WorkerOutcome)
    (read : σ → Path → Except FileFault (List UInt8)) :
    NotesOf (analyzeOne cwd linters execute read)
      (analyzeOne cwd linters (noting execute) fun world => read world.1)
      fun request => linters.map fun l => l.command cwd request.file := by
  intro request world log
  have hlinters := (notesOf_handIn cwd execute request).mapM linters world log
  rw [← List.map_eq_flatMap] at hlinters
  rw [run_analyzeOne, run_analyzeOne, hlinters]

/-- What is run for several sources are the commands of the linters for each, one source after the
other. -/
theorem analyzeFiles_notes (execute : Command → StateM σ WorkerOutcome)
    (read : σ → Path → Except FileFault (List UInt8)) (requests : List AnalysisRequest)
    (world : σ) :
    (analyzeFiles cwd linters (noting execute) (fun world => read world.1) requests).run
        (world, []) =
      let ran := (analyzeFiles cwd linters execute read requests).run world
      (ran.1, ran.2, requests.flatMap fun r => linters.map fun l => l.command cwd r.file) := by
  have hnotes := (notesOf_analyzeOne cwd linters execute read).mapM requests world []
  rw [List.nil_append] at hnotes
  rw [analyzeFiles_eq, analyzeFiles_eq, hnotes]

end Running

section Outcome

variable {s : Host} {named : Option Path} {o : AnalyzeOptions}
  (execute : Command → StateM Host WorkerOutcome)

/-- How many findings the reports have. -/
def issueCount (reports : List AnalysisReport) : Nat :=
  (reports.map (·.issues.length)).sum

theorem totalIssues_eq (reports : List AnalysisReport) :
    totalIssues reports = issueCount reports := by
  have hfold (n : Nat) : reports.foldl (fun n report => n + report.issues.length) n =
      n + issueCount reports := by
    induction reports generalizing n with
    | nil => rfl
    | cons r rest ih =>
        rw [List.foldl_cons, ih, issueCount, issueCount, List.map_cons, List.sum_cons,
          Nat.add_assoc]
  rw [totalIssues, hfold, Nat.zero_add]

theorem any_hasIssues_iff (reports : List AnalysisReport) :
    reports.any (·.hasIssues) = true ↔ issueCount reports ≠ 0 := by
  simp [issueCount, AnalysisReport.hasIssues, List.sum_eq_zero_iff_forall_eq_nat]

/-- Reports of files in ascending order are not put into another order. -/
theorem mergeSort_reports {reports : List AnalysisReport} {files : List Path}
    (hfiles : reports.map (·.file) = files)
    (hsorted : files.Pairwise fun p q => Path.compare p q = .lt) :
    reports.mergeSort (fun a b => (Path.compare a.file b.file).isLE) = reports := by
  rw [← hfiles, List.pairwise_map] at hsorted
  refine List.mergeSort_of_pairwise (hsorted.imp fun {a b} hlt => ?_)
  rw [hlt]
  rfl

theorem pairwise_sources (s : Host) (config : Config) (paths : List Path) :
    (sources s config paths).Pairwise fun p q => Path.compare p q = .lt :=
  pairwise_distinct _

/-- What is left behind where nothing is wrong with what was asked for. -/
theorem analyzeSources_of_planned {config : Config} {profile : Profile} {reference : Option String}
    (h : Planned s named o config profile reference) {reports : List AnalysisReport} {after : Host}
    (hran : (analyzeFiles s.directory (selected config o.tools) execute Host.read
      (planOf s o config profile reference).requests).run s = ((reports, []), after))
    (hfiles : reports.map (·.file) = sources s (override config o) o.paths) :
    analyzeSources s execute named o =
      { stdout := (printed o.format reports).1
        stderr := (printed o.format reports).2
        hasFindings := reports.any (·.hasIssues)
        started := (planOf s o config profile reference).commands s.directory
        files := after.files } := by
  have hsort := mergeSort_reports hfiles (pairwise_sources s (override config o) o.paths)
  have hplan : (planOf s o config profile reference).linters = selected config o.tools := rfl
  have hformat : (planOf s o config profile reference).format = o.format := rfl
  simp only [analyzeSources, make_of_planned h, AnalyzePlan.carryOut, hplan, hformat, hran, hsort,
    AnalyzePlan.failuresText, List.isEmpty_nil, if_true, String.empty_append, Bool.not_true,
    Bool.or_false]

/-- Every source that was found has one report, and what is left behind is that of the reports. -/
structure Reported (s : Host) (named : Option Path) (o : AnalyzeOptions) (config : Config)
    (plan : AnalyzePlan) (reports : List AnalysisReport) (outcome : Outcome) : Prop where
  loaded : loadConfig s named = .ok config
  planned : AnalyzePlan.make s named o = .ok plan
  files : reports.map (·.file) = sources s (override config o) o.paths
  distinct : (sources s (override config o) o.paths).Pairwise fun p q => Path.compare p q = .lt
  /-- The reports come from running what is said to be started. -/
  ran : ∃ after, (analyzeFiles s.directory plan.linters (noting execute) (fun world => world.1.read)
      plan.requests).run (s, []) = ((reports, []), after, outcome.started) ∧
    outcome.files = after.files
  code : outcome.code = if issueCount reports = 0 then 0 else 1
  code_format : ∀ format,
    (analyzeSources s execute named { o with format := format }).code = outcome.code
  text : o.format = .text → outcome.stdout = String.join (reports.map issuesText) ++
    s!"\nAnalyzed {reports.length} files, found {issueCount reports} issues\n"
  json : o.format = .json → outcome.stdout = reportsJson reports

theorem exists_reported {config : Config} {profile : Profile} {reference : Option String}
    (h : Planned s named o config profile reference) :
    ∃ reports, Reported execute s named o config (planOf s o config profile reference) reports
      (analyzeSources s execute named o) := by
  let plan := planOf s o config profile reference
  obtain ⟨reports, after, hran, hrequests⟩ :=
    analyzeFiles_run s.directory (selected config o.tools) execute Host.read plan.requests s
  have hfiles : reports.map (·.file) = sources s (override config o) o.paths := by
    rw [hrequests]
    exact List.map_map.trans (List.map_id _)
  have houtcome := analyzeSources_of_planned execute h hran hfiles
  have hnotes := analyzeFiles_notes s.directory (selected config o.tools) execute Host.read
    plan.requests s
  rw [hran] at hnotes
  have hcode {format : OutputFormat} :
      (analyzeSources s execute named { o with format := format }).code =
        if issueCount reports = 0 then 0 else 1 := by
    have hformat : Planned s named { o with format := format } config profile reference :=
      ⟨h.loaded, h.known, h.selects, h.profiled, h.referenced⟩
    rw [analyzeSources_of_planned execute hformat hran hfiles, Outcome.code]
    simp only [Option.isSome_none, Bool.false_eq_true, if_false, any_hasIssues_iff, ite_not]
  refine ⟨reports, h.loaded, make_of_planned h, hfiles, pairwise_sources _ _ _, ⟨after, ?_, ?_⟩,
    @hcode o.format, ?_, ?_, ?_⟩
  · rw [houtcome]
    exact hnotes
  · rw [houtcome]
  · intro format
    rw [hcode]
    exact (@hcode o.format).symm
  · intro htext
    rw [houtcome, htext]
    simp only [printed, summaryText, totalIssues_eq]
  · intro hjson
    rw [houtcome, hjson]
    rfl

end Outcome

/-- What the command that analyzes sources leaves behind, whatever the tools do. The exit code is 2
just where what was asked for cannot be done; then no tool is started, nothing is printed or
changed, and no tool has a say in the outcome. Otherwise each source has one report, the exit code
tells whether the reports have findings, and the totals are those of the reports. -/
theorem run_analyze {arguments : List String} {i : Invocation} {o : AnalyzeOptions} (s : Host)
    (hi : Invocation.ofArguments arguments = .ok i) (ho : i.task = .analyze o) :
    CommandLine.run s arguments = .ok (analyzeSources s (Host.work false) i.config o) ∧
    ∀ execute : Command → StateM Host WorkerOutcome,
      let outcome := analyzeSources s execute i.config o
      (outcome.code = 2 ↔ Refused s i.config o) ∧
      (outcome.code = 2 → outcome.started = [] ∧ outcome.stdout = "" ∧ outcome.stderr = "" ∧
        outcome.files = s.files ∧ ∀ other, analyzeSources s other i.config o = outcome) ∧
      (outcome.code ≠ 2 → ∃ config plan reports,
        Reported execute s i.config o config plan reports outcome) := by
  constructor
  · rw [CommandLine.run, hi, Except.map, Invocation.run, ho]
  · intro execute outcome
    rcases refused_or_planned s i.config o with hrefused | ⟨config, profile, reference, hplanned⟩
    · obtain ⟨f, hf⟩ := exists_failure_of_refused hrefused
      have houtcome (other : Command → StateM Host WorkerOutcome) :
          analyzeSources s other i.config o = .ofFailure s f := by
        rw [analyzeSources, hf]
      have hcode : outcome.code = 2 := congrArg Outcome.code (houtcome execute)
      refine ⟨⟨fun _ => hrefused, fun _ => hcode⟩, fun _ => ?_, fun hne => absurd hcode hne⟩
      have hother := fun other => (houtcome other).trans (houtcome execute).symm
      have hself : outcome = .ofFailure s f := houtcome execute
      refine ⟨?_, ?_, ?_, ?_, hother⟩
      all_goals
        rw [hself]
        rfl
    · obtain ⟨reports, hreported⟩ := exists_reported execute hplanned
      have hcode : outcome.code ≠ 2 := by
        rw [hreported.code]
        split <;> decide
      refine ⟨⟨fun h => absurd h hcode, fun h => absurd h (not_refused_of_planned hplanned)⟩,
        fun h => absurd h hcode, fun _ => ⟨config, _, reports, hreported⟩⟩

/-- The exit code of a command line that has sources analyzed. -/
def codeOf (s : Host) (execute : Command → StateM Host WorkerOutcome) (arguments : List String) :
    Option Nat :=
  match Invocation.ofArguments arguments with
  | .ok ⟨named, _, .analyze o⟩ => some (analyzeSources s execute named o).code
  | _ => none

theorem exists_of_codeOf {s : Host} {execute : Command → StateM Host WorkerOutcome}
    {arguments : List String} {n : Nat} (h : codeOf s execute arguments = some n) :
    ∃ i o, Invocation.ofArguments arguments = .ok i ∧ i.task = .analyze o ∧
      (analyzeSources s execute i.config o).code = n := by
  unfold codeOf at h
  split at h
  · rename_i named verbose o heq
    exact ⟨_, o, heq, rfl, Option.some.inj h⟩
  · cases h

/-- A directory with a source, a configuration with one tool, and a profile with one rule. -/
def oneSource : Host where
  files := .directory [
    (".cxxlens.json", .ofText "\x7b \"profile\": \"p.json\",
      \"tools\": \x7b \"custom\": \x7b \"executable\": \"lint\" \x7d \x7d \x7d"),
    ("a.c", .ofText "int x;\n"),
    ("p.json", .ofText "\x7b \"rules\": [\x7b \"key\": \"other.long\" \x7d] \x7d")]
  directory := Path.ofString "/"
  environment := []

/-- A tool that finds something on the source. -/
def findsLong : Command → StateM Host WorkerOutcome := fun _ =>
  pure (.output { stderr := ["/a.c(1): too long [long]"] })

/-- The tool is run and its finding counts; a name that is that of no tool is refused. -/
theorem run_analyze_oneSource :
    (∃ i o config plan reports, Invocation.ofArguments ["analyze", "a.c"] = .ok i ∧
      i.task = .analyze o ∧ issueCount reports ≠ 0 ∧
      Reported findsLong oneSource i.config o config plan reports
        (analyzeSources oneSource findsLong i.config o)) ∧
    ∃ i o, Invocation.ofArguments ["analyze", "a.c", "--tool", "nosuch"] = .ok i ∧
      i.task = .analyze o ∧ Refused oneSource i.config o := by
  have hfound : codeOf oneSource findsLong ["analyze", "a.c"] = some 1 := by decide +kernel
  have hunknown : codeOf oneSource findsLong ["analyze", "a.c", "--tool", "nosuch"] = some 2 := by
    decide +kernel
  constructor
  · obtain ⟨i, o, hi, ho, hcode⟩ := exists_of_codeOf hfound
    obtain ⟨-, -, hreported⟩ := (run_analyze oneSource hi ho).2 findsLong
    obtain ⟨config, plan, reports, h⟩ := hreported (by rw [hcode]; decide)
    refine ⟨i, o, config, plan, reports, hi, ho, fun hzero => ?_, h⟩
    have hnone := h.code
    rw [hcode, hzero] at hnone
    cases hnone
  · obtain ⟨i, o, hi, ho, hcode⟩ := exists_of_codeOf hunknown
    exact ⟨i, o, hi, ho, ((run_analyze oneSource hi ho).2 findsLong).1.mp hcode⟩

end LintGate.Proofs.AnalyzeCommand
