import LintGate.Proofs.IssueOrder
import LintGate.Proofs.RunProgress

/-!
The order in which the workers of a run settle their slots does not show in its report. Every order
leads to the report that tools give which run one after another.
-/

namespace LintGate.Proofs.SettlementOrder

open LintGate.Proofs.IssueOrder
open LintGate.Proofs.RunProgress

/-- Settles the slots in the order in which they are named, each with its own settlement. -/
def settleInOrder (settlements : List Settlement) : List Nat → Run → Option Run
  | [], run => some run
  | i :: rest, run => do
      let settlement ← settlements[i]?
      settleInOrder settlements rest (← run.settle i settlement.1 settlement.2)

/-- Slots that are open and named once are settled, and no other slot changes. -/
theorem settleInOrder_tracks (settlements : List Settlement) (order : List Nat)
    (given : List (Option Settlement)) (run : Run) (h : Tracks given run) (hnodup : order.Nodup)
    (hopen : ∀ i ∈ order, given[i]? = some none ∧ i < settlements.length) :
    ∃ next, settleInOrder settlements order run = some next ∧
      ∃ given', Tracks given' next ∧
        ∀ j : Nat, given'[j]? = if j ∈ order then settlements[j]?.map some else given[j]? := by
  induction order generalizing given run with
  | nil => exact ⟨run, rfl, given, h, by simp⟩
  | cons i rest ih =>
      obtain ⟨hfresh, hrest⟩ := List.nodup_cons.mp hnodup
      obtain ⟨hi, hlt⟩ := hopen i List.mem_cons_self
      obtain ⟨⟨issues, report⟩, hown⟩ : ∃ own, settlements[i]? = some own :=
        ⟨_, List.getElem?_eq_getElem hlt⟩
      obtain ⟨mid, hmid, htracks⟩ := h.settle hi issues report
      have hstill : ∀ j ∈ rest, (given.set i (some (issues, report)))[j]? = some none ∧
          j < settlements.length := by
        intro j hj
        have hne : i ≠ j := fun heq => hfresh (heq ▸ hj)
        rw [List.getElem?_set_ne hne]
        exact hopen j (List.mem_cons_of_mem i hj)
      obtain ⟨next, hnext, given', htracks', hgiven'⟩ := ih _ mid htracks hrest hstill
      refine ⟨next, ?_, given', htracks', ?_⟩
      · simp only [settleInOrder, hown, Option.bind_eq_bind, Option.bind_some, hmid, hnext]
      · intro j
        rw [hgiven' j]
        by_cases hj : i = j
        · subst hj
          have hlength : i < given.length := (List.getElem?_eq_some_iff.mp hi).1
          simp [hfresh, hlength, hown]
        · simp [List.getElem?_set_ne hj, Ne.symm hj]

/-- Once every slot has been settled, in whatever order, the run has been completed once, with the
reports slot after slot and all the findings. -/
theorem settleInOrder_completes (settlements : List Settlement) (order : List Nat)
    (horder : order.Perm (List.range settlements.length)) :
    ∃ run issues, settleInOrder settlements order (Run.start settlements.length) = some run ∧
      run.completions = [⟨issues, settlements.map Prod.snd⟩] ∧
      issues.Perm (settlements.flatMap Prod.fst) := by
  have hmem (i : Nat) : i ∈ order ↔ i < settlements.length := by
    rw [horder.mem_iff, List.mem_range]
  have hnodup : order.Nodup := horder.nodup_iff.mpr List.nodup_range
  have hopen : ∀ i ∈ order,
      (List.replicate settlements.length (none : Option Settlement))[i]? = some none ∧
        i < settlements.length := by
    intro i hi
    have hlt : i < settlements.length := (hmem i).mp hi
    exact ⟨by simp [hlt], hlt⟩
  obtain ⟨run, hrun, given, htracks, hgiven⟩ :=
    settleInOrder_tracks settlements order _ _ (tracks_start settlements.length) hnodup hopen
  obtain rfl : given = settlements.map some := by
    refine List.ext_getElem? fun j => ?_
    rw [hgiven j, List.getElem?_map]
    by_cases hj : j < settlements.length
    · simp [(hmem j).mpr hj]
    · have hout : j ∉ order := fun hin => hj ((hmem j).mp hin)
      simp [hout, hj]
  obtain ⟨issues, hcompletions, hperm⟩ := htracks.completions_of_closed (by simp)
  rw [reportsOf_map_some] at hcompletions
  rw [issuesOf_map_some] at hperm
  exact ⟨run, issues, hrun, hcompletions, hperm⟩

/-- Settling slot after slot is one of the orders. -/
theorem settleFrom_eq_settleInOrder (before rest : List Settlement) (run : Run) :
    run.settleFrom before.length rest =
      settleInOrder (before ++ rest) (List.range' before.length rest.length) run := by
  induction rest generalizing before run with
  | nil => rfl
  | cons own rest ih =>
      have hown : (before ++ own :: rest)[before.length]? = some own := by simp
      have hnext (next : Run) := ih (before ++ [own]) next
      simp only [List.length_append, List.length_singleton, List.append_assoc,
        List.singleton_append] at hnext
      simp only [Run.settleFrom, List.length_cons, List.range'_succ, settleInOrder, hown, hnext,
        Option.bind_eq_bind, Option.bind_some]

section

variable (cwd : Path) (request : AnalysisRequest)

/-- What the worker of a slot hands in: the tool of the slot, and how its worker ended. -/
def slotSettlement (slot : Linter × WorkerOutcome) : Settlement :=
  slot.2.settlement cwd slot.1 request

/-- The findings of a slot that count. A slot without output has none. -/
def slotIssues : Linter × WorkerOutcome → List Issue
  | (linter, .output o) => correlate cwd request (linter.read (o.lines linter.stream)).issues
  | (_, _) => []

/-- The report of tools that run one after another: the findings of all slots in the order of
reports, restricted to changed lines if that is asked for, and the reports of the tools. -/
def sequentialReport (content : Except FileFault (List UInt8))
    (slots : List (Linter × WorkerOutcome)) : AnalysisReport :=
  let sorted := (slots.flatMap (slotIssues cwd request)).mergeSort AnalysisReport.inOrder
  let changed := DiffOutcome.filter content request.reference sorted
  { file := request.file
    issues := if request.modifiedLinesOnly then changed.1 else sorted
    tools := slots.map fun slot => (slotSettlement cwd request slot).2
    diff := if request.modifiedLinesOnly then changed.2 else .notRequested }

theorem slotSettlement_fst (slot : Linter × WorkerOutcome) :
    (slotSettlement cwd request slot).1 = slotIssues cwd request slot := by
  obtain ⟨linter, outcome⟩ := slot
  cases outcome with
  | failure f => cases f <;> rfl
  | _ => rfl

theorem annotated_of_mem_slotIssues {slot : Linter × WorkerOutcome} {i : Issue}
    (hmem : i ∈ slotIssues cwd request slot) : Annotated request i := by
  obtain ⟨linter, outcome⟩ := slot
  cases outcome with
  | output o => exact annotated_of_mem_correlate hmem
  | _ => cases hmem

/-- Findings in any arrangement make the sequential report. -/
theorem ofSettled_eq_sequentialReport (content : Except FileFault (List UInt8))
    (slots : List (Linter × WorkerOutcome)) {issues : List Issue}
    (hperm : issues.Perm (slots.flatMap (slotIssues cwd request))) :
    AnalysisReport.ofSettled request content issues
        (slots.map fun slot => (slotSettlement cwd request slot).2) =
      sequentialReport cwd request content slots := by
  have hannotated : ∀ i ∈ issues, Annotated request i := by
    intro i hi
    obtain ⟨slot, _, hmem⟩ := List.mem_flatMap.mp (hperm.mem_iff.mp hi)
    exact annotated_of_mem_slotIssues cwd request hmem
  rw [AnalysisReport.ofSettled, sequentialReport, mergeSort_eq_of_perm hperm hannotated]
  cases request.modifiedLinesOnly <;> rfl

theorem run_mapM_cons {σ α β : Type} (f : α → StateM σ β) (a : α) (rest : List α) (world : σ) :
    ((a :: rest).mapM f).run world =
      (((f a).run world).1 :: ((rest.mapM f).run ((f a).run world).2).1,
        ((rest.mapM f).run ((f a).run world).2).2) := by
  rw [List.mapM_cons]
  rfl

/-- Lets a tool look at the file and hands in what it found. -/
def handIn {σ : Type} (execute : Command → StateM σ WorkerOutcome) (l : Linter) :
    StateM σ Settlement := do
  return (← execute (l.command cwd request.file)).settlement cwd l request

theorem run_mapM_handIn {σ : Type} (execute : Command → StateM σ WorkerOutcome)
    (linters : List Linter) (world : σ) :
    ∃ outcomes after,
      (linters.mapM fun l => execute (l.command cwd request.file)).run world = (outcomes, after) ∧
        outcomes.length = linters.length ∧
        (linters.mapM (handIn cwd request execute)).run world =
          ((linters.zip outcomes).map (slotSettlement cwd request), after) := by
  induction linters generalizing world with
  | nil => exact ⟨[], world, rfl, rfl, rfl⟩
  | cons l rest ih =>
      let first := (execute (l.command cwd request.file)).run world
      have hfirst : (handIn cwd request execute l).run world =
          (slotSettlement cwd request (l, first.1), first.2) := rfl
      obtain ⟨outcomes, after, hrun, hlength, hsettled⟩ := ih first.2
      refine ⟨first.1 :: outcomes, after, ?_, by simp [hlength], ?_⟩
      · rw [run_mapM_cons, hrun]
      · rw [run_mapM_cons, hfirst, hsettled]
        rfl

/-- An analysis always delivers the sequential report, made of what the tools did in their order and
of the file as they left it. -/
theorem analyze_run {σ : Type} (execute : Command → StateM σ WorkerOutcome)
    (read : σ → Path → Except FileFault (List UInt8)) (linters : List Linter) (world : σ) :
    ∃ outcomes after,
      (linters.mapM fun l => execute (l.command cwd request.file)).run world = (outcomes, after) ∧
        outcomes.length = linters.length ∧
        (analyze cwd linters execute read request).run world =
          (⟨request.file, some (sequentialReport cwd request (read after request.file)
            (linters.zip outcomes))⟩, after) := by
  obtain ⟨outcomes, after, hrun, hlength, hsettled⟩ :=
    run_mapM_handIn cwd request execute linters world
  refine ⟨outcomes, after, hrun, hlength, ?_⟩
  have hsize : ((linters.zip outcomes).map (slotSettlement cwd request)).length =
      linters.length := by
    simp [hlength]
  obtain ⟨run, issues, hsettle, hcompletions, hperm⟩ := settleInOrder_completes
    ((linters.zip outcomes).map (slotSettlement cwd request)) _ (.refl _)
  have hfrom : (Run.start linters.length).settleFrom 0
      ((linters.zip outcomes).map (slotSettlement cwd request)) = some run := by
    have h := settleFrom_eq_settleInOrder [] ((linters.zip outcomes).map
      (slotSettlement cwd request)) (Run.start linters.length)
    rw [hsize] at h
    rw [← hsettle, List.range_eq_range', hsize]
    exact h
  simp only [List.flatMap_map, slotSettlement_fst] at hperm
  have hreport := ofSettled_eq_sequentialReport cwd request (read after request.file) _ hperm
  have hrun_eq : (analyze cwd linters execute read request).run world =
      let settled := (linters.mapM (handIn cwd request execute)).run world
      (⟨request.file, ((Run.start linters.length).settleFrom 0 settled.1).bind fun run =>
        run.completions.head?.bind fun c =>
          some (.ofSettled request (read settled.2 request.file) c.issues c.tools)⟩, settled.2) :=
    rfl
  rw [hrun_eq, hsettled, ← hreport]
  simp only [hfrom, Option.bind_some, hcompletions, List.head?_cons, List.map_map]
  rfl

/-- The report of a run does not depend on the order in which its slots are settled. Whatever the
tools did, every order completes the run once, loses no finding and adds none, and leads to the
sequential report. -/
theorem settleInOrder_report (content : Except FileFault (List UInt8))
    (slots : List (Linter × WorkerOutcome)) (order : List Nat)
    (horder : order.Perm (List.range slots.length)) :
    ∃ run issues tools,
      settleInOrder (slots.map (slotSettlement cwd request)) order (Run.start slots.length) =
          some run ∧
        run.completions = [⟨issues, tools⟩] ∧
        tools = (slots.map fun slot => (slotSettlement cwd request slot).2) ∧
        issues.Perm (slots.flatMap (slotIssues cwd request)) ∧
        AnalysisReport.ofSettled request content issues tools =
          sequentialReport cwd request content slots := by
  have horder' : order.Perm (List.range (slots.map (slotSettlement cwd request)).length) := by
    rwa [List.length_map]
  obtain ⟨run, issues, hrun, hcompletions, hperm⟩ :=
    settleInOrder_completes (slots.map (slotSettlement cwd request)) order horder'
  rw [List.length_map] at hrun
  rw [List.map_map] at hcompletions
  simp only [List.flatMap_map, slotSettlement_fst] at hperm
  exact ⟨run, issues, _, hrun, hcompletions, rfl, hperm,
    ofSettled_eq_sequentialReport cwd request content slots hperm⟩

end

/-- Two tools that print one and the same finding, and between them a tool that was stopped. -/
def tiedSlots : List (Linter × WorkerOutcome) :=
  let tool := Linter.make .other { executable := Path.ofString "lint" } none
  let printed : WorkerOutcome := .output { stderr := ["/w/a.cpp(7): too long [line/length]"] }
  [(tool, printed), (tool, .failure (.timedOut "lint")), (tool, printed)]

def tiedRequest : AnalysisRequest where
  file := Path.ofString "/w/a.cpp"
  profile := (Profile.empty "c++").insert ⟨"other.line/length", .minor, none, true⟩

theorem settleInOrder_report_tied :
    [2, 0, 1].Perm (List.range tiedSlots.length) ∧
      (tiedSlots.flatMap (slotIssues (Path.ofString "/") tiedRequest)).length = 2 ∧
      ∃ run issues tools,
        settleInOrder (tiedSlots.map (slotSettlement (Path.ofString "/") tiedRequest)) [2, 0, 1]
            (Run.start tiedSlots.length) = some run ∧
          run.completions = [⟨issues, tools⟩] ∧
          tools = (tiedSlots.map fun slot =>
            (slotSettlement (Path.ofString "/") tiedRequest slot).2) ∧
          issues.Perm (tiedSlots.flatMap (slotIssues (Path.ofString "/") tiedRequest)) ∧
          AnalysisReport.ofSettled tiedRequest (.error .missing) issues tools =
            sequentialReport (Path.ofString "/") tiedRequest (.error .missing) tiedSlots :=
  ⟨by decide, by decide +kernel,
    settleInOrder_report (Path.ofString "/") tiedRequest (.error .missing) tiedSlots [2, 0, 1]
      (by decide)⟩

end LintGate.Proofs.SettlementOrder
