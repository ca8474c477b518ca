import LintGate.Proofs.CompletionBarrier
import Mathlib

/-!
The numbers in a report. What the tools are said to have kept adds up to the findings of the report
and those that were dropped from it, and a tool that did not complete has no part in either.
-/

namespace LintGate.Proofs.ReportAccounting

open LintGate.Interleaving
open LintGate.Proofs.CompletionBarrier
open LintGate.Proofs.InterleavingInvariant
open LintGate.Proofs.IssueOrder
open LintGate.Proofs.SettlementOrder

theorem length_correlate_le (cwd : Path) (request : AnalysisRequest) (issues : List Issue) :
    (correlate cwd request issues).length ≤ issues.length :=
  Nat.le_trans (List.length_filterMap_le ..) (List.length_filter_le ..)

section Filter

variable {content : Except FileFault (List UInt8)} {reference : Option String} {issues : List Issue}

theorem filter_ne_notRequested :
    (DiffOutcome.filter content reference issues).2 ≠ .notRequested := by
  unfold DiffOutcome.filter
  split
  · exact nofun
  · split <;> exact nofun

/-- Where the restriction is skipped, nothing is dropped. -/
theorem filter_of_skipped {cause : SkipCause}
    (h : (DiffOutcome.filter content reference issues).2 = .skipped cause) :
    (DiffOutcome.filter content reference issues).1 = issues := by
  unfold DiffOutcome.filter at h ⊢
  split
  · rfl
  · split
    · rfl
    · simp at h

/-- Where it is applied, it counts the findings that stay and those that do not. -/
theorem filter_of_applied {kept dropped : Nat}
    (h : (DiffOutcome.filter content reference issues).2 = .applied kept dropped) :
    kept = (DiffOutcome.filter content reference issues).1.length ∧
      issues.length = kept + dropped := by
  unfold DiffOutcome.filter at h ⊢
  split at h
  · cases h
  · split at h
    · cases h
    · rename_i original _ bytes
      obtain ⟨rfl, rfl⟩ := DiffOutcome.applied.inj h
      refine ⟨rfl, ?_⟩
      let script := EditScript.between original (Text.Utf8.decodeLossy bytes)
      have hle : (script.retainChanged issues).length ≤ issues.length := List.length_filter_le _ _
      exact (Nat.add_sub_of_le hle).symm

theorem filter_sublist : (DiffOutcome.filter content reference issues).1.Sublist issues := by
  unfold DiffOutcome.filter
  split
  · exact .refl issues
  · split
    · exact .refl issues
    · exact List.filter_sublist

end Filter

section

variable (cwd : Path) (request : AnalysisRequest)

/-- Whether the tool of a slot completed. -/
def isCompleted (slot : Linter × WorkerOutcome) : Bool :=
  (slotSettlement cwd request slot).2.status.isCompleted

/-- The numbers of a report on the tools in these slots. -/
structure Accounted (content : Except FileFault (List UInt8))
    (slots : List (Linter × WorkerOutcome)) (report : AnalysisReport) : Prop where
  /-- Each slot has its report at its place. -/
  tools : report.tools = slots.map fun slot => (slotSettlement cwd request slot).2
  kept_le : ∀ t ∈ report.tools, t.kept ≤ t.reported
  /-- A tool that did not complete has printed nothing that counts. -/
  numbers_of_failed : ∀ t ∈ report.tools, t.status.isCompleted = false →
    t.reported = 0 ∧ t.kept = 0 ∧ t.skipped = 0
  /-- The findings are those that the completed tools have without the others. -/
  issues_of_completed : report.issues =
    (sequentialReport cwd request content (slots.filter (isCompleted cwd request))).issues
  sum_of_notRequested : report.diff = .notRequested →
    (report.tools.map (·.kept)).sum = report.issues.length
  sum_of_skipped : ∀ cause, report.diff = .skipped cause →
    (report.tools.map (·.kept)).sum = report.issues.length
  sum_of_applied : ∀ kept dropped, report.diff = .applied kept dropped →
    (report.tools.map (·.kept)).sum = kept + dropped ∧ report.issues.length = kept
  notRequested_iff : report.diff = .notRequested ↔ request.modifiedLinesOnly = false
  /-- The findings are in ascending order of line, rule id and message. -/
  sorted : report.issues.Pairwise fun i j => AnalysisReport.inOrder i j = true

variable {cwd request} {slot : Linter × WorkerOutcome} {slots : List (Linter × WorkerOutcome)}

theorem kept_eq_length (slot : Linter × WorkerOutcome) :
    (slotSettlement cwd request slot).2.kept = (slotIssues cwd request slot).length := by
  obtain ⟨linter, outcome⟩ := slot
  cases outcome with
  | failure f => cases f <;> rfl
  | _ => rfl

theorem kept_le_reported (slot : Linter × WorkerOutcome) :
    (slotSettlement cwd request slot).2.kept ≤ (slotSettlement cwd request slot).2.reported := by
  obtain ⟨linter, outcome⟩ := slot
  cases outcome with
  | output o => exact length_correlate_le cwd request _
  | failure f => cases f <;> exact Nat.le_refl 0
  | _ => exact Nat.le_refl 0

theorem numbers_of_not_completed (h : isCompleted cwd request slot = false) :
    (slotSettlement cwd request slot).2.reported = 0 ∧
      (slotSettlement cwd request slot).2.kept = 0 ∧
      (slotSettlement cwd request slot).2.skipped = 0 := by
  obtain ⟨linter, outcome⟩ := slot
  cases outcome with
  | output o => cases h
  | failure f => cases f <;> exact ⟨rfl, rfl, rfl⟩
  | _ => exact ⟨rfl, rfl, rfl⟩

theorem slotIssues_of_not_completed (h : isCompleted cwd request slot = false) :
    slotIssues cwd request slot = [] := by
  rw [← List.length_eq_zero_iff, ← kept_eq_length]
  exact (numbers_of_not_completed h).2.1

/-- Slots without a completed tool add nothing to the findings of the others. -/
theorem flatMap_slotIssues_filter (slots : List (Linter × WorkerOutcome)) :
    (slots.filter (isCompleted cwd request)).flatMap (slotIssues cwd request) =
      slots.flatMap (slotIssues cwd request) := by
  induction slots with
  | nil => rfl
  | cons slot rest ih =>
      cases hslot : isCompleted cwd request slot with
      | true => rw [List.filter_cons_of_pos hslot, List.flatMap_cons, List.flatMap_cons, ih]
      | false =>
          rw [List.filter_cons_of_neg (by simp [hslot]), List.flatMap_cons,
            slotIssues_of_not_completed hslot, List.nil_append, ih]

theorem sum_kept_eq (slots : List (Linter × WorkerOutcome)) :
    ((slots.map fun slot => (slotSettlement cwd request slot).2).map (·.kept)).sum =
      (slots.flatMap (slotIssues cwd request)).length := by
  rw [List.map_map, List.length_flatMap]
  exact congrArg List.sum (List.map_congr_left fun slot _ => kept_eq_length slot)

/-- The report of tools that run one after another is accounted for. -/
theorem accounted_sequentialReport (content : Except FileFault (List UInt8))
    (slots : List (Linter × WorkerOutcome)) :
    Accounted cwd request content slots (sequentialReport cwd request content slots) := by
  let sorted := (slots.flatMap (slotIssues cwd request)).mergeSort AnalysisReport.inOrder
  let changed := DiffOutcome.filter content request.reference sorted
  have hsorted : sorted.Pairwise fun i j => AnalysisReport.inOrder i j = true :=
    List.pairwise_mergeSort inOrder_trans inOrder_total _
  have hsum : ((sequentialReport cwd request content slots).tools.map (·.kept)).sum =
      sorted.length := by
    rw [List.length_mergeSort]
    exact sum_kept_eq slots
  have hissues : (sequentialReport cwd request content slots).issues =
      if request.modifiedLinesOnly then changed.1 else sorted := rfl
  have hdiff : (sequentialReport cwd request content slots).diff =
      if request.modifiedLinesOnly then changed.2 else .notRequested := rfl
  constructor
  case tools => rfl
  case kept_le =>
      intro t ht
      obtain ⟨slot, _, rfl⟩ := List.mem_map.mp ht
      exact kept_le_reported slot
  case numbers_of_failed =>
      intro t ht hfailed
      obtain ⟨slot, _, rfl⟩ := List.mem_map.mp ht
      exact numbers_of_not_completed hfailed
  case issues_of_completed =>
      rw [sequentialReport, sequentialReport, flatMap_slotIssues_filter]
  case sum_of_notRequested =>
      intro h
      cases hmodified : request.modifiedLinesOnly with
      | true => simp [hdiff, hmodified, changed, filter_ne_notRequested] at h
      | false => simpa [hissues, hmodified] using hsum
  case sum_of_skipped =>
      intro cause h
      cases hmodified : request.modifiedLinesOnly with
      | true =>
          rw [hdiff, if_pos hmodified] at h
          rw [hissues, if_pos hmodified, filter_of_skipped h]
          exact hsum
      | false => simp [hdiff, hmodified] at h
  case sum_of_applied =>
      intro kept dropped h
      cases hmodified : request.modifiedLinesOnly with
      | true =>
          rw [hdiff, if_pos hmodified] at h
          obtain ⟨hkept, htotal⟩ := filter_of_applied h
          rw [hissues, if_pos hmodified]
          exact ⟨hsum.trans htotal, hkept.symm⟩
      | false => simp [hdiff, hmodified] at h
  case notRequested_iff =>
      cases hmodified : request.modifiedLinesOnly <;>
        simp [hdiff, hmodified, changed, filter_ne_notRequested]
  case sorted =>
      rw [hissues]
      split
      · exact hsorted.sublist filter_sublist
      · exact hsorted

end

/-- Whatever the threads and the caller have done, and however the file reads at the end, the report
of a run that is complete is accounted for. -/
theorem report_accounted {cwd : Path} {request : AnalysisRequest} {linters : List Linter}
    {s : State} (hreach : Reachable cwd request linters s) {c : Completion}
    (hcompletion : c ∈ s.run.completions) (content : Except FileFault (List UInt8)) :
    ∃ outcomes, s.workers.map Worker.outcome? = outcomes.map some ∧
      Accounted cwd request content (linters.zip outcomes)
        (.ofSettled request content c.issues c.tools) := by
  obtain ⟨outcomes, houtcomes, heq⟩ :=
    ofSettled_of_completion (inv_of_reachable hreach) hcompletion
  refine ⟨outcomes, houtcomes, ?_⟩
  rw [heq content]
  exact accounted_sequentialReport content _

/-- A tool that prints three findings, one of them on another file, and a line that is none. -/
def mixedOutcome : WorkerOutcome :=
  .output {
    stderr := ["/w/a.cpp(1): too long [line/length]", "/w/a.cpp(2): too long [line/length]",
      "/w/b.cpp(1): too long [line/length]", "done"]
    exitCode := some 1 }

def mixedLinters : List Linter :=
  [.make .other { executable := Path.ofString "lint" } none,
    .make .pclint { executable := Path.ofString "pclint" } none]

def mixedRequest : AnalysisRequest where
  file := Path.ofString "/w/a.cpp"
  profile := (Profile.empty "c++").insert ⟨"other.line/length", .minor, none, true⟩
  modifiedLinesOnly := true
  reference := some "int x;\n"

def mixedSlots : List (Linter × WorkerOutcome) :=
  mixedLinters.zip [mixedOutcome, .notStarted "no thread"]

def mixedCompletion : Completion where
  issues := mixedSlots.flatMap (slotIssues (Path.ofString "/") mixedRequest)
  tools := mixedSlots.map fun slot => (slotSettlement (Path.ofString "/") mixedRequest slot).2

/-- The second tool could not be started, and the first has just completed the run. -/
def mixedState : State where
  run := ⟨[], [], 0, [mixedCompletion]⟩
  workers := [.settled mixedOutcome, .ended (.notStarted "no thread")]
  caller := .holding
  cancelled := false
  channel := none
  sends := []

theorem mixedState_reachable :
    Reachable (Path.ofString "/") mixedRequest mixedLinters mixedState := by
  have hstarted : Reachable (Path.ofString "/") mixedRequest mixedLinters _ :=
    .step .start (.startWorker rfl (by decide))
  have hfailed := hstarted.step (@Step.startFails _ _ _ _ _ 1 _ "no thread" rfl rfl rfl)
  have hgiven := hfailed.step (.giveHandle rfl)
  exact hgiven.step (@Step.finish _ _ _ _ _ 0 _ mixedOutcome rfl rfl rfl rfl)

/-- The first line of the file is new and the second is not. -/
theorem report_accounted_mixed :
    Reachable (Path.ofString "/") mixedRequest mixedLinters mixedState ∧
      mixedCompletion ∈ mixedState.run.completions ∧
      mixedCompletion.tools.map (fun t => (t.reported, t.kept, t.skipped)) =
        [(3, 2, 1), (0, 0, 0)] ∧
      ∃ outcomes, mixedState.workers.map Worker.outcome? = outcomes.map some ∧
        Accounted (Path.ofString "/") mixedRequest (.ok (Text.Utf8.encode "int w;\nint x;\n"))
          (mixedLinters.zip outcomes)
          (.ofSettled mixedRequest (.ok (Text.Utf8.encode "int w;\nint x;\n"))
            mixedCompletion.issues mixedCompletion.tools) := by
  have hcompletion : mixedCompletion ∈ mixedState.run.completions := List.mem_singleton_self _
  exact ⟨mixedState_reachable, hcompletion, by decide +kernel,
    report_accounted mixedState_reachable hcompletion _⟩

end LintGate.Proofs.ReportAccounting
