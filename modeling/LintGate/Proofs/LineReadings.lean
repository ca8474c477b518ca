import LintGate.Linter.Basic
import LintGate.Proofs.Fields
import Mathlib.Data.List.Forall2

/-!
Lines that are read one by one. In whatever grammar they are read, every line gives one finding, or
is skipped as it is for the reason that the grammar gives.
-/

namespace LintGate.Proofs.LineReadings

open LintGate.Proofs.Fields

variable (grammar : List Char → Except SkipReason FindingLine) (ruleId : String → String)

theorem readAll_cons (line : String) (rest : List String) :
    FindingLine.readAll grammar ruleId (line :: rest) =
      Reading.append
        (match grammar line.toList with
          | .ok found => .found (.reported (ruleId found.rule) found.message found.line found.file)
          | .error reason => .skip line reason)
        (FindingLine.readAll grammar ruleId rest) :=
  rfl

theorem readAll_singleton (line : String) :
    FindingLine.readAll grammar ruleId [line] =
      match grammar line.toList with
      | .ok found => .found (.reported (ruleId found.rule) found.message found.line found.file)
      | .error reason => .skip line reason :=
  concat_singleton _

/-- The issues are those of the lines that the grammar accepts, line by line. -/
theorem issues_readAll (lines : List String) :
    List.Forall₂
      (fun line i => ∃ f, grammar line.toList = .ok f ∧
        i = .reported (ruleId f.rule) f.message f.line f.file)
      (lines.filter fun line => (grammar line.toList).isOk)
      (FindingLine.readAll grammar ruleId lines).issues := by
  induction lines with
  | nil => exact .nil
  | cons line rest ih =>
      rw [readAll_cons]
      cases hline : grammar line.toList with
      | ok f =>
          rw [List.filter_cons_of_pos (by rw [hline]; rfl)]
          exact .cons ⟨f, hline, rfl⟩ ih
      | error reason =>
          rw [List.filter_cons_of_neg (by rw [hline]; exact nofun)]
          exact ih

/-- The other lines are skipped as they are, each for the reason that the grammar gives. -/
theorem skipped_readAll (lines : List String) :
    List.Forall₂ (fun line s => s.entry = line ∧ grammar line.toList = .error s.reason)
      (lines.filter fun line => !(grammar line.toList).isOk)
      (FindingLine.readAll grammar ruleId lines).skipped := by
  induction lines with
  | nil => exact .nil
  | cons line rest ih =>
      rw [readAll_cons]
      cases hline : grammar line.toList with
      | ok f =>
          rw [List.filter_cons_of_neg (by rw [hline]; exact nofun)]
          exact ih
      | error reason =>
          rw [List.filter_cons_of_pos (by rw [hline]; rfl)]
          exact .cons ⟨rfl, hline⟩ ih

theorem length_readAll (lines : List String) :
    (FindingLine.readAll grammar ruleId lines).issues.length +
      (FindingLine.readAll grammar ruleId lines).skipped.length = lines.length := by
  rw [← (issues_readAll grammar ruleId lines).length_eq,
    ← (skipped_readAll grammar ruleId lines).length_eq, ← List.countP_eq_length_filter,
    ← List.countP_eq_length_filter]
  have hlength := List.length_eq_countP_add_countP
    (fun line : String => (grammar line.toList).isOk) (l := lines)
  simpa only [Bool.not_eq_true, Bool.decide_eq_false] using hlength.symm

/-- Two of the tools print in the grammar with brackets. -/
theorem read_of_bracketed {l : Linter} (h : l.tool = .pclint ∨ l.tool = .other)
    (lines : List String) :
    l.read lines = FindingLine.readAll FindingLine.bracketed l.ruleId lines := by
  rcases h with h | h <;> simp only [Linter.read, h]

section Findings

variable {grammar} {P : String → Prop} [DecidablePred P]
  (hP : ∀ line, P line ↔ (grammar line.toList).isOk = true)

include hP

theorem decide_eq_isOk :
    (fun line => decide (P line)) = fun line => (grammar line.toList).isOk := by
  funext line
  rw [Bool.eq_iff_iff, decide_eq_true_iff, hP]

/-- The issues where it is said in other words which lines are findings. -/
theorem issues_readAll_of_iff (lines : List String) :
    List.Forall₂
      (fun line i => ∃ f, grammar line.toList = .ok f ∧
        i = .reported (ruleId f.rule) f.message f.line f.file)
      (lines.filter (P ·)) (FindingLine.readAll grammar ruleId lines).issues := by
  rw [decide_eq_isOk hP]
  exact issues_readAll grammar ruleId lines

theorem skipped_readAll_of_iff (lines : List String) :
    List.Forall₂ (fun line s => s.entry = line ∧ grammar line.toList = .error s.reason)
      (lines.filter (¬ P ·)) (FindingLine.readAll grammar ruleId lines).skipped := by
  have hother : (fun line => decide (¬ P line)) = fun line => !(grammar line.toList).isOk := by
    funext line
    rw [decide_not, congrFun (decide_eq_isOk hP) line]
  rw [hother]
  exact skipped_readAll grammar ruleId lines

end Findings

end LintGate.Proofs.LineReadings
