import LintGate.Analysis.Report

/-!
The order of findings in a report. It looks at line, rule id and message only, so it leaves findings
undecided that differ elsewhere. Findings that count for one request do not: `correlate` writes the
component, and the profile severity and debt. Sorting them gives one list for every arrangement.
-/

namespace LintGate.Proofs.IssueOrder

open Std
open AnalysisReport (inOrder)

/-- The comparison behind `inOrder`. -/
def compareIssues : Issue → Issue → Ordering :=
  compareLex (compareOn Issue.line) (compareLex (compareOn Issue.ruleId) (compareOn Issue.message))

instance : TransCmp compareIssues :=
  inferInstanceAs (TransCmp (compareLex _ (compareLex _ _)))

theorem inOrder_eq_isLE (a b : Issue) : inOrder a b = (compareIssues a b).isLE :=
  rfl

theorem inOrder_trans (a b c : Issue) (hab : inOrder a b = true) (hbc : inOrder b c = true) :
    inOrder a c = true := by
  rw [inOrder_eq_isLE] at hab hbc ⊢
  exact TransCmp.isLE_trans hab hbc

theorem inOrder_total (a b : Issue) : (inOrder a b || inOrder b a) = true := by
  have hswap : compareIssues b a = (compareIssues a b).swap := OrientedCmp.eq_swap
  rw [inOrder_eq_isLE, inOrder_eq_isLE, hswap]
  cases compareIssues a b <;> rfl

/-- Two findings that may stand in either order agree in what the order looks at. -/
theorem key_eq_of_inOrder {a b : Issue} (hab : inOrder a b = true) (hba : inOrder b a = true) :
    a.line = b.line ∧ a.ruleId = b.ruleId ∧ a.message = b.message := by
  have heq : compareIssues a b = .eq := OrientedCmp.isLE_antisymm hab hba
  simpa only [compareIssues, compareLex_eq_eq, compareOn, LawfulEqOrd.compare_eq_iff_eq] using heq

/-- What `correlate` makes of a finding: the component is that of the request, and the profile has
given severity and debt. -/
structure Annotated (request : AnalysisRequest) (i : Issue) : Prop where
  component : i.component = request.component
  rule : ∃ r, request.profile.resolve i.ruleId = some r ∧ i.severity = some r.severity ∧
    i.debt = r.debt

theorem annotated_of_mem_correlate {cwd : Path} {request : AnalysisRequest} {issues : List Issue}
    {i : Issue} (hmem : i ∈ correlate cwd request issues) : Annotated request i := by
  obtain ⟨found, _, hannotate⟩ := List.mem_filterMap.mp hmem
  obtain ⟨r, hresolve, rfl⟩ := Option.map_eq_some_iff.mp hannotate
  exact ⟨rfl, r, hresolve, rfl, rfl⟩

/-- Nothing is left undecided among annotated findings: those with one key are one finding. -/
theorem Annotated.eq_of_inOrder {request : AnalysisRequest} {a b : Issue}
    (ha : Annotated request a) (hb : Annotated request b)
    (hab : inOrder a b = true) (hba : inOrder b a = true) : a = b := by
  obtain ⟨hline, hrule, hmessage⟩ := key_eq_of_inOrder hab hba
  have hcomponent : a.component = b.component := ha.component.trans hb.component.symm
  obtain ⟨r, hr, hseverity, hdebt⟩ := ha.rule
  obtain ⟨s, hs, hseverity', hdebt'⟩ := hb.rule
  obtain rfl : r = s := by
    rw [hrule, hs] at hr
    exact (Option.some.inj hr).symm
  cases a
  cases b
  simp_all only

/-- Sorting annotated findings forgets how they were arranged. -/
theorem mergeSort_eq_of_perm {request : AnalysisRequest} {xs ys : List Issue}
    (hperm : xs.Perm ys) (hxs : ∀ i ∈ xs, Annotated request i) :
    xs.mergeSort inOrder = ys.mergeSort inOrder := by
  have hsorted (l : List Issue) : (l.mergeSort inOrder).Pairwise (inOrder · ·) :=
    List.pairwise_mergeSort inOrder_trans inOrder_total l
  refine List.Perm.eq_of_pairwise ?_ (hsorted xs) (hsorted ys) ?_
  · intro a b ha hb hab hba
    have hmem : b ∈ xs := hperm.mem_iff.mpr (List.mem_mergeSort.mp hb)
    exact (hxs a (List.mem_mergeSort.mp ha)).eq_of_inOrder (hxs b hmem) hab hba
  · exact (List.mergeSort_perm ..).trans (hperm.trans (List.mergeSort_perm ..).symm)

end LintGate.Proofs.IssueOrder
