import LintGate.Proofs.RunProgress
import Mathlib.Data.List.Induction

/-!
Slots that are settled more than once. The first call for a slot decides it, and until the run is
complete a further one changes nothing. Completing the run takes the slots away, and with them what
tells a further call from a first one: there is no run after it.
-/

namespace LintGate.Proofs.RepeatedSettlement

open LintGate.Proofs.RunProgress

/-- The slot that is settled, and with what. -/
abbrev Call := Nat × Settlement

/-- Makes the calls one after another, until one of them fails. -/
def settleAll (calls : List Call) (run : Run) : Option Run :=
  calls.foldlM (fun run call => run.settle call.1 call.2.1 call.2.2) run

/-- Each slot occurs in the calls. -/
def Covers (size : Nat) (calls : List Call) : Prop :=
  ∀ i < size, ∃ call ∈ calls, call.1 = i

instance (size : Nat) (calls : List Call) : Decidable (Covers size calls) :=
  inferInstanceAs (Decidable (∀ i < size, ∃ call ∈ calls, call.1 = i))

/-- What the first call for a slot hands in. -/
def first? (calls : List Call) (i : Nat) : Option Settlement :=
  (calls.find? (·.1 == i)).map (·.2)

/-- The first calls, slot after slot. -/
def firsts (size : Nat) (calls : List Call) : List (Option Settlement) :=
  (List.range size).map (first? calls)

/-- What is said of the run after the calls. -/
structure Decided (size : Nat) (calls : List Call) (run : Run) : Prop where
  slots : ¬ Covers size calls → run.slots = (firsts size calls).map (Option.map Prod.snd)
  issues : ¬ Covers size calls → run.issues.Perm (issuesOf (firsts size calls))
  not_completed : ¬ Covers size calls → run.completions = []
  completed : Covers size calls → ∃ issues,
    run.completions = [⟨issues, reportsOf (firsts size calls)⟩] ∧
      issues.Perm (issuesOf (firsts size calls))
  repeated : ¬ Covers size calls → ∀ call ∈ calls, ∀ issues report,
    run.settle call.1 issues report = some run
  ended : Covers size calls → ∀ i issues report, run.settle i issues report = none

section Firsts

variable {size i : Nat} {calls : List Call} {call : Call}

theorem first?_eq_none_iff : first? calls i = none ↔ ∀ call ∈ calls, call.1 ≠ i := by
  simp [first?]

theorem none_mem_firsts_iff : none ∈ firsts size calls ↔ ¬ Covers size calls := by
  simp only [firsts, List.mem_map, List.mem_range, first?_eq_none_iff, Covers, not_forall,
    exists_prop, not_exists, not_and, ne_eq]

theorem getElem?_firsts (hi : i < size) : (firsts size calls)[i]? = some (first? calls i) := by
  simp [firsts, hi]

theorem first?_append_of_mem (h : ∃ c ∈ calls, c.1 = call.1) :
    first? (calls ++ [call]) i = first? calls i := by
  rw [first?, List.find?_append, first?]
  cases hfind : calls.find? (·.1 == i) with
  | some c => rfl
  | none =>
      obtain ⟨c, hc, hcall⟩ := h
      have hne : call.1 ≠ i := by
        rw [← hcall]
        exact beq_eq_false_iff_ne.mp (by simpa using List.find?_eq_none.mp hfind c hc)
      simp [hne]

theorem firsts_append_of_mem (h : ∃ c ∈ calls, c.1 = call.1) :
    firsts size (calls ++ [call]) = firsts size calls :=
  List.map_congr_left fun _ _ => first?_append_of_mem h

/-- A call for a slot that has not occurred is the first one for it. -/
theorem firsts_append_of_not_mem (h : ∀ c ∈ calls, c.1 ≠ call.1) :
    firsts size (calls ++ [call]) = (firsts size calls).set call.1 (some call.2) := by
  refine List.ext_getElem? fun j => ?_
  by_cases hj : j < size
  · rw [getElem?_firsts hj]
    by_cases heq : call.1 = j
    · subst heq
      have hnone : calls.find? (·.1 == call.1) = none := by simpa using h
      rw [List.getElem?_set_self (by simpa [firsts] using hj), first?, List.find?_append, hnone]
      simp
    · rw [List.getElem?_set_ne heq, getElem?_firsts hj, first?, List.find?_append, first?]
      simp [heq]
  · simp [firsts, hj]

end Firsts

section Run

variable {size : Nat} {calls : List Call} {call : Call} {run : Run}

theorem covers_of_prefix {before : List Call} (hbefore : before <+: calls)
    (h : Covers size before) : Covers size calls := by
  intro i hi
  obtain ⟨c, hc, hcall⟩ := h i hi
  exact ⟨c, hbefore.subset hc, hcall⟩

theorem not_covers_nil (hsize : 0 < size) : ¬ Covers size [] := by
  intro h
  obtain ⟨c, hc, _⟩ := h 0 hsize
  cases hc

/-- A call that repeats another finds its slot settled. -/
theorem settle_of_mem (h : Tracks (firsts size calls) run) (hopen : ¬ Covers size calls)
    (hindex : call.1 < size) (hmem : ∃ c ∈ calls, c.1 = call.1) (issues : List Issue)
    (report : ToolReport) : run.settle call.1 issues report = some run := by
  have hfirst : ∃ settlement, first? calls call.1 = some settlement := by
    refine Option.ne_none_iff_exists'.mp fun hnone => ?_
    obtain ⟨c, hc, hcall⟩ := hmem
    exact first?_eq_none_iff.mp hnone c hc hcall
  obtain ⟨settlement, hfirst⟩ := hfirst
  have hslot : run.slots[call.1]? = some (some settlement.2) := by
    cases h with
    | underway found _ _ => simp [getElem?_firsts hindex, hfirst]
    | complete found hall _ => exact absurd (none_mem_firsts_iff.mpr hopen) hall
  rw [Run.settle, hslot]

theorem settle_of_covers (h : Tracks (firsts size calls) run) (hall : Covers size calls) (i : Nat)
    (issues : List Issue) (report : ToolReport) : run.settle i issues report = none := by
  cases h with
  | underway found hopen _ => exact absurd hall (none_mem_firsts_iff.mp hopen)
  | complete found _ _ => rfl

/-- Until the run is complete, a call succeeds, and the run goes on to track the first calls. -/
theorem settle_tracks (h : Tracks (firsts size calls) run) (hopen : ¬ Covers size calls)
    (hindex : call.1 < size) :
    ∃ next, run.settle call.1 call.2.1 call.2.2 = some next ∧
      Tracks (firsts size (calls ++ [call])) next := by
  by_cases hmem : ∃ c ∈ calls, c.1 = call.1
  · rw [firsts_append_of_mem hmem]
    exact ⟨run, settle_of_mem h hopen hindex hmem _ _, h⟩
  · have hfresh : ∀ c ∈ calls, c.1 ≠ call.1 := fun c hc hcall => hmem ⟨c, hc, hcall⟩
    have hslot : (firsts size calls)[call.1]? = some none := by
      rw [getElem?_firsts hindex, first?_eq_none_iff.mpr hfresh]
    rw [firsts_append_of_not_mem hfresh]
    exact h.settle hslot call.2.1 call.2.2

theorem settleAll_append_singleton (start : Run) :
    settleAll (calls ++ [call]) start =
      (settleAll calls start).bind fun run => run.settle call.1 call.2.1 call.2.2 := by
  simp [settleAll, List.foldlM_append, Option.bind_eq_bind]

/-- The calls fail just when one of them comes after the run is complete. -/
theorem settleAll_tracks (hsize : 0 < size) (hindex : ∀ c ∈ calls, c.1 < size) :
    (¬ Covers size calls.dropLast → ∃ run, settleAll calls (Run.start size) = some run ∧
      Tracks (firsts size calls) run) ∧
    (Covers size calls.dropLast → settleAll calls (Run.start size) = none) := by
  induction calls using List.reverseRecOn with
  | nil =>
      have hfirsts : firsts size [] = List.replicate size none := by
        rw [firsts, show first? [] = fun _ => none from rfl, List.map_const', List.length_range]
      refine ⟨fun _ => ⟨Run.start size, rfl, ?_⟩, fun h => absurd h (not_covers_nil hsize)⟩
      rw [hfirsts]
      exact tracks_start size
  | append_singleton calls call ih =>
      rw [List.dropLast_concat]
      have ih := ih fun c hc => hindex c (List.mem_append_left _ hc)
      have hcall : call.1 < size := hindex call (by simp)
      have hshorter : Covers size calls.dropLast → Covers size calls :=
        covers_of_prefix (List.dropLast_prefix calls)
      rw [settleAll_append_singleton]
      constructor
      · intro hopen
        obtain ⟨run, hrun, htracks⟩ := ih.1 (mt hshorter hopen)
        rw [hrun, Option.bind_some]
        exact settle_tracks htracks hopen hcall
      · intro hall
        by_cases hended : Covers size calls.dropLast
        · rw [ih.2 hended, Option.bind_none]
        · obtain ⟨run, hrun, htracks⟩ := ih.1 hended
          rw [hrun, Option.bind_some, settle_of_covers htracks hall]

theorem decided_of_tracks (h : Tracks (firsts size calls) run)
    (hindex : ∀ c ∈ calls, c.1 < size) : Decided size calls run := by
  constructor
  case slots =>
      intro hopen
      cases h with
      | underway found _ _ => rfl
      | complete found hall _ => exact absurd (none_mem_firsts_iff.mpr hopen) hall
  case issues =>
      intro hopen
      cases h with
      | underway found _ hperm => exact hperm
      | complete found hall _ => exact absurd (none_mem_firsts_iff.mpr hopen) hall
  case not_completed =>
      intro hopen
      exact h.completions_eq_nil_iff.mpr (none_mem_firsts_iff.mpr hopen)
  case completed =>
      intro hall
      exact h.completions_of_closed fun hnone => none_mem_firsts_iff.mp hnone hall
  case repeated =>
      intro hopen call hcall
      exact settle_of_mem h hopen (hindex call hcall) ⟨call, hcall, rfl⟩
  case ended => exact settle_of_covers h

end Run

/-- Whatever calls are made for the slots of a run, in whatever order and however often for one
slot, they succeed just when none comes after the one with which every slot has occurred. The first
call for a slot decides its findings and its report. Until every slot has occurred the run is not
complete, and a further call for a slot that has occurred changes nothing; then it is complete once,
and every further call fails. -/
theorem settleAll_decided (size : Nat) (calls : List Call) (hsize : 0 < size)
    (hindex : ∀ call ∈ calls, call.1 < size) :
    ((∃ run, settleAll calls (Run.start size) = some run) ↔ ¬ Covers size calls.dropLast) ∧
      ∀ run, settleAll calls (Run.start size) = some run → Decided size calls run := by
  obtain ⟨hopen, hended⟩ := settleAll_tracks hsize hindex
  have hsucceeds : (∃ run, settleAll calls (Run.start size) = some run) →
      ¬ Covers size calls.dropLast := by
    rintro ⟨run, hrun⟩ hall
    rw [hended hall] at hrun
    cases hrun
  refine ⟨⟨hsucceeds, fun h => ?_⟩, fun run hrun => ?_⟩
  · obtain ⟨run, hrun, _⟩ := hopen h
    exact ⟨run, hrun⟩
  · obtain ⟨next, hnext, htracks⟩ := hopen (hsucceeds ⟨run, hrun⟩)
    obtain rfl := Option.some.inj (hrun.symm.trans hnext)
    exact decided_of_tracks htracks hindex

/-- What a tool that was stopped hands in. -/
def stopped : Settlement :=
  ([], { tool := .cppcheck, status := .timedOut })

/-- What a tool with a finding hands in. -/
def heard : Settlement :=
  ([.reported "rats." "gets" 3 "/w/a.c"],
    { tool := .rats, status := .completed (some 0), reported := 1, kept := 1 })

/-- A slot is settled twice before the last one is. -/
theorem settleAll_decided_twice :
    let calls : List Call := [(1, heard), (1, stopped), (0, stopped)]
    (∀ call ∈ calls, call.1 < 2) ∧
      ∃ run issues, settleAll calls (Run.start 2) = some run ∧
        run.completions = [⟨issues, [stopped.2, heard.2]⟩] ∧ issues.Perm heard.1 ∧
        run.settle 0 heard.1 heard.2 = none := by
  intro calls
  have hindex : ∀ call ∈ calls, call.1 < 2 := by decide
  have hopen : ¬ Covers 2 calls.dropLast := by decide
  have hall : Covers 2 calls := by decide
  obtain ⟨hsucceeds, hdecided⟩ := settleAll_decided 2 calls (by decide) hindex
  obtain ⟨run, hrun⟩ := hsucceeds.mpr hopen
  have hdecided := hdecided run hrun
  obtain ⟨issues, hcompletions, hperm⟩ := hdecided.completed hall
  exact ⟨hindex, run, issues, hrun, hcompletions, hperm, hdecided.ended hall 0 heard.1 heard.2⟩

/-- The only slot of a run is settled twice: the first call completes the run, and the second one
fails. -/
theorem settleAll_fails_after_completion :
    let calls : List Call := [(0, heard), (0, heard)]
    (∀ call ∈ calls, call.1 < 1) ∧
      settleAll calls.dropLast (Run.start 1) =
        some ⟨[], [], 0, [⟨heard.1, [heard.2]⟩]⟩ ∧
      settleAll calls (Run.start 1) = none := by
  decide

end LintGate.Proofs.RepeatedSettlement
