import LintGate.Analysis.Run

/-!
What a run knows of its slots. Which slots have been settled, and with what, determines a run up to
the order in which its findings came: `Tracks` says how, and settling a slot keeps it.
-/

namespace LintGate.Proofs.RunProgress

/-- What is handed in for a slot. -/
abbrev Settlement := List Issue × ToolReport

/-- The findings of the slots that have been settled, slot after slot. -/
def issuesOf (given : List (Option Settlement)) : List Issue :=
  given.flatMap fun s => (s.map Prod.fst).getD []

/-- The reports of the slots that have been settled. -/
def reportsOf (given : List (Option Settlement)) : List ToolReport :=
  given.filterMap (Option.map Prod.snd)

/-- The runs whose slots have been settled with `given`. A run counts its open slots until there are
none left; then it has been completed once and its slots are gone. -/
inductive Tracks (given : List (Option Settlement)) : Run → Prop
  | underway (issues : List Issue) (hopen : none ∈ given) (hperm : issues.Perm (issuesOf given)) :
      Tracks given ⟨issues, given.map (Option.map Prod.snd), given.countP Option.isNone, []⟩
  | complete (issues : List Issue) (hall : none ∉ given) (hperm : issues.Perm (issuesOf given)) :
      Tracks given ⟨[], [], 0, [⟨issues, reportsOf given⟩]⟩

variable {given : List (Option Settlement)} {run : Run}

theorem issuesOf_cons (s : Option Settlement) (rest : List (Option Settlement)) :
    issuesOf (s :: rest) = (s.map Prod.fst).getD [] ++ issuesOf rest :=
  List.flatMap_cons

theorem issuesOf_map_some (settlements : List Settlement) :
    issuesOf (settlements.map some) = settlements.flatMap Prod.fst := by
  simp [issuesOf, List.flatMap_map]

theorem reportsOf_map_some (settlements : List Settlement) :
    reportsOf (settlements.map some) = settlements.map Prod.snd := by
  rw [reportsOf, List.filterMap_map]
  exact congrFun List.filterMap_eq_map settlements

/-- Without open slots, each report stands at the place of its slot. -/
theorem map_some_reportsOf {given : List (Option Settlement)} (hall : none ∉ given) :
    (reportsOf given).map some = given.map (Option.map Prod.snd) := by
  induction given with
  | nil => rfl
  | cons s rest ih =>
      obtain ⟨hs, hrest⟩ := not_or.mp (fun h => hall (List.mem_cons.mpr h))
      cases s with
      | none => exact absurd rfl hs
      | some settlement => simp only [reportsOf, List.filterMap_cons, Option.map_some,
          List.map_cons, ← ih hrest]

/-- The findings handed in for an open slot join those that have come, wherever the slot lies. -/
theorem issuesOf_set_perm {i : Nat} (hi : given[i]? = some none) (issues : List Issue)
    (report : ToolReport) :
    (issuesOf given ++ issues).Perm (issuesOf (given.set i (some (issues, report)))) := by
  induction given generalizing i with
  | nil => simp at hi
  | cons s rest ih =>
      cases i with
      | zero =>
          obtain rfl : s = none := by simpa using hi
          rw [List.set_cons_zero, issuesOf_cons, issuesOf_cons]
          exact List.perm_append_comm
      | succ i =>
          rw [List.set_cons_succ, issuesOf_cons, issuesOf_cons, List.append_assoc]
          exact (ih (by simpa using hi)).append_left _

theorem tracks_start (size : Nat) : Tracks (List.replicate size none) (Run.start size) := by
  cases size with
  | zero => exact .complete [] (by simp) (.refl _)
  | succ n =>
      have hmem : none ∈ List.replicate (n + 1) (none : Option Settlement) := by simp
      have hperm : ([] : List Issue).Perm (issuesOf (List.replicate (n + 1) none)) := by
        simp [issuesOf]
      have h := Tracks.underway [] hmem hperm
      simpa [Run.start, List.countP_replicate] using h

/-- An open slot is one of the run's, and it is among those the run still counts. -/
theorem Tracks.slot_open {i : Nat} (h : Tracks given run) (hi : given[i]? = some none) :
    run.slots[i]? = some none ∧ 0 < run.remaining := by
  have hmem : none ∈ given := List.mem_of_getElem? hi
  cases h with
  | underway issues _ _ =>
      refine ⟨by simp [hi], ?_⟩
      exact List.countP_pos_iff.mpr ⟨none, hmem, rfl⟩
  | complete issues hall _ => exact absurd hmem hall

theorem Tracks.completions_eq_nil_iff (h : Tracks given run) :
    run.completions = [] ↔ none ∈ given := by
  cases h with
  | underway issues hopen _ => simp [hopen]
  | complete issues hall _ => simp [hall]

theorem Tracks.remaining_eq (h : Tracks given run) (hopen : none ∈ given) :
    run.remaining = run.slots.countP Option.isNone := by
  cases h with
  | underway issues _ _ =>
      rw [List.countP_map]
      exact List.countP_congr fun s _ => by cases s <;> simp
  | complete issues hall _ => exact absurd hopen hall

/-- A run without open slots has been completed once, with the reports in the order of the slots. -/
theorem Tracks.completions_of_closed (h : Tracks given run) (hall : none ∉ given) :
    ∃ issues, run.completions = [⟨issues, reportsOf given⟩] ∧ issues.Perm (issuesOf given) := by
  cases h with
  | underway issues hopen _ => exact absurd hopen hall
  | complete issues _ hperm => exact ⟨issues, rfl, hperm⟩

/-- Settling an open slot succeeds, and afterwards the run tracks one settled slot more. -/
theorem Tracks.settle {i : Nat} (h : Tracks given run) (hi : given[i]? = some none)
    (issues : List Issue) (report : ToolReport) :
    ∃ next, run.settle i issues report = some next ∧
      Tracks (given.set i (some (issues, report))) next := by
  have hslot : run.slots[i]? = some none := (h.slot_open hi).1
  obtain ⟨hlt, hgiven⟩ := List.getElem?_eq_some_iff.mp hi
  have hcount : (given.set i (some (issues, report))).countP Option.isNone =
      given.countP Option.isNone - 1 := by
    rw [List.countP_set hlt, hgiven]
    simp
  cases h with
  | complete _ hall _ => exact absurd (List.mem_of_getElem? hi) hall
  | underway found hopen hperm =>
      have hfound : (found ++ issues).Perm (issuesOf (given.set i (some (issues, report)))) :=
        (hperm.append_right issues).trans (issuesOf_set_perm hi issues report)
      have hslots : (given.map (Option.map Prod.snd)).set i (some report) =
          (given.set i (some (issues, report))).map (Option.map Prod.snd) := by
        rw [List.map_set]
        rfl
      simp only [Run.settle, hslot, hslots, ← hcount]
      split
      -- This was the last slot.
      · rename_i hnone
        refine ⟨_, rfl, ?_⟩
        have hall : none ∉ given.set i (some (issues, report)) := by
          intro hmem
          exact (List.countP_eq_zero.mp hnone none hmem) rfl
        have hreports : ((given.set i (some (issues, report))).map (Option.map Prod.snd)).filterMap
            id = reportsOf (given.set i (some (issues, report))) := by
          rw [reportsOf, List.filterMap_map]
          rfl
        rw [hreports]
        exact .complete _ hall hfound
      · rename_i hsome
        refine ⟨_, rfl, .underway _ ?_ hfound⟩
        obtain ⟨s, hmem, hs⟩ := List.countP_pos_iff.mp (Nat.pos_of_ne_zero hsome)
        rwa [Option.isNone_iff_eq_none.mp hs] at hmem

end LintGate.Proofs.RunProgress
