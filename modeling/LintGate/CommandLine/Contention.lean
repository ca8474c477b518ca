import LintGate.CommandLine.FirstConfig

/-!
Several initializations in one directory. Each makes its steps on the disk they share, and any of
them can make the next one.
-/

namespace LintGate.CommandLine

/-- An initialization among others. -/
structure Initialization where
  force : Bool
  phase : InitPhase

/-- The initializations and their disk. -/
structure Contention where
  processes : List Initialization
  disk : Disk

namespace Contention

/-- Initializations that start on a disk; each of them is asked to remove what has the name, or is
not. -/
def start (forces : List Bool) (d : Disk) : Contention where
  processes := forces.map (⟨·, .creating⟩)
  disk := d

/-- One step of the initialization with this number. -/
def advance (s : Contention) (i : Nat) : Contention :=
  match s.processes[i]? with
  | none => s
  | some p =>
    let (phase, disk) := p.phase.step p.force s.disk
    ⟨s.processes.set i { p with phase := phase }, disk⟩

/-- The steps of the initializations in the order in which their numbers stand. -/
def run (s : Contention) (schedule : List Nat) : Contention :=
  schedule.foldl advance s

/-- One that is alone makes its own steps and no others. -/
theorem run_alone (force : Bool) (n : Nat) (phase : InitPhase) (d : Disk) :
    run ⟨[⟨force, phase⟩], d⟩ (List.replicate n 0) =
      ⟨[⟨force, (InitPhase.steps force n (phase, d)).1⟩],
        (InitPhase.steps force n (phase, d)).2⟩ := by
  induction n generalizing phase d with
  | zero => rfl
  | succ n ih => exact ih (phase.step force d).1 (phase.step force d).2

end Contention

end LintGate.CommandLine
