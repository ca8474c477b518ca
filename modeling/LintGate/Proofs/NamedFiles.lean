import LintGate.Proofs.WalkedUnion

/-!
Files that are named to a walk. Ignore files, hidden names and the other paths do not count for
them, but the patterns do, those for inclusion as well.
-/

namespace LintGate.Proofs.NamedFiles

open LintGate.Discovery
open LintGate.Proofs.PathOrder
open LintGate.Proofs.WalkedUnion

section

variable {root : FileTree} {cwd p : Path} {options : WalkOptions} {paths result : List Path}

/-- Some exclude pattern matches the path. -/
def IsExcluded (options : WalkOptions) (p : Path) : Prop :=
  ∃ pattern ∈ options.excludes, Matches pattern p

/-- Some include pattern matches the path, or there is none at all. -/
def IsIncluded (options : WalkOptions) (p : Path) : Prop :=
  options.includes ≠ [] → ∃ pattern ∈ options.includes, Matches pattern p

theorem accepts_iff_isIncluded (hsource : p.isSource = true) (hexcluded : ¬ IsExcluded options p) :
    options.filter.accepts p = true ↔ IsIncluded options p := by
  rw [accepts_iff, and_iff_right hsource]
  exact and_iff_right hexcluded

theorem mem_found_of_named (hp : p ∈ paths) (hfile : FileTree.hasFile root cwd p = true)
    (haccepts : options.filter.accepts p = true) : p ∈ found root cwd options paths := by
  rw [found, List.partition_eq_filter_filter, List.mem_filter, List.mem_append]
  exact ⟨.inl (List.mem_filter.mpr ⟨hp, hfile⟩), haccepts⟩

/-- For a file nothing is found but the file. -/
theorem found_named (hfile : FileTree.hasFile root cwd p = true) :
    found root cwd options [p] = [p].filter options.filter.accepts := by
  rw [found, List.partition_eq_filter_filter, List.filter_singleton, List.filter_singleton]
  simp [hfile]

theorem eq_nil_of_gives (h : Gives root cwd options [p] result)
    (hfile : FileTree.hasFile root cwd p = true) (haccepts : options.filter.accepts p = false) :
    result = [] := by
  obtain ⟨arrived, harrived, rfl⟩ := h
  rw [found_named hfile, List.filter_singleton, haccepts] at harrived
  simp [harrived.eq_nil, distinct, List.eraseRepsBy]

theorem listed_of_gives (h : Gives root cwd options paths result) (hp : p ∈ paths)
    (hfile : FileTree.hasFile root cwd p = true) (haccepts : options.filter.accepts p = true) :
    Listed p result :=
  h.listed_iff.mpr ⟨p, mem_found_of_named hp hfile haccepts, rfl⟩

end

end LintGate.Proofs.NamedFiles
