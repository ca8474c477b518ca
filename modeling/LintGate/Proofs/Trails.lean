import LintGate.Discovery.Walk
import LintGate.Proofs.EntryNames

/-!
What a walk finds below a directory, apart from how the directory is written. Trails of names lead
to the files; every path that is found is the directory as it was given with a trail behind it.
-/

namespace LintGate.Proofs.Trails

open LintGate.Path
open LintGate.Discovery
open LintGate.Proofs.EntryNames
open LintGate.Proofs.FilePlace
open LintGate.Proofs.PathComponents

/-- What the names lead to from `start`, the last name first. -/
def below (start : Path) : List String → Path
  | [] => start
  | name :: up => (below start up).join (Path.ofString name)

/-- Names that entries can have. -/
def AreNames (up : List String) : Prop :=
  ∀ name ∈ up, FileTree.isEntryName name = true

theorem areNames_nil : AreNames [] :=
  List.forall_mem_nil _

section Below

variable {start : Path} {up : List String} (hstart : start.isEmpty = false)

include hstart

theorem isEmpty_below (hup : AreNames up) : (below start up).isEmpty = false := by
  induction up with
  | nil => exact hstart
  | cons name up ih =>
      obtain ⟨hname, hrest⟩ := List.forall_mem_cons.mp hup
      have hne : (below start up).chars ≠ [] := by simpa [isEmpty] using ih hrest
      have hjoin : (below start (name :: up)).chars ≠ [] :=
        (prefix_join (isEntryName_iff.mp hname)).ne_nil hne
      simpa [isEmpty] using hjoin

theorem components_below (hup : AreNames up) :
    (below start up).components = start.components ++ up.reverse.map (.name ·.toList) := by
  induction up with
  | nil => simp [below]
  | cons name up ih =>
      obtain ⟨hname, hrest⟩ := List.forall_mem_cons.mp hup
      have hne : (below start up).chars ≠ [] := by simpa [isEmpty] using isEmpty_below hstart hrest
      have hjoin := components_join hne (isEntryName_iff.mp hname)
      rw [below, List.reverse_cons, List.map_append, ← List.append_assoc, ← ih hrest]
      exact hjoin

theorem isAbsolute_below (hup : AreNames up) : (below start up).isAbsolute = start.isAbsolute := by
  obtain ⟨habs, hempty⟩ := isAbsolute_and_isEmpty_eq start
  rw [(isAbsolute_and_isEmpty_eq _).1, components_below hstart hup, habs]
  cases hcomponents : start.components with
  | nil => simp [hcomponents, hstart] at hempty
  | cons c rest => rfl

/-- The names lie behind those of the directory. -/
theorem names_below (cwd : Path) (hup : AreNames up) :
    names cwd (below start up) = names cwd start ++ up.reverse.map String.toList := by
  have hlabels : up.reverse.map (Component.name ·.toList) =
      (up.reverse.map String.toList).map .name := by
    rw [List.map_map]
    rfl
  rw [names, names, isAbsolute_below hstart hup, components_below hstart hup, ← List.append_assoc,
    walk_append, hlabels, walk_names, List.reverse_append, List.reverse_reverse]

end Below

/-- The chain with which the entries are looked at of what the names lead to from `start`. -/
def chainAt (root : FileTree) (cwd : Path) (options : WalkOptions) (start : Path) :
    List String → IgnoreChain
  | [] => .begin root cwd options.respectsRepositories options.userExcludes start
  | name :: up => (chainAt root cwd options start up).enter
      (.ofDirectory root cwd options.respectsRepositories (below start (name :: up)))

/-- Whether a walk from `start` passes over the entry `t` of that name, where the names lead. -/
def skipsAt (root : FileTree) (cwd : Path) (options : WalkOptions) (start : Path)
    (up : List String) (name : String) (t : FileTree) : Bool :=
  options.skips ((chainAt root cwd options start up).verdict? (below start (name :: up))
    t.isDirectory) name

mutual
/-- The trails to the files in what lies at the end of a trail. -/
def trailsAt (skips : List String → String → FileTree → Bool) (up : List String) :
    FileTree → List (List String)
  | .directory entries => trailsIn skips up entries
  | .file _ _ => [up]
  | .utility _ => [up]

/-- The trails to the files in the entries of what lies at the end of a trail. -/
def trailsIn (skips : List String → String → FileTree → Bool) (up : List String) :
    List (String × FileTree) → List (List String)
  | [] => []
  | (name, t) :: rest =>
    if skips up name t then trailsIn skips up rest
    else trailsAt skips (name :: up) t ++ trailsIn skips up rest
end

mutual
/-- The trails to everything below the end of a trail, and whether a directory lies there. -/
def entriesAt (up : List String) : FileTree → List (List String × Bool)
  | .directory entries => entriesIn up entries
  | .file _ _ => []
  | .utility _ => []

/-- The trails to the entries of what lies at the end of a trail, and to everything below them. -/
def entriesIn (up : List String) : List (String × FileTree) → List (List String × Bool)
  | [] => []
  | (name, t) :: rest =>
    (name :: up, t.isDirectory) :: (entriesAt (name :: up) t ++ entriesIn up rest)
end

section

variable (root : FileTree) (cwd : Path) (options : WalkOptions) (start : Path)

mutual
theorem filesAt_eq (name : String) (up : List String) (t : FileTree) :
    filesAt root cwd options (chainAt root cwd options start up) (below start (name :: up)) t =
      (trailsAt (skipsAt root cwd options start) (name :: up) t).map (below start) := by
  cases t with
  | directory entries => exact filesIn_eq (name :: up) entries
  | file content executable => rfl
  | utility program => rfl

/-- Below a directory the paths found are the trails written behind it. -/
theorem filesIn_eq (up : List String) (entries : List (String × FileTree)) :
    filesIn root cwd options (chainAt root cwd options start up) (below start up) entries =
      (trailsIn (skipsAt root cwd options start) up entries).map (below start) := by
  cases entries with
  | nil => rfl
  | cons entry rest =>
      obtain ⟨name, t⟩ := entry
      rw [filesIn, trailsIn]
      change (if skipsAt root cwd options start up name t then _ else _) = _
      split
      · exact filesIn_eq up rest
      · rw [List.map_append, ← filesAt_eq name up t, ← filesIn_eq up rest]
        rfl
end

/-- A walk below a directory follows the trails to its files. -/
theorem filesBelow_eq {t : FileTree} (hfind : FileTree.find root cwd start = .ok t)
    (hstdin : start.sameComponents (Path.ofString "-") = false) :
    filesBelow root cwd options start =
      (trailsIn (skipsAt root cwd options start) [] t.entries).map (below start) := by
  simp only [filesBelow, hstdin, hfind]
  exact filesIn_eq root cwd options start [] t.entries

theorem exists_of_mem_filesBelow {p : Path} (h : p ∈ filesBelow root cwd options start) :
    ∃ t trail, FileTree.find root cwd start = .ok t ∧
      trail ∈ trailsIn (skipsAt root cwd options start) [] t.entries ∧ p = below start trail := by
  cases hstdin : start.sameComponents (Path.ofString "-") with
  | true => simp [filesBelow, hstdin] at h
  | false =>
      cases hfind : FileTree.find root cwd start with
      | error fault => simp [filesBelow, hfind] at h
      | ok t =>
          rw [filesBelow_eq root cwd options start hfind hstdin] at h
          obtain ⟨trail, htrail, rfl⟩ := List.mem_map.mp h
          exact ⟨t, trail, rfl, htrail, rfl⟩

end

section

variable {skips : List String → String → FileTree → Bool}

mutual
theorem areNames_of_mem_trailsAt {up : List String} (hup : AreNames up) {t : FileTree}
    (ht : t.isWellNamed = true) : ∀ trail ∈ trailsAt skips up t, AreNames trail := by
  cases t with
  | directory entries => exact areNames_of_mem_trailsIn hup ht
  | file content executable => simpa [trailsAt] using hup
  | utility program => simpa [trailsAt] using hup

theorem areNames_of_mem_trailsIn {up : List String} (hup : AreNames up)
    {entries : List (String × FileTree)} (hentries : FileTree.areWellNamed entries = true) :
    ∀ trail ∈ trailsIn skips up entries, AreNames trail := by
  cases entries with
  | nil => exact nofun
  | cons entry rest =>
      obtain ⟨name, t⟩ := entry
      simp only [FileTree.areWellNamed, Bool.and_eq_true] at hentries
      obtain ⟨⟨hname, ht⟩, hrest⟩ := hentries
      rw [trailsIn]
      split
      · exact areNames_of_mem_trailsIn hup hrest
      · intro trail htrail
        rcases List.mem_append.mp htrail with hhere | hlater
        · exact areNames_of_mem_trailsAt (List.forall_mem_cons.mpr ⟨hname, hup⟩) ht trail hhere
        · exact areNames_of_mem_trailsIn hup hrest trail hlater
end

mutual
theorem ne_nil_of_mem_trailsAt {up : List String} (hup : up ≠ []) (t : FileTree) :
    ∀ trail ∈ trailsAt skips up t, trail ≠ [] := by
  cases t with
  | directory entries => exact ne_nil_of_mem_trailsIn up entries
  | file content executable => simpa [trailsAt] using hup
  | utility program => simpa [trailsAt] using hup

theorem ne_nil_of_mem_trailsIn (up : List String) (entries : List (String × FileTree)) :
    ∀ trail ∈ trailsIn skips up entries, trail ≠ [] := by
  cases entries with
  | nil => exact nofun
  | cons entry rest =>
      obtain ⟨name, t⟩ := entry
      rw [trailsIn]
      split
      · exact ne_nil_of_mem_trailsIn up rest
      · intro trail htrail
        rcases List.mem_append.mp htrail with hhere | hlater
        · exact ne_nil_of_mem_trailsAt (List.cons_ne_nil name up) t trail hhere
        · exact ne_nil_of_mem_trailsIn up rest trail hlater
end

end

end LintGate.Proofs.Trails
