import LintGate.CommandLine.Analyze
import LintGate.Proofs.PathOrder
import LintGate.Proofs.Trails
import Mathlib.Data.List.Pairwise

/-!
Whether a walk names a file once. Paths are put together as one when their components are the same,
but a file has many paths; paths that go on with names behind one and the same beginning differ only
where the files do.
-/

namespace LintGate.Proofs.WalkedOnce

open LintGate.Path
open LintGate.Discovery
open LintGate.Proofs.FilePlace
open LintGate.Proofs.PathComponents
open LintGate.Proofs.PathOrder
open LintGate.Proofs.Trails

/-- No two paths of the list name the same file. -/
def NamedOnce (cwd : Path) (paths : List Path) : Prop :=
  paths.Pairwise fun p q => sameFile cwd p q = false

/-- All the paths go on with names behind the same beginning. -/
def SpelledAlike (paths : List Path) : Prop :=
  ∃ start : List Component, ∀ p ∈ paths, ∃ labels : List (List Char),
    p.components = start ++ labels.map .name

section Distinct

variable {cwd p q : Path}

theorem sameFile_of_components_eq (cwd : Path) (h : p.components = q.components) :
    sameFile cwd p q = true := by
  obtain ⟨habs, hempty⟩ := isAbsolute_and_isEmpty_eq p
  obtain ⟨habs', hempty'⟩ := isAbsolute_and_isEmpty_eq q
  rw [sameFile, beq_iff_eq, normalComponents, normalComponents, names, names, habs, hempty, habs',
    hempty', h]

instance : Std.Symm fun p q => sameFile cwd p q = false where
  symm _ _ h := BEq.comm.trans h

/-- The list without repetitions names a file twice just when it has two paths for it that differ in
their components. -/
theorem namedOnce_distinct_iff {paths : List Path} :
    NamedOnce cwd (distinct paths) ↔
      ∀ p ∈ paths, ∀ q ∈ paths, sameFile cwd p q = true → p.components = q.components := by
  constructor
  · intro h p hp q hq hsame
    obtain ⟨p', hp', hpp'⟩ := exists_mem_distinct hp
    obtain ⟨q', hq', hqq'⟩ := exists_mem_distinct hq
    refine Decidable.byContradiction fun hdiffer => ?_
    have hne : p' ≠ q' := by
      rintro rfl
      exact hdiffer (hpp'.trans hqq'.symm)
    have hapart : sameFile cwd p' q' = false :=
      h.forall hp' hq' hne
    have hsame' : sameFile cwd p' q' = true := by
      have hpp' := sameFile_of_components_eq cwd hpp'
      have hqq' := sameFile_of_components_eq cwd hqq'
      simp only [sameFile, beq_iff_eq] at *
      rw [← hpp', ← hqq', hsame]
    rw [hapart] at hsame'
    cases hsame'
  · intro h
    refine (pairwise_distinct paths).imp_of_mem fun hp hq hlt => ?_
    rw [Bool.eq_false_iff]
    intro hsame
    have heq := h _ (mem_of_mem_distinct hp) _ (mem_of_mem_distinct hq) hsame
    rw [compare_eq_iff.mpr heq] at hlt
    cases hlt

end Distinct

section Walk

variable {root : FileTree} {cwd : Path} {options : WalkOptions} {paths : List Path} {p : Path}

theorem isEmpty_of_find {t : FileTree} (h : FileTree.find root cwd p = .ok t) :
    p.isEmpty = false := by
  obtain ⟨place, hplace, _⟩ := Fields.map_eq_ok h
  exact isEmpty_of_place hplace

/-- Every path that is found is one of the paths as it was given, with a trail behind it. -/
theorem exists_of_mem_found (hroot : root.isWellNamed = true)
    (h : p ∈ found root cwd options paths) :
    ∃ r ∈ paths, r.isEmpty = false ∧ ∃ trail, AreNames trail ∧ p = below r trail := by
  simp only [found, List.mem_filter, List.mem_append] at h
  obtain ⟨hfile | hother, _⟩ := h
  · rw [List.partition_eq_filter_filter, List.mem_filter] at hfile
    obtain ⟨hmem, hfile⟩ := hfile
    refine ⟨p, hmem, ?_, [], areNames_nil, rfl⟩
    rw [FileTree.hasFile] at hfile
    split at hfile
    · rename_i t hfind
      exact isEmpty_of_find hfind
    · cases hfile
  · rw [List.partition_eq_filter_filter, List.mem_flatMap] at hother
    obtain ⟨r, hmem, hbelow⟩ := hother
    obtain ⟨t, trail, hfind, htrail, rfl⟩ := exists_of_mem_filesBelow root cwd options r hbelow
    have hentries := EntryNames.areWellNamed_entries (EntryNames.isWellNamed_find hroot hfind)
    exact ⟨r, (List.mem_filter.mp hmem).1, isEmpty_of_find hfind, trail,
      areNames_of_mem_trailsIn areNames_nil hentries trail htrail, rfl⟩

theorem spelledAlike_found (hroot : root.isWellNamed = true) (h : SpelledAlike paths) :
    SpelledAlike (found root cwd options paths) := by
  obtain ⟨start, hstart⟩ := h
  refine ⟨start, fun p hp => ?_⟩
  obtain ⟨r, hr, hempty, trail, htrail, rfl⟩ := exists_of_mem_found hroot hp
  obtain ⟨labels, hlabels⟩ := hstart r hr
  refine ⟨labels ++ trail.reverse.map String.toList, ?_⟩
  rw [components_below hempty htrail, hlabels, List.map_append, List.map_map, List.append_assoc]
  rfl

theorem components_eq_of_spelledAlike (h : SpelledAlike paths) {q : Path} (hp : p ∈ paths)
    (hq : q ∈ paths) (hpe : p.isEmpty = false) (hsame : sameFile cwd p q = true) :
    p.components = q.components := by
  obtain ⟨start, hstart⟩ := h
  obtain ⟨labels, hlabels⟩ := hstart p hp
  obtain ⟨labels', hlabels'⟩ := hstart q hq
  have habs : p.isAbsolute = q.isAbsolute := by
    rw [(isAbsolute_and_isEmpty_eq p).1, (isAbsolute_and_isEmpty_eq q).1, hlabels, hlabels']
    cases start with
    | cons c start => rfl
    | nil => cases labels <;> cases labels' <;> rfl
  have hnames := (sameFile_iff.mp hsame).2 hpe
  rw [names, names, habs, hlabels, hlabels', ← List.append_assoc, ← List.append_assoc, walk_append,
    walk_append _ _ (labels'.map .name), walk_names, walk_names, List.reverse_inj,
    List.append_left_inj, List.reverse_inj] at hnames
  rw [hlabels, hlabels', hnames]

theorem namedOnce_of_spelledAlike (hroot : root.isWellNamed = true) (h : SpelledAlike paths) :
    NamedOnce cwd (Discovery.walk root cwd options paths) := by
  refine namedOnce_distinct_iff.mpr fun p hp q hq hsame => ?_
  have hempty : p.isEmpty = false := by
    obtain ⟨r, _, hr, trail, htrail, rfl⟩ := exists_of_mem_found hroot hp
    exact isEmpty_below hr htrail
  exact components_eq_of_spelledAlike (spelledAlike_found hroot h) hp hq hempty hsame

end Walk

/-- The files of a plan are what a walk of the paths finds. -/
theorem exists_walk_of_make {s : Host} {named : Option Path} {o : CommandLine.AnalyzeOptions}
    {plan : CommandLine.AnalyzePlan} (h : CommandLine.AnalyzePlan.make s named o = .ok plan) :
    ∃ options, plan.requests.map (·.file) =
      Discovery.walk s.files s.directory options o.paths := by
  obtain ⟨config, _, h⟩ := Fields.bind_eq_ok h
  obtain ⟨linters, _, h⟩ := Fields.bind_eq_ok h
  cases hempty : linters.isEmpty with
  | true =>
      rw [hempty] at h
      cases h
  | false =>
      rw [hempty] at h
      cases hprofile : o.profile <|> (CommandLine.override config o).profile with
      | none =>
          rw [hprofile] at h
          cases h
      | some file =>
          rw [hprofile] at h
          obtain ⟨profile, _, h⟩ := Fields.bind_eq_ok h
          obtain ⟨reference, _, h⟩ := Fields.bind_eq_ok h
          obtain rfl := Except.ok.inj h
          exact ⟨_, List.map_map.trans (List.map_id _)⟩

/-- A walk names each file once just when it finds no file under two paths that differ in their
components. It finds none so where the paths it is given are spelled alike, however often they are
repeated or lie in each other. The files of a plan are those of a walk. -/
theorem walk_namedOnce_iff (root : FileTree) (cwd : Path) (options : WalkOptions)
    (paths : List Path) :
    (NamedOnce cwd (Discovery.walk root cwd options paths) ↔
      ∀ p ∈ found root cwd options paths, ∀ q ∈ found root cwd options paths,
        sameFile cwd p q = true → p.components = q.components) ∧
    (root.isWellNamed = true → SpelledAlike paths →
      NamedOnce cwd (Discovery.walk root cwd options paths)) ∧
    (∀ s named o plan, CommandLine.AnalyzePlan.make s named o = .ok plan →
      ∃ options, plan.requests.map (·.file) =
        Discovery.walk s.files s.directory options o.paths) :=
  ⟨namedOnce_distinct_iff, namedOnce_of_spelledAlike, fun _ _ _ _ => exists_walk_of_make⟩

/-- A directory that is named twice, with a file in it that is named as well. -/
theorem walk_namedOnce_overlapping :
    let root : FileTree := .directory [("src", .directory [("b.cpp", .ofText "int x;\n")])]
    let cwd := Path.ofString "/"
    let paths := ["src", "src/b.cpp", "src/"].map Path.ofString
    root.isWellNamed = true ∧ SpelledAlike paths ∧
      found root cwd {} paths = List.replicate 3 (Path.ofString "src/b.cpp") ∧
      NamedOnce cwd (Discovery.walk root cwd {} paths) := by
  intro root cwd paths
  have hroot : root.isWellNamed = true := by decide
  have halike : SpelledAlike paths :=
    ⟨[], by
      simp only [paths, List.map_cons, List.map_nil, List.forall_mem_cons]
      exact ⟨⟨["src".toList], rfl⟩, ⟨["src".toList, "b.cpp".toList], rfl⟩, ⟨["src".toList], rfl⟩,
        nofun⟩⟩
  exact ⟨hroot, halike, by decide +kernel, (walk_namedOnce_iff root cwd {} paths).2.1 hroot halike⟩

/-- A leading dot is a component, so a file that is named with it and without it is found twice. -/
theorem walk_names_dotted_twice :
    let root : FileTree := .directory [("a.cpp", .ofText "int x;\n")]
    let cwd := Path.ofString "/"
    let paths := ["a.cpp", "./a.cpp"].map Path.ofString
    root.isWellNamed = true ∧
      sameFile cwd (Path.ofString "a.cpp") (Path.ofString "./a.cpp") = true ∧
      ¬ NamedOnce cwd (Discovery.walk root cwd {} paths) := by
  intro root cwd paths
  refine ⟨by decide, by decide, fun h => ?_⟩
  have hcomponents := namedOnce_distinct_iff.mp h
    (Path.ofString "a.cpp") (by decide +kernel) (Path.ofString "./a.cpp") (by decide +kernel)
    (by decide)
  revert hcomponents
  decide

end LintGate.Proofs.WalkedOnce
