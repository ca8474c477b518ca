import LintGate.Proofs.IgnoreViews
import LintGate.Proofs.WalkedOnce

/-!
Walks of one directory that is written in two ways. Both see the same files below it, where what the
user keeps out of all repositories does not tell the two ways apart; which of them are sources is
decided by patterns for the path as it is written, so the walks find the same files just when the
patterns take each of them under both paths or under none.
-/

namespace LintGate.Proofs.DirectorySpelling

open LintGate.Path (names sameFile)
open LintGate.Discovery
open LintGate.FileTree (byteLength)
open LintGate.Proofs.EntryNames
open LintGate.Proofs.FilePlace
open LintGate.Proofs.IgnoreViews
open LintGate.Proofs.NameBelow
open LintGate.Proofs.PathComponents
open LintGate.Proofs.PathOrder
open LintGate.Proofs.SamePlace
open LintGate.Proofs.Trails
open LintGate.Proofs.WalkedOnce

/-- Each file of the first list is one of the second, under whatever path. -/
def Covered (cwd : Path) (found found' : List Path) : Prop :=
  ∀ p ∈ found, ∃ p' ∈ found', sameFile cwd p p' = true

/-- The files of both lists are the same. -/
def SameFiles (cwd : Path) (found found' : List Path) : Prop :=
  Covered cwd found found' ∧ Covered cwd found' found

/-- A path that leads to a directory and is not taken for standard input, has no more than one dot
in front, and leaves room for the paths of everything below. -/
structure NamesDirectory (root : FileTree) (cwd r : Path) : Prop where
  isDirectory : (FileTree.find root cwd r).toOption.any (·.isDirectory) = true
  noStream : r.sameComponents (Path.ofString "-") = false
  dottedOnce : DottedOnce r
  dotAlone : DotAlone r
  hasRoom : ∀ t, FileTree.find root cwd r = .ok t →
    byteLength (slashed r) + t.extent + byteLength ".git/info/exclude".toList ≤
      FileTree.maxPathLength

/-- The ignore file of the user, where it counts, says the same of everything below the directory,
whichever way the directory is written. -/
def IsToldAlike (root : FileTree) (cwd : Path) (options : WalkOptions) (r r' : Path) : Prop :=
  options.respectsRepositories = true → ∀ t, FileTree.find root cwd r = .ok t →
    ∀ entry ∈ entriesAt [] t,
      options.userExcludes.verdict? (seen (below r entry.1).chars) entry.2 =
        options.userExcludes.verdict? (seen (below r' entry.1).chars) entry.2

section

variable {root : FileTree} {cwd r r' : Path} {options : WalkOptions}

theorem NamesDirectory.exists_place (h : NamesDirectory root cwd r) :
    ∃ q entries, FileTree.place root cwd r = .ok q ∧ q.tree = .directory entries := by
  have hdirectory := h.isDirectory
  rw [FileTree.find] at hdirectory
  cases hplace : FileTree.place root cwd r with
  | error fault =>
      rw [hplace] at hdirectory
      cases hdirectory
  | ok q =>
      rw [hplace] at hdirectory
      cases htree : q.tree with
      | directory entries => exact ⟨q, entries, rfl, htree⟩
      | _ => simp [Except.map, Except.toOption, htree, FileTree.isDirectory] at hdirectory

/-- Both paths lead to the same directory, and so do they with the same written behind them. -/
theorem NamesDirectory.interchangeable (h : NamesDirectory root cwd r)
    (h' : NamesDirectory root cwd r') (hsame : sameFile cwd r r' = true) :
    names cwd r = names cwd r' ∧ ∃ entries,
      FileTree.find root cwd r = .ok (.directory entries) ∧
      FileTree.find root cwd r' = .ok (.directory entries) ∧
      Interchangeable root cwd
        (FileTree.extentOf entries + byteLength ".git/info/exclude".toList) r r' := by
  obtain ⟨q, entries, hplace, htree⟩ := h.exists_place
  obtain ⟨q', entries', hplace', htree'⟩ := h'.exists_place
  have hnames := (sameFile_iff.mp hsame).2 (isEmpty_of_place hplace)
  obtain rfl := place_unique hplace hplace' hnames
  have hfind : FileTree.find root cwd r = .ok (.directory entries) := by
    rw [FileTree.find, hplace, ← htree]
    rfl
  have hfind' : FileTree.find root cwd r' = .ok (.directory entries) := by
    rw [FileTree.find, hplace', ← htree]
    rfl
  have hroom := h.hasRoom _ hfind
  have hroom' := h'.hasRoom _ hfind'
  rw [FileTree.extent] at hroom hroom'
  refine ⟨hnames, entries, hfind, hfind', ?_⟩
  refine ⟨isEmpty_of_place hplace, isEmpty_of_place hplace', h.dottedOnce, h'.dottedOnce,
    fun rest hrest => ?_⟩
  rw [FileTree.find, FileTree.find, place_slashed hplace, place_slashed hplace',
    if_neg (by omega : ¬ FileTree.maxPathLength < byteLength (slashed r) + byteLength rest),
    if_neg (by omega : ¬ FileTree.maxPathLength < byteLength (slashed r') + byteLength rest)]

/-- Walks of both paths follow the same trails. -/
theorem exists_trails (hroot : root.isWellNamed = true) (h : NamesDirectory root cwd r)
    (h' : NamesDirectory root cwd r') (hsame : sameFile cwd r r' = true)
    (huser : IsToldAlike root cwd options r r') :
    ∃ trails : List (List String), (∀ trail ∈ trails, AreNames trail ∧ trail ≠ []) ∧
      filesBelow root cwd options r = trails.map (below r) ∧
      filesBelow root cwd options r' = trails.map (below r') := by
  obtain ⟨hnames, entries, hfind, hfind', hboth⟩ := h.interchangeable h' hsame
  have hentries : FileTree.areWellNamed entries = true := isWellNamed_find hroot hfind
  have htrails : trailsIn (skipsAt root cwd options r) [] entries =
      trailsIn (skipsAt root cwd options r') [] entries := by
    refine trailsIn_congr (fun name up t hup hsize hentry => ?_) areNames_nil hentries
      (Nat.le_of_eq (Nat.zero_add _)) (List.Subset.refl (entriesIn [] entries))
    have hroom := hboth.mono (Nat.add_le_add_right hsize _)
    refine skipsAt_eq hroom (Nat.le_refl _) h.dotAlone h'.dotAlone hnames hup fun hrespects => ?_
    exact huser hrespects (.directory entries) hfind (name :: up, t.isDirectory) hentry
  refine ⟨trailsIn (skipsAt root cwd options r) [] entries, fun trail htrail => ?_, ?_, ?_⟩
  · exact ⟨areNames_of_mem_trailsIn areNames_nil hentries trail htrail,
      ne_nil_of_mem_trailsIn [] entries trail htrail⟩
  · exact filesBelow_eq root cwd options r hfind h.noStream
  · rw [htrails]
    exact filesBelow_eq root cwd options r' hfind' h'.noStream

theorem sameFile_below_iff (hr : r.isEmpty = false) (hr' : r'.isEmpty = false)
    (hnames : names cwd r = names cwd r') {trail trail' : List String} (htrail : AreNames trail)
    (htrail' : AreNames trail') :
    sameFile cwd (below r trail) (below r' trail') = true ↔ trail = trail' := by
  constructor
  · intro hsame
    have heq := (sameFile_iff.mp hsame).2 (isEmpty_below hr htrail)
    rw [names_below hr cwd htrail, names_below hr' cwd htrail', hnames,
      List.append_right_inj] at heq
    have hinjective : Function.Injective String.toList := fun _ _ => String.toList_inj.mp
    exact List.reverse_inj.mp (List.map_injective_iff.mpr hinjective heq)
  · rintro rfl
    rw [sameFile, beq_iff_eq, Path.normalComponents, Path.normalComponents,
      isEmpty_below hr htrail, isEmpty_below hr' htrail', names_below hr cwd htrail,
      names_below hr' cwd htrail, hnames]

theorem found_directory (h : NamesDirectory root cwd r) :
    found root cwd options [r] = (filesBelow root cwd options r).filter options.filter.accepts := by
  obtain ⟨q, entries, hplace, htree⟩ := h.exists_place
  have hfile : FileTree.hasFile root cwd r = false := by
    rw [FileTree.hasFile, FileTree.find, hplace]
    change q.tree.isFile = false
    rw [htree]
    rfl
  simp [found, List.partition_eq_filter_filter, hfile]

end

section Covered

variable {cwd r r' : Path}

theorem covered_distinct_iff {found found' : List Path} :
    Covered cwd (distinct found) (distinct found') ↔ Covered cwd found found' := by
  constructor
  · intro h p hp
    obtain ⟨q, hq, hcomponents⟩ := exists_mem_distinct hp
    obtain ⟨p', hp', hsame⟩ := h q hq
    exact ⟨p', mem_of_mem_distinct hp',
      (sameFile_equivalence cwd).trans (sameFile_of_components_eq cwd hcomponents) hsame⟩
  · intro h p hp
    obtain ⟨p', hp', hsame⟩ := h p (mem_of_mem_distinct hp)
    obtain ⟨q, hq, hcomponents⟩ := exists_mem_distinct hp'
    exact ⟨q, hq,
      (sameFile_equivalence cwd).trans hsame (sameFile_of_components_eq cwd hcomponents)⟩

theorem covered_filter_iff (hr : r.isEmpty = false) (hr' : r'.isEmpty = false)
    (hnames : names cwd r = names cwd r') {trails : List (List String)}
    (htrails : ∀ trail ∈ trails, AreNames trail) (picks : Path → Bool) :
    Covered cwd ((trails.map (below r)).filter picks) ((trails.map (below r')).filter picks) ↔
      ∀ trail ∈ trails, picks (below r trail) = true → picks (below r' trail) = true := by
  constructor
  · intro h trail htrail hpicked
    obtain ⟨p', hp', hsame⟩ :=
      h _ (List.mem_filter.mpr ⟨List.mem_map_of_mem htrail, hpicked⟩)
    obtain ⟨hmem, hpicked'⟩ := List.mem_filter.mp hp'
    obtain ⟨trail', htrail', rfl⟩ := List.mem_map.mp hmem
    rw [sameFile_below_iff hr hr' hnames (htrails _ htrail) (htrails _ htrail')] at hsame
    rwa [hsame]
  · intro h p hp
    obtain ⟨hmem, hpicked⟩ := List.mem_filter.mp hp
    obtain ⟨trail, htrail, rfl⟩ := List.mem_map.mp hmem
    refine ⟨below r' trail, List.mem_filter.mpr ⟨List.mem_map_of_mem htrail, ?_⟩, ?_⟩
    · exact h trail htrail hpicked
    · exact (sameFile_below_iff hr hr' hnames (htrails _ htrail) (htrails _ htrail)).mpr rfl

theorem sameFiles_filter_iff (hr : r.isEmpty = false) (hr' : r'.isEmpty = false)
    (hnames : names cwd r = names cwd r') {trails : List (List String)}
    (htrails : ∀ trail ∈ trails, AreNames trail) (picks : Path → Bool) :
    SameFiles cwd ((trails.map (below r)).filter picks) ((trails.map (below r')).filter picks) ↔
      ∀ trail ∈ trails, picks (below r trail) = picks (below r' trail) := by
  rw [SameFiles, covered_filter_iff hr hr' hnames htrails,
    covered_filter_iff hr' hr hnames.symm htrails]
  constructor
  · rintro ⟨hthere, hback⟩ trail htrail
    exact Bool.eq_iff_iff.mpr ⟨hthere trail htrail, hback trail htrail⟩
  · intro h
    exact ⟨fun trail htrail => (h trail htrail ▸ ·), fun trail htrail => (h trail htrail ▸ ·)⟩

theorem forall_sameFile_iff (hr : r.isEmpty = false) (hr' : r'.isEmpty = false)
    (hnames : names cwd r = names cwd r') {trails : List (List String)}
    (htrails : ∀ trail ∈ trails, AreNames trail) (P : Path → Path → Prop) :
    (∀ p ∈ trails.map (below r), ∀ p' ∈ trails.map (below r'), sameFile cwd p p' = true → P p p') ↔
      ∀ trail ∈ trails, P (below r trail) (below r' trail) := by
  constructor
  · intro h trail htrail
    exact h _ (List.mem_map_of_mem htrail) _ (List.mem_map_of_mem htrail)
      ((sameFile_below_iff hr hr' hnames (htrails _ htrail) (htrails _ htrail)).mpr rfl)
  · intro h p hp p' hp' hsame
    obtain ⟨trail, htrail, rfl⟩ := List.mem_map.mp hp
    obtain ⟨trail', htrail', rfl⟩ := List.mem_map.mp hp'
    rw [sameFile_below_iff hr hr' hnames (htrails _ htrail) (htrails _ htrail')] at hsame
    exact hsame ▸ h trail htrail

end Covered

section Walk

variable {root : FileTree} {cwd r r' : Path} {options : WalkOptions}

/-- The name of a file below a directory, and so its kind, is the last name of its trail. -/
theorem isSource_below (hr : r.isEmpty = false) (hr' : r'.isEmpty = false) {trail : List String}
    (htrail : AreNames trail) (hne : trail ≠ []) :
    (below r trail).isSource = (below r' trail).isSource := by
  have hname {d : Path} (hd : d.isEmpty = false) :
      (below d trail).components.getLast? =
        (trail.reverse.map (Path.Component.name ·.toList)).getLast? := by
    rw [components_below hd htrail, List.getLast?_append_of_ne_nil _ (by simpa using hne)]
  simp only [Path.isSource, Path.extension?, Path.fileName?, hname hr, hname hr']

theorem accepts_of_no_patterns (hincludes : options.includes = [])
    (hexcludes : options.excludes = []) (p : Path) : options.filter.accepts p = p.isSource := by
  simp [WalkOptions.filter, SourceFilter.ofPatterns, SourceFilter.accepts, SourceFilter.globs,
    SourceFilter.matchesAny, hincludes, hexcludes]

/-- Walks of a directory see the same files below it however it is written, and find the same just
when the patterns take each under both paths or under none; so they do without patterns. -/
theorem walk_sameFiles (hroot : root.isWellNamed = true) (h : NamesDirectory root cwd r)
    (h' : NamesDirectory root cwd r') (hsame : sameFile cwd r r' = true) (options : WalkOptions)
    (huser : IsToldAlike root cwd options r r') :
    SameFiles cwd (filesBelow root cwd options r) (filesBelow root cwd options r') ∧
    (SameFiles cwd (walk root cwd options [r]) (walk root cwd options [r']) ↔
      ∀ p ∈ filesBelow root cwd options r, ∀ p' ∈ filesBelow root cwd options r',
        sameFile cwd p p' = true → options.filter.accepts p = options.filter.accepts p') ∧
    (options.includes = [] → options.excludes = [] →
      SameFiles cwd (walk root cwd options [r]) (walk root cwd options [r'])) := by
  obtain ⟨trails, htrails, hbelow, hbelow'⟩ := exists_trails hroot h h' hsame huser
  obtain ⟨hnames, _, _, _, hboth⟩ := h.interchangeable h' hsame
  have hr := hboth.isEmpty
  have hr' := hboth.isEmpty'
  have hall : ∀ trail ∈ trails, AreNames trail := fun trail htrail => (htrails trail htrail).1
  have hpicks := sameFiles_filter_iff hr hr' hnames hall
  have hwalk : SameFiles cwd (walk root cwd options [r]) (walk root cwd options [r']) ↔
      ∀ trail ∈ trails, options.filter.accepts (below r trail) =
        options.filter.accepts (below r' trail) := by
    rw [← hpicks, SameFiles, walk, walk, covered_distinct_iff, covered_distinct_iff,
      found_directory h, found_directory h', hbelow, hbelow']
    rfl
  refine ⟨?_, ?_, fun hincludes hexcludes => hwalk.mpr fun trail htrail => ?_⟩
  · rw [hbelow, hbelow']
    simpa using (hpicks fun _ => true).mpr fun _ _ => rfl
  · rw [hwalk, hbelow, hbelow']
    exact (forall_sameFile_iff hr hr' hnames hall fun p p' =>
      options.filter.accepts p = options.filter.accepts p').symm
  · rw [accepts_of_no_patterns hincludes hexcludes, accepts_of_no_patterns hincludes hexcludes]
    exact isSource_below hr hr' (htrails trail htrail).1 (htrails trail htrail).2

theorem not_sameFiles_of_mem_found {p : Path} (hmem : p ∈ found root cwd options [r'])
    (hnone : ∀ q ∈ found root cwd options [r], sameFile cwd p q = false) :
    ¬ SameFiles cwd (walk root cwd options [r]) (walk root cwd options [r']) := by
  intro h
  obtain ⟨q, hq, hsame⟩ := covered_distinct_iff.mp h.2 p hmem
  rw [hnone q hq] at hsame
  cases hsame

end Walk

/-- A directory with an ignore file in a repository, as it is seen from the directory above it and
from the root, by a user who has an ignore file too. -/
theorem walk_sameFiles_absolute :
    let root : FileTree := .directory [("w", .directory [(".git", .empty), ("src", .directory
      [(".ignore", .ofText "/b.cpp\n"), ("a.cpp", .ofText "int x;\n"),
        ("b.cpp", .ofText "int y;\n"), ("c.cpp", .ofText "int z;\n")])])]
    let cwd := Path.ofString "/w"
    let options : WalkOptions :=
      { userExcludes := .ofBytes (Path.ofString "") (Text.Utf8.encode "c.cpp\n") }
    let r := Path.ofString "src"
    let r' := Path.ofString "/w/src/../src/"
    root.isWellNamed = true ∧ NamesDirectory root cwd r ∧ NamesDirectory root cwd r' ∧
      sameFile cwd r r' = true ∧ IsToldAlike root cwd options r r' ∧
      found root cwd options [r] = [Path.ofString "src/a.cpp"] ∧
      SameFiles cwd (walk root cwd options [r]) (walk root cwd options [r']) := by
  intro root cwd options r r'
  have hroot : root.isWellNamed = true := by decide
  have h : NamesDirectory root cwd r := by
    refine ⟨by decide +kernel, by decide +kernel, by decide +kernel, by decide +kernel, ?_⟩
    rintro t ⟨⟩
    decide +kernel
  have h' : NamesDirectory root cwd r' := by
    refine ⟨by decide +kernel, by decide +kernel, by decide +kernel, by decide +kernel, ?_⟩
    rintro t ⟨⟩
    decide +kernel
  have hsame : sameFile cwd r r' = true := by decide +kernel
  have huser : IsToldAlike root cwd options r r' := by
    rintro - t ⟨⟩
    decide +kernel
  exact ⟨hroot, h, h', hsame, huser, by decide +kernel,
    (walk_sameFiles hroot h h' hsame options huser).2.2 rfl rfl⟩

/-- Include patterns see the path as it is written, and so does the ignore file of the user. Without
them, more than one dot in front hides names from the ignore file of a directory, and a dot with
several slashes hides them from those above; and the path of standard input is walked only where a
dot stands in front. -/
theorem walk_differs_by_spelling :
    (let root : FileTree := .directory [("src", .directory [("a.cpp", .ofText "int x;\n")])]
      let cwd := Path.ofString "/"
      let options : WalkOptions := { includes := ["src/**"] }
      sameFile cwd (Path.ofString ".") (Path.ofString "src/..") = true ∧
        ¬ SameFiles cwd (walk root cwd options [Path.ofString "."])
          (walk root cwd options [Path.ofString "src/.."])) ∧
    (let root : FileTree := .directory
        [(".git", .empty), ("a.cpp", .ofText "int x;\n"), ("x", .empty)]
      let cwd := Path.ofString "/"
      let options : WalkOptions :=
        { userExcludes := .ofBytes (Path.ofString "") (Text.Utf8.encode "/a.cpp\n") }
      sameFile cwd (Path.ofString ".") (Path.ofString "x/..") = true ∧
        ¬ SameFiles cwd (walk root cwd options [Path.ofString "."])
          (walk root cwd options [Path.ofString "x/.."])) ∧
    (let root : FileTree := .directory [("src", .directory
        [(".ignore", .ofText "/a.cpp\n"), ("a.cpp", .ofText "int x;\n")])]
      let cwd := Path.ofString "/"
      sameFile cwd (Path.ofString "src") (Path.ofString "././src") = true ∧
        ¬ SameFiles cwd (walk root cwd {} [Path.ofString "src"])
          (walk root cwd {} [Path.ofString "././src"])) ∧
    (let root : FileTree := .directory [(".ignore", .ofText "/w/a.cpp\n"),
        ("w", .directory [("a.cpp", .ofText "int x;\n")])]
      let cwd := Path.ofString "/w"
      sameFile cwd (Path.ofString ".") (Path.ofString ".//") = true ∧
        ¬ SameFiles cwd (walk root cwd {} [Path.ofString "."])
          (walk root cwd {} [Path.ofString ".//"])) ∧
    (let root : FileTree := .directory [("-", .directory [("a.cpp", .ofText "int x;\n")])]
      let cwd := Path.ofString "/"
      sameFile cwd (Path.ofString "-") (Path.ofString "./-") = true ∧
        ¬ SameFiles cwd (walk root cwd {} [Path.ofString "-"])
          (walk root cwd {} [Path.ofString "./-"])) := by
  refine ⟨⟨by decide +kernel, ?_⟩, ⟨by decide +kernel, ?_⟩, ⟨by decide +kernel, ?_⟩,
    ⟨by decide +kernel, ?_⟩, ⟨by decide +kernel, ?_⟩⟩
  · exact @not_sameFiles_of_mem_found _ _ _ _ _ (Path.ofString "src/../src/a.cpp")
      (by decide +kernel) (by decide +kernel)
  · exact @not_sameFiles_of_mem_found _ _ _ _ _ (Path.ofString "x/../a.cpp") (by decide +kernel)
      (by decide +kernel)
  · exact @not_sameFiles_of_mem_found _ _ _ _ _ (Path.ofString "././src/a.cpp") (by decide +kernel)
      (by decide +kernel)
  · exact @not_sameFiles_of_mem_found _ _ _ _ _ (Path.ofString ".//a.cpp") (by decide +kernel)
      (by decide +kernel)
  · exact @not_sameFiles_of_mem_found _ _ _ _ _ (Path.ofString "./-/a.cpp") (by decide +kernel)
      (by decide +kernel)

end LintGate.Proofs.DirectorySpelling
