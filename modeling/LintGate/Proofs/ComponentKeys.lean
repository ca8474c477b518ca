import LintGate.Proofs.NormalForms

/-!
The keys of the files below the root of a project: a file has a key when its normal form goes on
from that of the root, the key says how it goes on, and no two files share one.
-/

namespace LintGate.Proofs.ComponentKeys

open LintGate.Path
open LintGate.Proofs.FilePlace
open LintGate.Proofs.NormalForms
open LintGate.Proofs.PathComponents

variable {cwd root file : Path} {project key : String} {below below' : List (List Char)}

/-- The key of what lies at these names below the root. -/
def keyAt (project : String) (below : List (List Char)) : String :=
  project ++ ":" ++ String.ofList (['/'].intercalate below)

section Keyed

/-- A file has a key when more is left of its normal form than of the normal form of the root. -/
theorem componentKey?_eq_some_iff_append : componentKey? cwd project root file = some key ↔
    ∃ rest : List Component, rest ≠ [] ∧
      normalComponents cwd file = normalComponents cwd root ++ rest ∧
      key = keyAt project (rest.map (·.chars)) := by
  constructor
  · intro h
    rw [componentKey?] at h
    split at h
    · rename_i hprefix
      obtain ⟨rest, hrest⟩ := List.isPrefixOf_iff_prefix.mp hprefix
      rw [← hrest, List.drop_left] at h
      split at h
      · cases h
      · rename_i hne
        exact ⟨rest, hne, hrest.symm, (Option.some.inj h).symm⟩
    · cases h
  · rintro ⟨rest, hne, hall, rfl⟩
    have hprefix : (normalComponents cwd root).isPrefixOf (normalComponents cwd file) = true :=
      List.isPrefixOf_iff_prefix.mpr ⟨rest, hall.symm⟩
    rw [componentKey?, if_pos hprefix, hall, List.drop_left]
    cases rest with
    | nil => exact absurd rfl hne
    | cons c rest => rfl

/-- The key says with which names the file goes on from the root. -/
theorem componentKey?_eq_some_iff_names (hroot : root.isEmpty = false)
    (hfile : file.isEmpty = false) : componentKey? cwd project root file = some key ↔
      ∃ below, below ≠ [] ∧ names cwd file = names cwd root ++ below ∧
        key = keyAt project below := by
  have hchars (below : List (List Char)) : (below.map Component.name).map (·.chars) = below := by
    rw [List.map_map]
    exact List.map_id below
  rw [componentKey?_eq_some_iff_append, normalComponents_of_ne_nil hroot,
    normalComponents_of_ne_nil hfile]
  constructor
  · rintro ⟨rest, hne, hall, rfl⟩
    obtain ⟨above, below, hnames, habove, rfl⟩ := List.map_eq_append_iff.mp (List.cons.inj hall).2
    obtain rfl := map_name_injective habove
    exact ⟨below, by simpa using hne, hnames, by rw [hchars]⟩
  · rintro ⟨below, hne, hall, rfl⟩
    refine ⟨below.map .name, by simpa using hne, ?_, by rw [hchars]⟩
    rw [hall, List.map_append, List.cons_append]

/-- The key says how the normal form of the file goes on from the normal form of the root. -/
theorem componentKey?_eq_some_iff (hroot : root.isEmpty = false) (hfile : file.isEmpty = false) :
    componentKey? cwd project root file = some key ↔
      ∃ below, below ≠ [] ∧
        (normalize cwd file).components =
          (normalize cwd root).components ++ below.map .name ∧
        key = keyAt project below := by
  rw [componentKey?_eq_some_iff_names hroot hfile, components_normalize, components_normalize,
    normalComponents_of_ne_nil hroot, normalComponents_of_ne_nil hfile]
  simp only [List.cons_append, ← List.map_append, List.cons_inj_right, map_name_injective.eq_iff]

/-- A name that only starts like that of the root is not below it. -/
example : componentKey? ⟨"/".toList⟩ "proj" ⟨"work/proj".toList⟩ ⟨"/work/project/a.c".toList⟩ =
    none := by decide +kernel

theorem componentKey?_congr {root' file' : Path} (hroot : sameFile cwd root root' = true)
    (hfile : sameFile cwd file file' = true) :
    componentKey? cwd project root' file' = componentKey? cwd project root file := by
  rw [componentKey?, componentKey?, sameFile_iff_normalComponents.mp hroot,
    sameFile_iff_normalComponents.mp hfile]

end Keyed

section Distinct

theorem intercalate_inj (hbelow : ∀ label ∈ below, '/' ∉ label)
    (hbelow' : ∀ label ∈ below', '/' ∉ label) (hne : below ≠ []) (hne' : below' ≠ [])
    (h : ['/'].intercalate below = ['/'].intercalate below') : below = below' := by
  rw [← List.splitOn_intercalate '/' hbelow hne, h, List.splitOn_intercalate '/' hbelow' hne']

theorem keyAt_inj (hbelow : ∀ label ∈ below, '/' ∉ label)
    (hbelow' : ∀ label ∈ below', '/' ∉ label) (hne : below ≠ []) (hne' : below' ≠ [])
    (h : keyAt project below = keyAt project below') : below = below' := by
  refine intercalate_inj hbelow hbelow' hne hne' ?_
  have hchars := congrArg String.toList h
  simp only [keyAt, String.toList_append, String.toList_ofList] at hchars
  exact List.append_cancel_left hchars

/-- Files below one root that have one key are the same file. -/
theorem sameFile_of_componentKey? {file' : Path} (hroot : root.isEmpty = false)
    (hfile : file.isEmpty = false) (hfile' : file'.isEmpty = false)
    (h : componentKey? cwd project root file = some key)
    (h' : componentKey? cwd project root file' = some key) : sameFile cwd file file' = true := by
  obtain ⟨below, hne, hnames, hkey⟩ := (componentKey?_eq_some_iff_names hroot hfile).mp h
  obtain ⟨below', hne', hnames', hkey'⟩ := (componentKey?_eq_some_iff_names hroot hfile').mp h'
  have hslash {p : Path} {below : List (List Char)} (h : names cwd p = names cwd root ++ below) :
      ∀ label ∈ below, '/' ∉ label := fun label hlabel =>
    (isStep_of_mem_names (h ▸ List.mem_append_right _ hlabel : label ∈ names cwd p)).1
  obtain rfl := keyAt_inj (hslash hnames) (hslash hnames') hne hne' (hkey.symm.trans hkey')
  exact sameFile_of_names hfile hfile' (hnames.trans hnames'.symm)

end Distinct

section Join

/-- Components that are names lead on from the names of the root. -/
theorem names_join_of_components {rel : Path} (h : rel.components = below.map .name)
    (hne : below ≠ []) : names cwd (root.join rel) = names cwd root ++ below := by
  have hrelative : rel.isAbsolute = false := by
    rw [(isAbsolute_and_isEmpty_eq rel).1, h]
    cases below with
    | nil => exact absurd rfl hne
    | cons label rest => rfl
  rw [names_join cwd root hrelative, onward, ← walk_components, h, walk_names, List.reverse_append,
    List.reverse_reverse, List.reverse_reverse]

theorem componentKey?_join {rel : Path} (hroot : root.isEmpty = false)
    (h : rel.components = below.map .name) (hne : below ≠ []) :
    componentKey? cwd project root (root.join rel) = some (keyAt project below) := by
  have hempty : (root.join rel).isEmpty = false := by rw [isEmpty_join, hroot, Bool.false_and]
  exact (componentKey?_eq_some_iff_names hroot hempty).mpr
    ⟨below, hne, names_join_of_components h hne, rfl⟩

/-- Names with a slash between them are the components of the text. -/
theorem components_intercalate (h : ∀ label ∈ below, IsStep (.name label)) (hne : below ≠ []) :
    components ⟨['/'].intercalate below⟩ = below.map .name := by
  have hpieces := pieces_intercalate h hne
  cases below with
  | nil => exact absurd rfl hne
  | cons label rest =>
      obtain ⟨hlabel, hrest⟩ := List.forall_mem_cons.mp h
      cases label with
      | nil => cases hlabel.2
      | cons c first =>
          have hdot : c :: first ≠ ['.'] := fun hdot => by cases hdot ▸ hlabel.2
          have hinner : innerComponent? (c :: first) = some (.name (c :: first)) := hlabel.2
          rw [components_of_pieces hpieces, leading, if_neg hdot, hinner,
            filterMap_of_isStep hrest]
          rfl

/-- What stands behind the root, one slash between its names, is what the key says. -/
theorem componentKey?_join_text {rel : Path} (hroot : root.isEmpty = false)
    (hrel : rel.chars = ['/'].intercalate below) (h : ∀ label ∈ below, IsStep (.name label))
    (hne : below ≠ []) :
    componentKey? cwd project root (root.join rel) = some (project ++ ":" ++ rel.text) := by
  obtain ⟨chars⟩ := rel
  obtain rfl : chars = ['/'].intercalate below := hrel
  exact componentKey?_join hroot (components_intercalate h hne) hne

end Join

/-- The keys of the files below a root. -/
structure Keyed (cwd : Path) (project : String) (root : Path) : Prop where
  eq_some_iff {file : Path} {key : String} : file.isEmpty = false →
    (componentKey? cwd project root file = some key ↔
      ∃ below, below ≠ [] ∧
        (normalize cwd file).components = (normalize cwd root).components ++ below.map .name ∧
        key = keyAt project below)
  congr {root' file file' : Path} : sameFile cwd root root' = true →
    sameFile cwd file file' = true →
    componentKey? cwd project root' file' = componentKey? cwd project root file
  join {rel : Path} {below : List (List Char)} : rel.components = below.map .name → below ≠ [] →
    componentKey? cwd project root (root.join rel) = some (keyAt project below)
  join_text {rel : Path} {below : List (List Char)} : rel.chars = ['/'].intercalate below →
    (∀ label ∈ below, IsStep (.name label)) → below ≠ [] →
    componentKey? cwd project root (root.join rel) = some (project ++ ":" ++ rel.text)
  sameFile {file file' : Path} {key : String} : file.isEmpty = false → file'.isEmpty = false →
    componentKey? cwd project root file = some key →
    componentKey? cwd project root file' = some key → sameFile cwd file file' = true

theorem keyed_of_ne_nil (cwd : Path) (project : String) {root : Path}
    (hroot : root.isEmpty = false) : Keyed cwd project root where
  eq_some_iff := componentKey?_eq_some_iff hroot
  congr := componentKey?_congr
  join := componentKey?_join hroot
  join_text := componentKey?_join_text hroot
  sameFile := sameFile_of_componentKey? hroot

theorem keyed_project : isEmpty ⟨"/work/proj".toList⟩ = false ∧
    Keyed ⟨"/work".toList⟩ "proj" ⟨"/work/proj".toList⟩ :=
  ⟨by decide, keyed_of_ne_nil _ _ (by decide)⟩

end LintGate.Proofs.ComponentKeys
