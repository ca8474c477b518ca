import LintGate.Proofs.IgnoreViews
import LintGate.Proofs.PathOrder
import LintGate.Proofs.SortedEntries
import Mathlib.Data.List.Sort

/-!
A walk of several paths. Files are found path by path, in whatever order they come, and put in the
order of their paths once all of them are there, so a walk of several paths is the union of the
walks of each. Every path in it leads to a source that the patterns let through.
-/

namespace LintGate.Proofs.WalkedUnion

open Std
open LintGate.Path (Component components)
open LintGate.Discovery
open LintGate.FileTree (byteLength place find)
open LintGate.Proofs.EntryNames
open LintGate.Proofs.FilePlace
open LintGate.Proofs.Fields
open LintGate.Proofs.IgnoreViews
open LintGate.Proofs.PathComponents
open LintGate.Proofs.PathOrder
open LintGate.Proofs.SamePlace
open LintGate.Proofs.Trails

section Order

/-- The order of components, one after another. -/
def Precedes (a b : List Component) : Prop :=
  List.compareLex Component.compare a b = .lt

instance : Std.Irrefl Precedes := by
  constructor
  intro a h
  have hself : List.compareLex Component.compare a a = .eq := ReflCmp.compare_self
  cases hself.symm.trans h

instance : Std.Antisymm Precedes := by
  constructor
  intro a b h h'
  have hswap : List.compareLex Component.compare a b =
      (List.compareLex Component.compare b a).swap := OrientedCmp.eq_swap
  rw [Precedes] at h h'
  rw [h, h'] at hswap
  cases hswap

variable {p : Path} {paths others : List Path}

/-- The paths ascend, so that no two of them are equal. -/
def Ascending (paths : List Path) : Prop :=
  paths.Pairwise fun p q => Path.compare p q = .lt

instance (paths : List Path) : Decidable (Ascending paths) :=
  inferInstanceAs (Decidable (List.Pairwise _ _))

/-- The path stands in the list, however it is written there. -/
def Listed (p : Path) (paths : List Path) : Prop :=
  ∃ q ∈ paths, p.components = q.components

theorem listed_distinct_iff : Listed p (distinct paths) ↔ Listed p paths := by
  constructor
  · rintro ⟨q, hq, hcomponents⟩
    exact ⟨q, mem_of_mem_distinct hq, hcomponents⟩
  · rintro ⟨q, hq, hcomponents⟩
    obtain ⟨q', hq', hsame⟩ := exists_mem_distinct hq
    exact ⟨q', hq', hcomponents.trans hsame⟩

theorem listed_append_iff : Listed p (paths ++ others) ↔ Listed p paths ∨ Listed p others := by
  simp only [Listed, List.mem_append, or_and_right, exists_or]

theorem listed_congr (h : ∀ q, q ∈ paths ↔ q ∈ others) : Listed p paths ↔ Listed p others := by
  simp only [Listed, h]

theorem mem_map_components_iff : p.components ∈ paths.map components ↔ Listed p paths := by
  simp only [Listed, List.mem_map, eq_comm]

theorem map_components_subset (h : ∀ p, Listed p paths → Listed p others) :
    paths.map components ⊆ others.map components := by
  intro c hc
  obtain ⟨p, hp, rfl⟩ := List.mem_map.mp hc
  exact mem_map_components_iff.mpr (h p ⟨p, hp, rfl⟩)

/-- Lists in ascending order in which the same paths stand are equal, path by path. -/
theorem Ascending.map_components_eq (h : Ascending paths) (h' : Ascending others)
    (hlisted : ∀ p, Listed p paths ↔ Listed p others) :
    paths.map components = others.map components := by
  have hpairwise {ps : List Path} (h : Ascending ps) : (ps.map components).Pairwise Precedes :=
    List.pairwise_map.mpr h
  refine (hpairwise h).eq_of_mem_iff (hpairwise h') fun c => ?_
  constructor
  · apply map_components_subset
    intro p hp
    exact (hlisted p).mp hp
  · apply map_components_subset
    intro p hp
    exact (hlisted p).mpr hp

end Order

section Found

variable {root : FileTree} {cwd p r : Path} {options : WalkOptions} {paths others : List Path}

/-- Each path that is found is found for one of the paths alone. -/
theorem mem_found_iff :
    p ∈ found root cwd options paths ↔ ∃ r ∈ paths, p ∈ found root cwd options [r] := by
  simp only [found, List.partition_eq_filter_filter, List.mem_filter, List.mem_append,
    List.mem_flatMap, List.mem_singleton]
  constructor
  · rintro ⟨⟨hp, hfile⟩ | ⟨r, ⟨hr, hfile⟩, hp⟩, haccepts⟩
    · exact ⟨p, hp, .inl ⟨rfl, hfile⟩, haccepts⟩
    · exact ⟨r, hr, .inr ⟨r, ⟨rfl, hfile⟩, hp⟩, haccepts⟩
  · rintro ⟨r, hr, ⟨rfl, hfile⟩ | ⟨_, ⟨rfl, hfile⟩, hp⟩, haccepts⟩
    · exact ⟨.inl ⟨hr, hfile⟩, haccepts⟩
    · exact ⟨.inr ⟨_, ⟨hr, hfile⟩, hp⟩, haccepts⟩

theorem mem_found_append_iff :
    p ∈ found root cwd options (paths ++ others) ↔
      p ∈ found root cwd options paths ∨ p ∈ found root cwd options others := by
  rw [mem_found_iff, mem_found_iff, @mem_found_iff _ _ _ _ others]
  simp only [List.mem_append, or_and_right, exists_or]

end Found

section Files

/-- Names lead from entry to entry to a file. -/
inductive LeadsToFile : FileTree → List String → Prop
  | here {t : FileTree} : t.isFile = true → LeadsToFile t []
  | enter {entries : List (String × FileTree)} {name : String} {t : FileTree} {rest : List String} :
      (name, t) ∈ entries → LeadsToFile t rest → LeadsToFile (.directory entries) (name :: rest)

section

variable {skips : List String → String → FileTree → Bool}

mutual
theorem leadsToFile_of_mem_trailsAt {up : List String} (t : FileTree) :
    ∀ trail ∈ trailsAt skips up t,
      ∃ names, LeadsToFile t names ∧ trail = names.reverse ++ up := by
  cases t with
  | directory entries =>
      intro trail htrail
      obtain ⟨name, t, names, hmem, hleads, rfl⟩ :=
        leadsToFile_of_mem_trailsIn entries trail htrail
      exact ⟨name :: names, .enter hmem hleads, by simp⟩
  | file content executable =>
      intro trail htrail
      exact ⟨[], .here rfl, by simpa [trailsAt] using htrail⟩
  | utility program =>
      intro trail htrail
      exact ⟨[], .here rfl, by simpa [trailsAt] using htrail⟩

theorem leadsToFile_of_mem_trailsIn {up : List String} (entries : List (String × FileTree)) :
    ∀ trail ∈ trailsIn skips up entries, ∃ name t names,
      (name, t) ∈ entries ∧ LeadsToFile t names ∧ trail = names.reverse ++ name :: up := by
  cases entries with
  | nil => exact nofun
  | cons entry rest =>
      obtain ⟨name, t⟩ := entry
      have hlater : ∀ trail ∈ trailsIn skips up rest, ∃ other u names,
          (other, u) ∈ (name, t) :: rest ∧ LeadsToFile u names ∧
            trail = names.reverse ++ other :: up := by
        intro trail htrail
        obtain ⟨other, u, names, hmem, hleads, htrail⟩ :=
          leadsToFile_of_mem_trailsIn rest trail htrail
        exact ⟨other, u, names, List.mem_cons_of_mem _ hmem, hleads, htrail⟩
      rw [trailsIn]
      split
      · exact hlater
      · intro trail htrail
        rcases List.mem_append.mp htrail with hhere | hrest
        · obtain ⟨names, hleads, rfl⟩ := leadsToFile_of_mem_trailsAt t trail hhere
          exact ⟨name, t, names, List.mem_cons_self, hleads, rfl⟩
        · exact hlater trail hrest
end

end

/-- A given path, or one with names behind it that lead to a file from what lies there. -/
def LiesIn (root : FileTree) (cwd : Path) (paths : List Path) (p : Path) : Prop :=
  ∃ r ∈ paths, ∃ t names,
    find root cwd r = .ok t ∧ LeadsToFile t names ∧ p = below r names.reverse

variable {root : FileTree} {cwd p r : Path} {options : WalkOptions} {paths others : List Path}

theorem liesIn_of_mem_found (h : p ∈ found root cwd options paths) : LiesIn root cwd paths p := by
  simp only [found, List.partition_eq_filter_filter, List.mem_filter, List.mem_append,
    List.mem_flatMap] at h
  obtain ⟨⟨hp, hfile⟩ | ⟨r, ⟨hr, _⟩, hp⟩, _⟩ := h
  · rw [FileTree.hasFile] at hfile
    split at hfile
    · rename_i t hfind
      exact ⟨p, hp, t, [], hfind, .here hfile, rfl⟩
    · cases hfile
  · obtain ⟨t, trail, hfind, htrail, rfl⟩ := exists_of_mem_filesBelow root cwd options r hp
    cases t with
    | directory entries =>
        obtain ⟨name, u, names, hmem, hleads, rfl⟩ :=
          leadsToFile_of_mem_trailsIn entries trail htrail
        exact ⟨r, hr, _, name :: names, hfind, .enter hmem hleads, by simp⟩
    | file content executable => cases htrail
    | utility program => cases htrail

/-- Nothing is found for paths that lead nowhere. -/
theorem mem_found_congr
    (h : ∀ r, (find root cwd r).isOk = true → (r ∈ paths ↔ r ∈ others)) :
    p ∈ found root cwd options paths ↔ p ∈ found root cwd options others := by
  have hexists {r : Path} (hp : p ∈ found root cwd options [r]) :
      (find root cwd r).isOk = true := by
    obtain ⟨_, hr, t, _, hfind, _⟩ := liesIn_of_mem_found hp
    obtain rfl := List.mem_singleton.mp hr
    rw [hfind]
    rfl
  rw [mem_found_iff, @mem_found_iff _ _ _ _ others]
  constructor
  · rintro ⟨r, hr, hp⟩
    exact ⟨r, (h r (hexists hp)).mp hr, hp⟩
  · rintro ⟨r, hr, hp⟩
    exact ⟨r, (h r (hexists hp)).mpr hr, hp⟩

end Files

section Storable

mutual
/-- Whether a file system can hold the tree: no directory has two entries of one name, and every
entry has a name that entries can have and that is not too long. -/
def isStorable : FileTree → Bool
  | .directory entries => areStorable entries
  | .file _ _ => true
  | .utility _ => true

/-- Whether a directory with these entries can be held. -/
def areStorable : List (String × FileTree) → Bool
  | [] => true
  | (name, t) :: rest =>
    FileTree.isEntryName name && decide (byteLength name.toList ≤ FileTree.maxNameLength) &&
      rest.all (·.1 != name) && isStorable t && areStorable rest
end

/-- A path that is not too long and has no character that ends it. -/
def Fits (p : Path) : Prop :=
  '\x00' ∉ p.chars ∧ byteLength p.chars ≤ FileTree.maxPathLength

instance (p : Path) : Decidable (Fits p) :=
  inferInstanceAs (Decidable (_ ∧ _))

theorem areStorable_iff {entries : List (String × FileTree)} :
    areStorable entries = true ↔ (entries.map (·.1)).Nodup ∧ ∀ e ∈ entries,
      FileTree.isEntryName e.1 = true ∧ byteLength e.1.toList ≤ FileTree.maxNameLength ∧
        isStorable e.2 = true := by
  induction entries with
  | nil => simp [areStorable]
  | cons entry rest ih =>
      obtain ⟨name, t⟩ := entry
      rw [List.map_cons, List.nodup_cons, List.forall_mem_cons]
      have hapart : rest.all (·.1 != name) = true ↔ name ∉ rest.map (·.1) := by
        simp only [List.all_eq_true, bne_iff_ne, List.mem_map, not_exists, not_and, ne_eq]
      simp only [areStorable, Bool.and_eq_true, decide_eq_true_eq, ih, hapart]
      constructor
      · rintro ⟨⟨⟨⟨hname, hlength⟩, hapart⟩, ht⟩, hnodup, hrest⟩
        exact ⟨⟨hapart, hnodup⟩, ⟨hname, hlength, ht⟩, hrest⟩
      · rintro ⟨⟨hapart, hnodup⟩, ⟨hname, hlength, ht⟩, hrest⟩
        exact ⟨⟨⟨⟨hname, hlength⟩, hapart⟩, ht⟩, hnodup, hrest⟩

variable {root : FileTree} {cwd d p r : Path}

theorem isStorable_of_isWay {way : List (String × FileTree)} (h : isStorable root = true)
    (hway : IsWay root way) : isStorable (FileTree.Place.mk root way).tree = true := by
  induction hway with
  | root => exact h
  | @enter way name t hway hget ih =>
      have hmem := EntryNames.mem_of_get? hget
      cases htree : (FileTree.Place.mk root way).tree with
      | directory entries =>
          rw [htree] at ih hmem
          exact ((areStorable_iff.mp ih).2 _ hmem).2.2
      | file content executable =>
          rw [htree] at hmem
          cases hmem
      | utility program =>
          rw [htree] at hmem
          cases hmem

theorem Fits.mono (h : Fits p) (hleading : d.chars <+: p.chars) : Fits d := by
  obtain ⟨rest, hrest⟩ := hleading
  obtain ⟨hnull, hlength⟩ := h
  rw [← hrest] at hnull hlength
  rw [byteLength_append] at hlength
  exact ⟨fun hmem => hnull (List.mem_append_left rest hmem), by omega⟩

theorem prefix_below (d : Path) {up : List String} (hup : AreNames up) :
    d.chars <+: (below d up).chars := by
  induction up with
  | nil => exact List.prefix_rfl
  | cons name up ih =>
      obtain ⟨hname, hrest⟩ := List.forall_mem_cons.mp hup
      exact (ih hrest).trans (prefix_join (isEntryName_iff.mp hname))

theorem areNames_of_leadsToFile {t : FileTree} {names : List String} (h : LeadsToFile t names)
    (ht : isStorable t = true) : AreNames names := by
  induction h with
  | here => exact areNames_nil
  | enter hmem hleads ih =>
      obtain ⟨hname, _, ht⟩ := (areStorable_iff.mp ht).2 _ hmem
      exact List.forall_mem_cons.mpr ⟨hname, ih ht⟩

/-- The name of an entry behind a directory leads to the entry. -/
theorem place_entry {q : FileTree.Place} {entries : List (String × FileTree)} {name : String}
    {t : FileTree} (hplace : place root cwd r = .ok q) (hq : q.tree = .directory entries)
    (hentries : areStorable entries = true) (hmem : (name, t) ∈ entries)
    (hfits : Fits (r.join (Path.ofString name))) :
    place root cwd (r.join (Path.ofString name)) =
      .ok { q with trail := (name, t) :: q.trail } := by
  obtain ⟨hnodup, hall⟩ := areStorable_iff.mp hentries
  obtain ⟨hname, hlength, _⟩ := hall _ hmem
  have hget : Dictionary.get? name entries = some t := SortedEntries.get?_of_mem hnodup hmem
  rw [join_name (isEmpty_of_place hplace) hname] at hfits ⊢
  obtain ⟨hnull, hroom⟩ := hfits
  rw [byteLength_append] at hroom
  have hnull' : name.toList.contains '\x00' = false := by
    simpa using fun hmem => hnull (List.mem_append_right _ hmem)
  have hslash : '/' ∉ name.toList := (isEntryName_iff.mp hname).1
  rw [place_slashed hplace, hnull', if_neg (by simp), if_neg (by omega), pieces_of_not_mem hslash,
    FileTree.Place.follow, hq]
  simp only [FileTree.isEntryName, Bool.and_eq_true, bne_iff_ne] at hname
  obtain ⟨⟨⟨_, hne⟩, hdot⟩, hdots⟩ := hname
  simp [hne, hdot, hdots, Nat.not_lt.mpr hlength, String.ofList_toList, hget,
    FileTree.Place.follow]

theorem hasFile_below {t : FileTree} {names : List String} (h : LeadsToFile t names)
    {q : FileTree.Place} (hplace : place root cwd r = .ok q) (hq : q.tree = t)
    (ht : isStorable t = true) (hfits : Fits (below r names.reverse)) :
    FileTree.hasFile root cwd (below r names.reverse) = true := by
  induction h generalizing r q with
  | here hfile =>
      rw [List.reverse_nil, below, FileTree.hasFile, find, hplace]
      change q.tree.isFile = true
      rw [hq, hfile]
  | @enter entries name u rest hmem hleads ih =>
      have hu := ((areStorable_iff.mp ht).2 _ hmem).2.2
      have hrest : AreNames rest.reverse := by
        intro name hname
        exact areNames_of_leadsToFile hleads hu name (List.mem_reverse.mp hname)
      rw [List.reverse_cons, ← below_append] at hfits ⊢
      have hnext : Fits (below r [name]) := hfits.mono (prefix_below _ hrest)
      exact ih (place_entry hplace hq ht hmem hnext) rfl hu hfits

theorem hasFile_of_liesIn {paths : List Path} (hroot : isStorable root = true)
    (h : LiesIn root cwd paths p) (hfits : Fits p) : FileTree.hasFile root cwd p = true := by
  obtain ⟨r, _, t, names, hfind, hleads, rfl⟩ := h
  obtain ⟨q, hplace, rfl⟩ := map_eq_ok hfind
  obtain ⟨hsame, hway⟩ := isWay_place hplace
  have htree : isStorable q.tree = true := isStorable_of_isWay (hsame ▸ hroot) hway
  exact hasFile_below hleads hplace rfl htree hfits

end Storable

section Filter

variable {options : WalkOptions} {p : Path}

/-- The pattern can be read, and the whole path matches as it is written. -/
def Matches (pattern : String) (p : Path) : Prop :=
  ∃ tokens, Glob.parse? false pattern = some tokens ∧
    Glob.isMatch ⟨tokens, false⟩ (Text.Utf8.encode p.text) = true

theorem matchesAny_globs_iff {patterns : List String} :
    SourceFilter.matchesAny (SourceFilter.globs patterns) p = true ↔
      ∃ pattern ∈ patterns, Matches pattern p := by
  simp only [SourceFilter.matchesAny, SourceFilter.globs, List.any_eq_true, List.mem_filterMap,
    Option.map_eq_some_iff, Matches]
  constructor
  · rintro ⟨_, ⟨pattern, hpattern, tokens, hparse, rfl⟩, hmatch⟩
    exact ⟨pattern, hpattern, tokens, hparse, hmatch⟩
  · rintro ⟨pattern, hpattern, tokens, hparse, hmatch⟩
    exact ⟨_, ⟨pattern, hpattern, tokens, hparse, rfl⟩, hmatch⟩

/-- The filter takes sources that no exclude pattern matches and, where there are include patterns,
one of those does. -/
theorem accepts_iff :
    options.filter.accepts p = true ↔ p.isSource = true ∧
      (¬ ∃ pattern ∈ options.excludes, Matches pattern p) ∧
      (options.includes ≠ [] → ∃ pattern ∈ options.includes, Matches pattern p) := by
  rw [← matchesAny_globs_iff, ← matchesAny_globs_iff]
  cases hincludes : options.includes <;>
    simp [WalkOptions.filter, SourceFilter.ofPatterns, SourceFilter.accepts, hincludes, and_assoc]

end Filter

section Walk

variable {root : FileTree} {cwd p : Path} {options : WalkOptions}
  {paths others result result' : List Path}

/-- What a walk can give: the files that are found come in any order. -/
def Gives (root : FileTree) (cwd : Path) (options : WalkOptions) (paths result : List Path) :
    Prop :=
  ∃ arrived, arrived.Perm (found root cwd options paths) ∧ result = distinct arrived

/-- What is said of each path of a walk. -/
structure Admitted (root : FileTree) (cwd : Path) (options : WalkOptions) (paths : List Path)
    (p : Path) : Prop where
  liesIn : LiesIn root cwd paths p
  hasFile : isStorable root = true → Fits p → FileTree.hasFile root cwd p = true
  isSource : p.isSource = true
  not_excluded : ¬ ∃ pattern ∈ options.excludes, Matches pattern p
  included : options.includes ≠ [] → ∃ pattern ∈ options.includes, Matches pattern p

theorem Gives.ascending (h : Gives root cwd options paths result) : Ascending result := by
  obtain ⟨arrived, _, rfl⟩ := h
  exact pairwise_distinct arrived

theorem Gives.listed_iff (h : Gives root cwd options paths result) :
    Listed p result ↔ Listed p (found root cwd options paths) := by
  obtain ⟨arrived, harrived, rfl⟩ := h
  rw [listed_distinct_iff]
  exact listed_congr fun q => harrived.mem_iff

theorem Gives.map_components_eq
    (hpaths : ∀ r, (find root cwd r).isOk = true → (r ∈ paths ↔ r ∈ others))
    (h : Gives root cwd options paths result) (h' : Gives root cwd options others result') :
    result.map components = result'.map components := by
  refine h.ascending.map_components_eq h'.ascending fun p => ?_
  rw [h.listed_iff, h'.listed_iff]
  exact listed_congr fun q => mem_found_congr hpaths

theorem Gives.admitted (h : Gives root cwd options paths result) (hp : p ∈ result) :
    Admitted root cwd options paths p := by
  obtain ⟨arrived, harrived, rfl⟩ := h
  have hfound := harrived.mem_iff.mp (mem_of_mem_distinct hp)
  have hlies := liesIn_of_mem_found hfound
  obtain ⟨hsource, hexcluded, hincluded⟩ := accepts_iff.mp (List.mem_filter.mp hfound).2
  exact ⟨hlies, fun hroot hfits => hasFile_of_liesIn hroot hlies hfits, hsource, hexcluded,
    hincluded⟩

end Walk

end LintGate.Proofs.WalkedUnion
