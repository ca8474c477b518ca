import LintGate.Proofs.NameBelow
import LintGate.Proofs.Trails
import Mathlib.Data.List.Infix

/-!
What ignore files say below a directory that is written in two ways. Where the file system finds
the same behind both, and each has a dot in front at most once, the levels of both hold the same
rules and see the same names.
-/

namespace LintGate.Proofs.IgnoreViews

open LintGate.Path (names)
open LintGate.FileTree (byteLength)
open LintGate.Proofs.EntryNames
open LintGate.Proofs.FilePlace
open LintGate.Proofs.NameBelow
open LintGate.Proofs.PathComponents
open LintGate.Proofs.SamePlace
open LintGate.Proofs.Trails

section Written

variable {d : Path} {name : String} {up : List String}

/-- The names with a slash behind each. -/
def written (up : List String) : List Char :=
  up.reverse.flatMap fun name => name.toList ++ ['/']

theorem written_cons (name : String) (up : List String) :
    written (name :: up) = written up ++ (name.toList ++ ['/']) := by
  simp [written]

theorem join_name {p : Path} (hp : p.isEmpty = false) (hname : FileTree.isEntryName name = true) :
    p.join (Path.ofString name) = ⟨slashed p ++ name.toList⟩ :=
  join_eq hp (isAbsolute_of_isStep (isEntryName_iff.mp hname))

theorem slashed_below (hd : d.isEmpty = false) (hup : AreNames up) :
    slashed (below d up) = slashed d ++ written up := by
  induction up with
  | nil => simp [below, written]
  | cons name up ih =>
      obtain ⟨hname, hrest⟩ := List.forall_mem_cons.mp hup
      have hslash : (slashed (below d up) ++ name.toList).getLast? ≠ some '/' := by
        obtain ⟨hmem, hinner⟩ := isEntryName_iff.mp hname
        have hne : name.toList ≠ [] := by
          intro hnil
          rw [hnil] at hinner
          cases hinner
        rw [List.getLast?_append_of_ne_nil _ hne, ne_eq, List.getLast?_eq_some_iff]
        rintro ⟨before, hbefore⟩
        exact hmem (hbefore ▸ List.mem_concat_self)
      rw [below, join_name (isEmpty_below hd hrest) hname, slashed, if_neg (by simpa using hslash),
        ih hrest, written_cons]
      simp

theorem chars_below (hd : d.isEmpty = false) (hup : AreNames (name :: up)) :
    (below d (name :: up)).chars = slashed d ++ (written up ++ name.toList) := by
  obtain ⟨hname, hrest⟩ := List.forall_mem_cons.mp hup
  rw [below, join_name (isEmpty_below hd hrest) hname, slashed_below hd hrest, List.append_assoc]

theorem below_append (d : Path) (down up : List String) :
    below (below d up) down = below d (down ++ up) := by
  induction down with
  | nil => rfl
  | cons name down ih => rw [below, ih, List.cons_append, below]

theorem isTail_written (hup : AreNames (name :: up)) (rest : List Char) :
    IsTail (written up ++ (name.toList ++ rest)) := by
  rcases List.eq_nil_or_concat up with rfl | ⟨front, first, rfl⟩
  · exact isTail_append (isEntryName_iff.mp (hup name List.mem_cons_self)) rest
  · have hfirst : IsStep (.name first.toList) := isEntryName_iff.mp (hup first (by simp))
    have hwritten : written (front.concat first) = first.toList ++ ('/' :: written front) := by
      simp [written]
    rw [hwritten, List.append_assoc]
    exact isTail_append hfirst _

theorem dottedOnce_below (hempty : d.isEmpty = false) (hd : DottedOnce d) (hup : AreNames up) :
    DottedOnce (below d up) := by
  cases up with
  | nil => exact hd
  | cons name up =>
      rw [DottedOnce, slashed_below hempty hup, withoutStart_slashed, written_cons]
      exact not_prefix_withoutStart hd (isTail_written hup ['/'])

end Written

section Level

variable {root : FileTree} {cwd d d' : Path} {room : Nat} {tail rest : List Char}

/-- Directories behind which the file system finds the same, as far as there is room for more text,
and which have no more than one dot in front. -/
structure Interchangeable (root : FileTree) (cwd : Path) (room : Nat) (d d' : Path) : Prop where
  isEmpty : d.isEmpty = false
  isEmpty' : d'.isEmpty = false
  dottedOnce : DottedOnce d
  dottedOnce' : DottedOnce d'
  find_eq : ∀ rest, byteLength rest ≤ room →
    FileTree.find root cwd ⟨slashed d ++ rest⟩ = FileTree.find root cwd ⟨slashed d' ++ rest⟩

theorem Interchangeable.find_join (h : Interchangeable root cwd room d d') (file : Path)
    (hfile : file.isAbsolute = false) (hroom : byteLength file.chars ≤ room) :
    FileTree.find root cwd (d.join file) = FileTree.find root cwd (d'.join file) := by
  rw [join_eq h.isEmpty hfile, join_eq h.isEmpty' hfile, h.find_eq _ hroom]

theorem Interchangeable.mono {room' : Nat} (h : Interchangeable root cwd room d d')
    (hroom : room' ≤ room) : Interchangeable root cwd room' d d' :=
  { h with find_eq := fun rest hrest => h.find_eq rest (hrest.trans hroom) }

/-- One directory further down there is less room. -/
theorem Interchangeable.below {up : List String} (hup : AreNames up)
    (h : Interchangeable root cwd (byteLength (written up) + room) d d') :
    Interchangeable root cwd room (below d up) (below d' up) where
  isEmpty := isEmpty_below h.isEmpty hup
  isEmpty' := isEmpty_below h.isEmpty' hup
  dottedOnce := dottedOnce_below h.isEmpty h.dottedOnce hup
  dottedOnce' := dottedOnce_below h.isEmpty' h.dottedOnce' hup
  find_eq rest hrest := by
    rw [slashed_below h.isEmpty hup, slashed_below h.isEmpty' hup, List.append_assoc,
      List.append_assoc]
    refine h.find_eq _ ?_
    rw [byteLength_append]
    omega

/-- A path as the levels of a chain get to see it. -/
def seen (text : List Char) : Path :=
  ⟨withoutStart "./".toList text⟩

theorem verdict?_ofBytes (h : Interchangeable root cwd room d d') (htail : IsTail tail)
    (bytes : List UInt8) (isDirectory : Bool) :
    (IgnoreFile.ofBytes d bytes).verdict? (seen (slashed d ++ tail)) isDirectory =
      (IgnoreFile.ofBytes d' bytes).verdict? (seen (slashed d' ++ tail)) isDirectory := by
  rw [IgnoreFile.verdict?, IgnoreFile.verdict?, seen, seen, nameBelow_slashed h.dottedOnce htail,
    nameBelow_slashed h.dottedOnce' htail]
  rfl

theorem verdict?_rulesAt (h : Interchangeable root cwd room d d') (htail : IsTail tail)
    {file : Path} (hfile : file.isAbsolute = false) (hroom : byteLength file.chars ≤ room)
    (isDirectory : Bool) :
    (IgnoreLevel.rulesAt root cwd d (d.join file)).verdict? (seen (slashed d ++ tail)) isDirectory =
      (IgnoreLevel.rulesAt root cwd d' (d'.join file)).verdict? (seen (slashed d' ++ tail))
        isDirectory := by
  rw [IgnoreLevel.rulesAt, IgnoreLevel.rulesAt, FileTree.readBytes, FileTree.readBytes,
    h.find_join file hfile hroom]
  exact verdict?_ofBytes h htail _ isDirectory

/-- The administration of a repository lies in the directory, or elsewhere, apart from how the
directory is written. -/
theorem administration?_eq (h : Interchangeable root cwd room d d')
    (hroom : byteLength ".git".toList ≤ room) :
    (IgnoreLevel.administration? root cwd d = some (d.join (Path.ofString ".git")) ∧
      IgnoreLevel.administration? root cwd d' = some (d'.join (Path.ofString ".git"))) ∨
    IgnoreLevel.administration? root cwd d = IgnoreLevel.administration? root cwd d' := by
  have hfind : FileTree.find root cwd (d.join (Path.ofString ".git")) =
      FileTree.find root cwd (d'.join (Path.ofString ".git")) :=
    h.find_join _ rfl hroom
  simp only [IgnoreLevel.administration?, FileTree.readBytes, ← hfind]
  split
  · exact .inl ⟨rfl, rfl⟩
  · split
    · exact .inl ⟨rfl, rfl⟩
    · exact .inr rfl

theorem join_git (hd : d.isEmpty = false) :
    (d.join (Path.ofString ".git")).join (Path.ofString "info/exclude") =
      d.join (Path.ofString ".git/info/exclude") := by
  have hjoin (name : String) (hname : (Path.ofString name).isAbsolute = false) :
      d.join (Path.ofString name) = ⟨slashed d ++ name.toList⟩ := join_eq hd hname
  have hlast : (slashed d ++ ".git".toList).getLast? = some 't' := by simp
  have hempty : Path.isEmpty ⟨slashed d ++ ".git".toList⟩ = false := by
    simp [Path.isEmpty, slashed_ne_nil]
  rw [hjoin _ rfl, hjoin _ rfl, join_eq hempty rfl, slashed, hlast, if_neg (by decide),
    List.append_assoc, List.append_assoc]
  rfl

/-- What a level says of a path. -/
structure Opinion where
  plain : Option Verdict
  versioned : Option Verdict
  excluded : Option Verdict
  isRepository : Bool

/-- What a level says of the path as it sees it. -/
def opinion (isDirectory : Bool) (view : IgnoreLevel × Path) : Opinion where
  plain := view.1.plain.verdict? view.2 isDirectory
  versioned := view.1.versioned.verdict? view.2 isDirectory
  excluded := view.1.excluded.verdict? view.2 isDirectory
  isRepository := view.1.isRepository

theorem verdict?_excluded (h : Interchangeable root cwd room d d')
    (hroom : byteLength ".git/info/exclude".toList ≤ room) (htail : IsTail tail)
    (repositories isDirectory : Bool) :
    (IgnoreLevel.ofDirectory root cwd repositories d).excluded.verdict? (seen (slashed d ++ tail))
        isDirectory =
      (IgnoreLevel.ofDirectory root cwd repositories d').excluded.verdict?
        (seen (slashed d' ++ tail)) isDirectory := by
  have hnone := verdict?_ofBytes h htail [] isDirectory
  simp only [IgnoreLevel.ofDirectory]
  cases repositories with
  | false =>
      cases IgnoreLevel.administration? root cwd d <;>
        cases IgnoreLevel.administration? root cwd d' <;> exact hnone
  | true =>
      have hgit : byteLength ".git".toList ≤ room := Nat.le_trans (by decide) hroom
      rcases administration?_eq h hgit with ⟨hadmin, hadmin'⟩ | hadmin
      · rw [hadmin, hadmin']
        simp only [if_true, join_git h.isEmpty, join_git h.isEmpty']
        exact verdict?_rulesAt h htail rfl hroom isDirectory
      · rw [hadmin]
        cases IgnoreLevel.administration? root cwd d' with
        | none => exact hnone
        | some admin => exact verdict?_ofBytes h htail _ isDirectory

/-- The levels of both directories say the same of what stands behind. -/
theorem opinion_ofDirectory (h : Interchangeable root cwd room d d')
    (hroom : byteLength ".git/info/exclude".toList ≤ room) (htail : IsTail tail)
    (repositories isDirectory : Bool) :
    opinion isDirectory (.ofDirectory root cwd repositories d, seen (slashed d ++ tail)) =
      opinion isDirectory (.ofDirectory root cwd repositories d', seen (slashed d' ++ tail)) := by
  have hshort {n : Nat} (hn : n ≤ 17) : n ≤ room := Nat.le_trans hn hroom
  have hplain : (IgnoreLevel.ofDirectory root cwd repositories d).plain.verdict?
        (seen (slashed d ++ tail)) isDirectory =
      (IgnoreLevel.ofDirectory root cwd repositories d').plain.verdict?
        (seen (slashed d' ++ tail)) isDirectory :=
    verdict?_rulesAt h htail rfl (hshort (by decide)) isDirectory
  have hversioned : (IgnoreLevel.ofDirectory root cwd repositories d).versioned.verdict?
        (seen (slashed d ++ tail)) isDirectory =
      (IgnoreLevel.ofDirectory root cwd repositories d').versioned.verdict?
        (seen (slashed d' ++ tail)) isDirectory := by
    cases repositories with
    | false => exact verdict?_ofBytes h htail [] isDirectory
    | true => exact verdict?_rulesAt h htail rfl (hshort (by decide)) isDirectory
  have hrepository : (IgnoreLevel.ofDirectory root cwd repositories d).isRepository =
      (IgnoreLevel.ofDirectory root cwd repositories d').isRepository := by
    have hgit := h.find_join (Path.ofString ".git") rfl (hshort (by decide))
    have hjj := h.find_join (Path.ofString ".jj") rfl (hshort (by decide))
    simp only [IgnoreLevel.ofDirectory, hgit, hjj]
  simp only [opinion, hplain, hversioned, verdict?_excluded h hroom htail, hrepository]

end Level

section Chain

variable {root : FileTree} {cwd r r' : Path} {room : Nat}

theorem upToRepository_congr {isDirectory : Bool} {views views' : List (IgnoreLevel × Path)}
    (h : views.map (opinion isDirectory) = views'.map (opinion isDirectory)) :
    (IgnoreChain.upToRepository views).map (opinion isDirectory) =
      (IgnoreChain.upToRepository views').map (opinion isDirectory) := by
  induction views generalizing views' with
  | nil =>
      obtain rfl := List.map_eq_nil_iff.mp h.symm
      rfl
  | cons view rest ih =>
      cases views' with
      | nil => cases h
      | cons view' rest' =>
          obtain ⟨hview, hrest⟩ := List.cons.inj h
          have hrepository : view.1.isRepository = view'.1.isRepository :=
            congrArg Opinion.isRepository hview
          have ih := ih hrest
          rw [IgnoreChain.upToRepository, IgnoreChain.upToRepository, hrepository]
          split
          · exact congrArg (fun o => [o]) hview
          · cases hfound : IgnoreChain.upToRepository rest <;>
              cases hfound' : IgnoreChain.upToRepository rest' <;> simp_all

/-- The verdict of a chain is that of what its levels say, and of what the user says. -/
theorem verdict?_congr {c c' : IgnoreChain} {p p' : Path} {isDirectory : Bool}
    (h : (c.views p).map (opinion isDirectory) = (c'.views p').map (opinion isDirectory))
    (huser : c.everywhere.verdict? (seen p.chars) isDirectory =
      c'.everywhere.verdict? (seen p'.chars) isDirectory) :
    c.verdict? p isDirectory = c'.verdict? p' isDirectory := by
  have hversioned := upToRepository_congr h
  have houtside : (IgnoreChain.upToRepository (c.views p)).isEmpty =
      (IgnoreChain.upToRepository (c'.views p')).isEmpty := by
    simpa using congrArg List.isEmpty hversioned
  have hfind {views views' : List (IgnoreLevel × Path)} (field : Opinion → Option Verdict)
      (h : views.map (opinion isDirectory) = views'.map (opinion isDirectory)) :
      views.findSome? (fun view => field (opinion isDirectory view)) =
        views'.findSome? fun view => field (opinion isDirectory view) := by
    rw [← Function.comp_def, ← List.findSome?_map, h, List.findSome?_map]
  have hplain := hfind Opinion.plain h
  have hversioned' := hfind Opinion.versioned hversioned
  have hexcluded := hfind Opinion.excluded hversioned
  simp only [opinion] at hplain hversioned' hexcluded
  rw [seen, seen] at huser
  simp only [IgnoreChain.verdict?, hplain, hversioned', hexcluded, houtside, huser]

theorem chainAt_eq (options : WalkOptions) (up : List String) :
    chainAt root cwd options r up =
      { IgnoreChain.begin root cwd options.respectsRepositories options.userExcludes r with
        inner := up.tails.map fun way =>
          .ofDirectory root cwd options.respectsRepositories (below r way) } := by
  induction up with
  | nil => rfl
  | cons name up ih => rw [chainAt, ih]; rfl

theorem written_append (down up : List String) :
    written (down ++ up) = written up ++ written down := by
  simp [written]

theorem opinion_below {name : String} {up way : List String} (hway : way <:+ up)
    (h : Interchangeable root cwd (byteLength (written up) + room) r r')
    (hroom : byteLength ".git/info/exclude".toList ≤ room) (hup : AreNames (name :: up))
    (repositories isDirectory : Bool) :
    opinion isDirectory (.ofDirectory root cwd repositories (below r way),
        seen (below r (name :: up)).chars) =
      opinion isDirectory (.ofDirectory root cwd repositories (below r' way),
        seen (below r' (name :: up)).chars) := by
  obtain ⟨down, rfl⟩ := hway
  obtain ⟨hname, hrest⟩ := List.forall_mem_cons.mp hup
  obtain ⟨hdown, hnames⟩ := List.forall_mem_append.mp hrest
  have hbelow : Interchangeable root cwd room (below r way) (below r' way) := by
    refine (h.mono ?_).below hnames
    rw [written_append, byteLength_append]
    omega
  have hall : AreNames (name :: down) := List.forall_mem_cons.mpr ⟨hname, hdown⟩
  rw [← List.cons_append, ← below_append, ← below_append, chars_below hbelow.isEmpty hall,
    chars_below hbelow.isEmpty' hall]
  have htail : IsTail (written down ++ name.toList) := by
    simpa using isTail_written hall []
  exact opinion_ofDirectory hbelow hroom htail repositories isDirectory

/-- All levels of a chain say the same of what the names lead to. -/
theorem opinions_eq {name : String} {up : List String}
    (h : Interchangeable root cwd (byteLength (written up) + room) r r')
    (hroom : byteLength ".git/info/exclude".toList ≤ room) (hdot : DotAlone r) (hdot' : DotAlone r')
    (hnames : names cwd r = names cwd r') (hup : AreNames (name :: up)) (options : WalkOptions)
    (isDirectory : Bool) :
    ((chainAt root cwd options r up).views (below r (name :: up))).map (opinion isDirectory) =
      ((chainAt root cwd options r' up).views (below r' (name :: up))).map
        (opinion isDirectory) := by
  have htail : IsTail (written up ++ name.toList) := by
    simpa using isTail_written hup []
  have hnormal : Path.normalize cwd r = Path.normalize cwd r' := by
    rw [Path.normalize, Path.normalize, h.isEmpty, h.isEmpty', hnames]
    rfl
  have hanchored {c : IgnoreChain} {d : Path} (hstart : c.start = d) (hd : d.isEmpty = false)
      (hdot : DotAlone d) (anchor : Path) :
      c.anchored anchor (seen (below d (name :: up)).chars) =
        anchor.join ⟨written up ++ name.toList⟩ := by
    subst hstart
    rw [chars_below hd hup]
    exact anchored_slashed hdot htail anchor
  rw [chainAt_eq, chainAt_eq, IgnoreChain.views, IgnoreChain.views, List.map_append,
    List.map_append]
  congr 1
  -- The levels on the way differ with the directory; those above it are the same for both.
  · rw [List.map_map, List.map_map, List.map_map, List.map_map]
    refine List.map_congr_left fun way hway => ?_
    exact opinion_below ((List.mem_tails _ _).mp hway) h hroom hup _ isDirectory
  · simp only [IgnoreChain.begin, hnames, hnormal]
    split
    · rename_i anchor hanchor
      refine congrArg (List.map _) (List.map_congr_left fun level _ => congrArg (level, ·) ?_)
      exact (hanchored rfl h.isEmpty hdot anchor).trans (hanchored rfl h.isEmpty' hdot' anchor).symm
    · rfl

/-- A walk passes over the same entries, however its start is written. -/
theorem skipsAt_eq {options : WalkOptions} {name : String} {up : List String} {t : FileTree}
    (h : Interchangeable root cwd (byteLength (written up) + room) r r')
    (hroom : byteLength ".git/info/exclude".toList ≤ room) (hdot : DotAlone r) (hdot' : DotAlone r')
    (hnames : names cwd r = names cwd r') (hup : AreNames (name :: up))
    (huser : options.respectsRepositories = true →
      options.userExcludes.verdict? (seen (below r (name :: up)).chars) t.isDirectory =
        options.userExcludes.verdict? (seen (below r' (name :: up)).chars) t.isDirectory) :
    skipsAt root cwd options r up name t = skipsAt root cwd options r' up name t := by
  refine congrArg (options.skips · name)
    (verdict?_congr (opinions_eq h hroom hdot hdot' hnames hup options t.isDirectory) ?_)
  simp only [chainAt_eq, IgnoreChain.begin]
  split
  · rename_i hrespects
    exact huser hrespects
  · rw [IgnoreFile.verdict?_silent, IgnoreFile.verdict?_silent]

end Chain

section Trails

variable {skips skips' : List String → String → FileTree → Bool} {room : Nat}
  {known : List (List String × Bool)}

mutual
/-- Trails that have room depend only on what is passed over on the way. -/
theorem trailsAt_congr
    (hskips : ∀ name up t, AreNames (name :: up) → byteLength (written up) ≤ room →
      (name :: up, t.isDirectory) ∈ known → skips up name t = skips' up name t)
    {up : List String} (hup : AreNames up) {t : FileTree} (ht : t.isWellNamed = true)
    (hroom : byteLength (written up) + t.extent ≤ room) (hknown : entriesAt up t ⊆ known) :
    trailsAt skips up t = trailsAt skips' up t := by
  cases t with
  | directory entries => exact trailsIn_congr hskips hup ht hroom hknown
  | file content executable => rfl
  | utility program => rfl

theorem trailsIn_congr
    (hskips : ∀ name up t, AreNames (name :: up) → byteLength (written up) ≤ room →
      (name :: up, t.isDirectory) ∈ known → skips up name t = skips' up name t)
    {up : List String} (hup : AreNames up) {entries : List (String × FileTree)}
    (hentries : FileTree.areWellNamed entries = true)
    (hroom : byteLength (written up) + FileTree.extentOf entries ≤ room)
    (hknown : entriesIn up entries ⊆ known) :
    trailsIn skips up entries = trailsIn skips' up entries := by
  cases entries with
  | nil => rfl
  | cons entry rest =>
      obtain ⟨name, t⟩ := entry
      simp only [FileTree.areWellNamed, Bool.and_eq_true] at hentries
      obtain ⟨⟨hname, ht⟩, hrest⟩ := hentries
      -- What a name and its slash take from the room is what `extentOf` counts for them.
      rw [FileTree.extentOf] at hroom
      have hdown : AreNames (name :: up) := List.forall_mem_cons.mpr ⟨hname, hup⟩
      have hslash : byteLength ['/'] = 1 := rfl
      have hwritten : byteLength (written (name :: up)) + t.extent ≤ room := by
        rw [written_cons, byteLength_append, byteLength_append, hslash]
        omega
      rw [entriesIn, List.cons_subset, List.append_subset] at hknown
      obtain ⟨hhere, hinside, hlater⟩ := hknown
      have hskip : skips up name t = skips' up name t := hskips name up t hdown (by omega) hhere
      rw [trailsIn, trailsIn, hskip, trailsAt_congr hskips hdown ht hwritten hinside,
        trailsIn_congr hskips hup hrest (by omega) hlater]
end

end Trails

end LintGate.Proofs.IgnoreViews
