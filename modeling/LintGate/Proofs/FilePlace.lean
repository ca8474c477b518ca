import LintGate.File.Tree
import LintGate.Path.Absolute
import LintGate.Proofs.Fields
import LintGate.Proofs.PathComponents
import Mathlib.Data.List.DropRight

/-!
Where the file system finds what a path leads to: at the names that are left when the path is worked
out as text. A relative path leads to places that differ with the directory it is seen from, but for
what lies above both.
-/

namespace LintGate.Proofs.FilePlace

open LintGate.Path
open LintGate.Proofs.Fields
open LintGate.Proofs.PathComponents

theorem walk_append (names : List (List Char)) (cs cs' : List Component) :
    walk names (cs ++ cs') = walk (walk names cs) cs' := by
  induction cs generalizing names with
  | nil => rfl
  | cons c cs ih => cases c <;> exact ih _

/-- Names are put one below the other. -/
theorem walk_names (above labels : List (List Char)) :
    walk above (labels.map .name) = labels.reverse ++ above := by
  induction labels generalizing above with
  | nil => rfl
  | cons label labels ih =>
      rw [List.map_cons, walk, ih, List.reverse_cons, List.append_assoc, List.singleton_append]

/-- The components of a path lead the same way as the steps between its slashes. -/
theorem walk_components (names : List (List Char)) (p : Path) :
    walk names p.components = walk names (p.pieces.filterMap innerComponent?) := by
  have hfirst (first : List Char) (isLast : Bool) (names : List (List Char)) :
      walk names (firstComponents first isLast) = walk names (innerComponent? first).toList := by
    unfold firstComponents
    split
    · cases isLast <;> rfl
    · rfl
    · rfl
  rw [components]
  split
  · rename_i hnil
    rw [hnil]
    rfl
  · rename_i first rest hpieces
    have hrest : (first :: rest).filterMap innerComponent? =
        (innerComponent? first).toList ++ rest.filterMap innerComponent? := by
      cases hinner : innerComponent? first <;> simp [hinner]
    rw [hpieces, hrest, walk_append, walk_append, hfirst]

theorem names_follow {p q : FileTree.Place} {pieces : List (List Char)}
    (h : p.follow pieces = .ok q) :
    q.trail.map (·.1.toList) =
      walk (p.trail.map (·.1.toList)) (pieces.filterMap innerComponent?) := by
  induction pieces generalizing p with
  | nil =>
      obtain rfl := Except.ok.inj h
      rfl
  | cons piece rest ih =>
      rw [FileTree.Place.follow] at h
      split at h
      · split at h
        · rename_i hdot
          rcases hdot with rfl | rfl <;> exact ih h
        · rename_i hplain
          split at h
          · rename_i hup
            subst hup
            rw [ih h, List.map_tail]
            rfl
          · rename_i hdown
            have hinner : innerComponent? piece = some (.name piece) := by
              unfold innerComponent?
              split <;> simp_all
            split at h
            · cases h
            · dsimp only at h
              split at h
              · rw [ih h, List.filterMap_cons_some hinner, List.map_cons, String.toList_ofList]
                rfl
              · cases h
      · cases h

/-- Where a path is followed from, and why it may not be followed at all. -/
theorem base_eq (root : FileTree) (cwd p : Path) :
    FileTree.base root cwd p =
      if p.chars.contains '\x00' then .error .nullInName
      else if p.isEmpty then .error .missing
      else if FileTree.maxPathLength < FileTree.byteLength p.chars then .error .nameTooLong
      else if p.isAbsolute then .ok ⟨root, []⟩
      else (⟨root, []⟩ : FileTree.Place).follow cwd.pieces := by
  simp only [FileTree.base, throw, throwThe, MonadExceptOf.throw, bind, Except.bind, pure,
    Except.pure]

theorem base_eq_ok {root : FileTree} {cwd p : Path} {start : FileTree.Place}
    (h : FileTree.base root cwd p = .ok start) :
    p.isEmpty = false ∧
      (if p.isAbsolute then .ok ⟨root, []⟩
        else (⟨root, []⟩ : FileTree.Place).follow cwd.pieces) = .ok start := by
  rw [base_eq] at h
  split at h
  · cases h
  · split at h
    · cases h
    · rename_i hempty
      split at h
      · cases h
      · exact ⟨by simpa using hempty, h⟩

theorem isEmpty_of_place {root : FileTree} {cwd p : Path} {q : FileTree.Place}
    (h : FileTree.place root cwd p = .ok q) : p.isEmpty = false := by
  obtain ⟨start, hstart, _⟩ := bind_eq_ok h
  exact (base_eq_ok hstart).1

/-- An absolute path leads to the same place from everywhere. -/
theorem place_of_isAbsolute {p : Path} (h : p.isAbsolute = true) (root : FileTree)
    (cwd cwd' : Path) : FileTree.place root cwd p = FileTree.place root cwd' p := by
  rw [FileTree.place, FileTree.place, base_eq, base_eq, if_pos h, if_pos h]

/-- What a path leads to is found at the names that are left of it. -/
theorem names_place {root : FileTree} {cwd p : Path} {q : FileTree.Place}
    (h : FileTree.place root cwd p = .ok q) : q.names.map String.toList = names cwd p := by
  obtain ⟨start, hstart, hfollow⟩ := bind_eq_ok h
  have hnames := names_follow hfollow
  have hbase : start.trail.map (·.1.toList) =
      walk [] (if p.isAbsolute then [] else cwd.components) := by
    obtain ⟨_, hstart⟩ := base_eq_ok hstart
    split
    · rename_i habs
      rw [if_pos habs] at hstart
      obtain rfl := Except.ok.inj hstart
      rfl
    · rename_i habs
      rw [if_neg habs] at hstart
      rw [names_follow hstart, walk_components]
      rfl
  rw [FileTree.Place.names, names, walk_append, ← hbase, walk_components, ← hnames,
    List.map_reverse, List.map_map]
  rfl

/-- How many directories above the one where they begin the components lead, from a directory so
deep below it. -/
def climb : (depth : Nat) → List Component → Nat
  | _, [] => 0
  | depth, .name _ :: rest => climb (depth + 1) rest
  | 0, .parent :: rest => climb 0 rest + 1
  | depth + 1, .parent :: rest => climb depth rest
  | depth, .root :: rest => climb depth rest
  | depth, .current :: rest => climb depth rest

theorem walk_climb (above below : List (List Char)) (cs : List Component) :
    walk (above ++ below) cs = walk above cs ++ below.drop (climb above.length cs) := by
  induction cs generalizing above below with
  | nil => simp [walk, climb]
  | cons c cs ih =>
      cases c with
      | root => exact ih above below
      | current => exact ih above below
      | name label => exact ih (label :: above) below
      | parent =>
          cases above with
          | nil =>
              have ih := ih [] below.tail
              rw [List.drop_tail] at ih
              exact ih
          | cons a above => exact ih above below

/-- How many directories above the one it is seen from a path leads. -/
def rise (p : Path) : Nat :=
  climb 0 p.components

section

variable {cwd p : Path}

theorem names_of_isAbsolute (h : p.isAbsolute = true) :
    names cwd p = (walk [] p.components).reverse := by
  rw [names, if_pos h, List.nil_append]

theorem names_of_relative (hcwd : cwd.isAbsolute = true) (h : p.isAbsolute = false) (base : Path) :
    names cwd p = (names base cwd).rdrop (rise p) ++ (walk [] p.components).reverse := by
  have hwalk := walk_climb [] (walk [] cwd.components) p.components
  rw [List.nil_append, List.length_nil] at hwalk
  rw [names, if_neg (by simp [h]), walk_append, hwalk, names_of_isAbsolute hcwd, rise,
    List.rdrop_eq_reverse_drop_reverse, List.reverse_reverse, List.reverse_append]

/-- Seen from two directories, a relative path leads to one place just when the directories agree
above what the path leaves. -/
theorem names_eq_iff {dir dir' : Path} (hdir : dir.isAbsolute = true)
    (hdir' : dir'.isAbsolute = true) (h : p.isAbsolute = false) (base : Path) :
    names dir p = names dir' p ↔
      (names base dir).rdrop (rise p) = (names base dir').rdrop (rise p) := by
  rw [names_of_relative hdir h base, names_of_relative hdir' h base, List.append_left_inj]

end

section SameFile

variable {cwd p q : Path}

theorem sameFile_iff_normalComponents :
    sameFile cwd p q = true ↔ normalComponents cwd p = normalComponents cwd q :=
  beq_iff_eq

theorem normalComponents_of_ne_nil (hp : p.isEmpty = false) :
    normalComponents cwd p = .root :: (names cwd p).map .name := by
  rw [normalComponents, hp, if_neg Bool.false_ne_true]

theorem map_name_injective : Function.Injective (List.map Component.name) :=
  List.map_injective_iff.mpr fun _ _ => Component.name.inj

/-- Paths name one file when they have the same names, or are both empty. -/
theorem sameFile_iff : sameFile cwd p q = true ↔
    p.isEmpty = q.isEmpty ∧ (p.isEmpty = false → names cwd p = names cwd q) := by
  rw [sameFile_iff_normalComponents, normalComponents, normalComponents]
  cases p.isEmpty <;> cases q.isEmpty
  case false.false => simp [map_name_injective.eq_iff]
  all_goals simp

theorem sameFile_equivalence (cwd : Path) : Equivalence fun p q => sameFile cwd p q = true where
  refl _ := sameFile_iff_normalComponents.mpr rfl
  symm h := sameFile_iff_normalComponents.mpr (sameFile_iff_normalComponents.mp h).symm
  trans h h' := sameFile_iff_normalComponents.mpr
    ((sameFile_iff_normalComponents.mp h).trans (sameFile_iff_normalComponents.mp h'))

end SameFile

end LintGate.Proofs.FilePlace
