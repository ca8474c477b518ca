import LintGate.File.Listing
import LintGate.File.Names
import LintGate.Proofs.FilePlace

/-!
Where the names of entries come from. Trees that are made of listings have names that entries can
have, and what is reached in such a tree is such a tree.
-/

namespace LintGate.Proofs.EntryNames

open LintGate.FileTree
open LintGate.Path (Component innerComponent?)
open LintGate.Proofs.Fields
open LintGate.Proofs.PathComponents

theorem isEntryName_iff {name : String} :
    isEntryName name = true ↔ IsStep (.name name.toList) := by
  have hinner : innerComponent? name.toList = some (.name name.toList) ↔
      name.toList ≠ [] ∧ name.toList ≠ ['.'] ∧ name.toList ≠ ['.', '.'] := by
    unfold innerComponent?
    split <;> simp_all
  rw [IsStep, Component.chars, hinner]
  simp [isEntryName, and_assoc]

theorem areWellNamed_iff {entries : List (String × FileTree)} :
    areWellNamed entries = true ↔
      ∀ e ∈ entries, isEntryName e.1 = true ∧ e.2.isWellNamed = true := by
  induction entries with
  | nil => simp [areWellNamed]
  | cons entry rest ih =>
      obtain ⟨name, t⟩ := entry
      rw [areWellNamed, Bool.and_eq_true, Bool.and_eq_true, ih, List.forall_mem_cons]

theorem mem_of_get? {entries : List (String × FileTree)} {name : String} {t : FileTree}
    (h : Dictionary.get? name entries = some t) : (name, t) ∈ entries := by
  obtain ⟨⟨found, t'⟩, hfound, rfl⟩ := Option.map_eq_some_iff.mp h
  have hname : found = name := by simpa using List.find?_some hfound
  exact hname ▸ List.mem_of_find?_eq_some hfound

theorem areWellNamed_entries {t : FileTree} (h : t.isWellNamed = true) :
    areWellNamed t.entries = true := by
  cases t with
  | directory entries => exact h
  | file content executable => rfl
  | utility name => rfl

section Place

/-- What was passed on the way to a place is well named. -/
structure WellNamedPlace (p : Place) : Prop where
  root : p.root.isWellNamed = true
  trail : ∀ e ∈ p.trail, e.2.isWellNamed = true

theorem WellNamedPlace.tree {p : Place} (h : WellNamedPlace p) : p.tree.isWellNamed = true := by
  obtain ⟨root, trail⟩ := p
  cases trail with
  | nil => exact h.root
  | cons e rest => exact h.trail e List.mem_cons_self

theorem WellNamedPlace.follow {p q : Place} {pieces : List (List Char)} (h : WellNamedPlace p)
    (hfollow : p.follow pieces = .ok q) : WellNamedPlace q := by
  induction pieces generalizing p with
  | nil => exact Except.ok.inj hfollow ▸ h
  | cons piece rest ih =>
      rw [Place.follow] at hfollow
      split at hfollow
      · rename_i entries hentries
        split at hfollow
        · exact ih h hfollow
        · split at hfollow
          · have hup : WellNamedPlace { p with trail := p.trail.tail } :=
              ⟨h.root, fun e he => h.trail e (List.mem_of_mem_tail he)⟩
            exact ih hup hfollow
          · split at hfollow
            · cases hfollow
            · dsimp only at hfollow
              split at hfollow
              · rename_i found hfound
                have htree := h.tree
                rw [hentries, isWellNamed, areWellNamed_iff] at htree
                have hnew : found.isWellNamed = true := (htree _ (mem_of_get? hfound)).2
                have hdown : WellNamedPlace
                    { p with trail := (String.ofList piece, found) :: p.trail } :=
                  ⟨h.root, List.forall_mem_cons.mpr ⟨hnew, h.trail⟩⟩
                exact ih hdown hfollow
              · cases hfollow
      · cases hfollow

theorem isWellNamed_find {root t : FileTree} {cwd p : Path} (hroot : root.isWellNamed = true)
    (h : find root cwd p = .ok t) : t.isWellNamed = true := by
  obtain ⟨place, hplace, rfl⟩ := map_eq_ok h
  obtain ⟨start, hstart, hfollow⟩ := bind_eq_ok hplace
  have hbase : WellNamedPlace ⟨root, []⟩ := ⟨hroot, nofun⟩
  obtain ⟨_, hstart⟩ := FilePlace.base_eq_ok hstart
  have hstart' : WellNamedPlace start := by
    split at hstart
    · exact Except.ok.inj hstart ▸ hbase
    · exact hbase.follow hstart
  exact (hstart'.follow hfollow).tree

end Place

section Listing

theorem areWellNamed_insert {entries : List (String × FileTree)} {name : String} {t : FileTree}
    (hname : isEntryName name = true) (ht : t.isWellNamed = true)
    (hentries : areWellNamed entries = true) :
    areWellNamed (Dictionary.insert name t entries) = true := by
  induction entries with
  | nil => simp [Dictionary.insert, areWellNamed, hname, ht]
  | cons entry rest ih =>
      obtain ⟨other, u⟩ := entry
      simp only [areWellNamed, Bool.and_eq_true] at hentries
      obtain ⟨⟨hother, hu⟩, hrest⟩ := hentries
      rw [Dictionary.insert]
      split <;> simp [areWellNamed, hname, ht, hother, hu, hrest, ih hrest]

theorem isWellNamed_put {t new : FileTree} {names : List String} (ht : t.isWellNamed = true)
    (hnew : new.isWellNamed = true) (hnames : ∀ name ∈ names, isEntryName name = true) :
    (t.put names new).isWellNamed = true := by
  induction names generalizing t with
  | nil => exact hnew
  | cons name rest ih =>
      obtain ⟨hname, hrest⟩ := List.forall_mem_cons.mp hnames
      have hbelow : ((Dictionary.get? name t.entries).getD empty).isWellNamed = true := by
        cases hget : Dictionary.get? name t.entries with
        | none => rfl
        | some found => exact (areWellNamed_iff.mp (areWellNamed_entries ht) _ (mem_of_get? hget)).2
      exact areWellNamed_insert hname (ih hbelow hrest) (areWellNamed_entries ht)

theorem isEntryName_of_mem_namesOf {p : Path} : ∀ name ∈ namesOf p, isEntryName name = true := by
  intro name hname
  obtain ⟨c, hc, hsome⟩ := List.mem_filterMap.mp hname
  cases c with
  | name label =>
      obtain rfl := Option.some.inj hsome
      rw [isEntryName_iff, String.toList_ofList]
      exact isStep_of_mem_components hc
  | _ => cases hsome

/-- Every tree that is listed has names that entries can have. -/
theorem isWellNamed_ofListing (base : Path) (listing : Json.Value) :
    (ofListing base listing).isWellNamed = true := by
  have hstart : (empty.put (namesOf base) empty).isWellNamed = true :=
    isWellNamed_put rfl rfl isEntryName_of_mem_namesOf
  have hlisted (v : Json.Value) : (ofListed v).isWellNamed = true := by
    unfold ofListed
    split <;> rfl
  unfold ofListing
  split
  · rename_i members
    refine List.foldlRecOn (motive := fun t : FileTree => t.isWellNamed = true) members _ hstart
      fun t ht m _ => ?_
    refine isWellNamed_put ht (hlisted m.2) fun name hname => ?_
    rcases List.mem_append.mp hname with hbase | hmember
    · exact isEntryName_of_mem_namesOf name hbase
    · exact isEntryName_of_mem_namesOf name hmember
  · exact hstart

end Listing

end LintGate.Proofs.EntryNames
