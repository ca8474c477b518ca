import LintGate.Discovery.Walk

/-!
The order of paths, and lists in which every path stands once. Paths are compared by their
components, so those that are put together as one are those with the same components.
-/

namespace LintGate.Proofs.PathOrder

open Std
open LintGate.Path
open LintGate.Discovery

/-- The place of a kind of component in the order. -/
def kind : Component → Nat
  | .root => 0
  | .current => 1
  | .parent => 2
  | .name _ => 3

/-- What tells the components of one kind apart. -/
def label : Component → List Char
  | .name label => label
  | _ => []

theorem component_compare_eq :
    Component.compare = compareLex (compareOn kind) (compareOn label) := by
  funext a b
  cases a <;> cases b <;> rfl

instance : TransCmp Component.compare := by
  rw [component_compare_eq]
  infer_instance

instance : LawfulEqCmp Component.compare where
  eq_of_compare {a b} h := by
    rw [component_compare_eq, compareLex_eq_eq, compareOn, compareOn,
      LawfulEqOrd.compare_eq_iff_eq, LawfulEqOrd.compare_eq_iff_eq] at h
    obtain ⟨hkind, hlabel⟩ := h
    cases a <;> cases b <;> first | rfl | exact congrArg Component.name hlabel | cases hkind

instance : TransCmp Path.compare where
  eq_swap {p q} :=
    @OrientedCmp.eq_swap _ (List.compareLex Component.compare) _ p.components q.components
  isLE_trans {p q r} :=
    @TransCmp.isLE_trans _ (List.compareLex Component.compare) _ p.components q.components
      r.components

theorem compare_eq_iff {p q : Path} : Path.compare p q = .eq ↔ p.components = q.components :=
  @LawfulEqCmp.compare_eq_iff_eq _ (List.compareLex Component.compare) _ _ _

theorem sameComponents_iff {p q : Path} :
    p.sameComponents q = true ↔ p.components = q.components :=
  beq_iff_eq

section EraseReps

variable {α : Type} {cmp : α → α → Ordering} {same : α → α → Bool}

theorem mem_of_mem_loop {a x : α} {rest found : List α}
    (h : x ∈ List.eraseRepsBy.loop same a rest found) : x ∈ found ∨ x = a ∨ x ∈ rest := by
  induction rest generalizing a found with
  | nil => simpa [List.eraseRepsBy.loop, or_comm] using h
  | cons b rest ih =>
      rw [List.eraseRepsBy.loop] at h
      split at h
      · rcases ih h with hfound | ha | hrest
        · exact .inl hfound
        · exact .inr (.inl ha)
        · exact .inr (.inr (List.mem_cons_of_mem b hrest))
      · rcases ih h with hfound | rfl | hrest
        · rcases List.mem_cons.mp hfound with ha | hfound
          · exact .inr (.inl ha)
          · exact .inl hfound
        · exact .inr (.inr List.mem_cons_self)
        · exact .inr (.inr (List.mem_cons_of_mem b hrest))

variable [TransCmp cmp]

theorem exists_mem_loop (hsame : ∀ x y, same x y = true ↔ cmp x y = .eq) {a x : α}
    {rest found : List α} (h : x ∈ found ∨ x = a ∨ x ∈ rest) :
    ∃ y ∈ List.eraseRepsBy.loop same a rest found, cmp x y = .eq := by
  induction rest generalizing a x found with
  | nil =>
      refine ⟨x, ?_, ReflCmp.compare_self⟩
      simpa [List.eraseRepsBy.loop, or_comm] using h
  | cons b rest ih =>
      rw [List.eraseRepsBy.loop]
      split
      · rename_i heq
        rcases h with hfound | rfl | hrest
        · exact ih (.inl hfound)
        · exact ih (.inr (.inl rfl))
        · rcases List.mem_cons.mp hrest with rfl | hrest
          · obtain ⟨y, hy, hay⟩ : ∃ y ∈ List.eraseRepsBy.loop same a rest found, cmp a y = .eq :=
              ih (.inr (.inl rfl))
            exact ⟨y, hy, TransCmp.eq_trans (OrientedCmp.eq_symm ((hsame _ _).mp heq)) hay⟩
          · exact ih (.inr (.inr hrest))
      · rcases h with hfound | rfl | hrest
        · exact ih (.inl (List.mem_cons_of_mem a hfound))
        · exact ih (.inl List.mem_cons_self)
        · rcases List.mem_cons.mp hrest with rfl | hrest
          · exact ih (.inr (.inl rfl))
          · exact ih (.inr (.inr hrest))

/-- In a list in ascending order all repetitions are neighbours, so what is left ascends
strictly. -/
theorem pairwise_loop (hsame : ∀ x y, same x y = true ↔ cmp x y = .eq) {a : α}
    {rest found : List α} (hrest : (a :: rest).Pairwise fun x y => (cmp x y).isLE = true)
    (hfound : (a :: found).Pairwise fun x y => cmp y x = .lt) :
    (List.eraseRepsBy.loop same a rest found).Pairwise fun x y => cmp x y = .lt := by
  -- `found` is kept in reverse and still without `a`, which stands before everything in `rest`.
  induction rest generalizing a found with
  | nil => simpa only [List.eraseRepsBy.loop, List.pairwise_reverse] using hfound
  | cons b rest ih =>
      obtain ⟨ha, hbrest⟩ := List.pairwise_cons.mp hrest
      rw [List.eraseRepsBy.loop]
      split
      · refine ih (List.pairwise_cons.mpr ⟨?_, (List.pairwise_cons.mp hbrest).2⟩) hfound
        intro x hx
        exact ha x (List.mem_cons_of_mem b hx)
      · rename_i hdiffer
        have hab : cmp a b = .lt := by
          have hle := ha b List.mem_cons_self
          have hne : cmp a b ≠ .eq := fun heq => by simp [(hsame a b).mpr heq] at hdiffer
          cases h : cmp a b <;> simp_all
        refine ih hbrest (List.pairwise_cons.mpr ⟨?_, hfound⟩)
        intro x hx
        rcases List.mem_cons.mp hx with rfl | hx
        · exact hab
        · exact TransCmp.lt_trans ((List.pairwise_cons.mp hfound).1 x hx) hab

end EraseReps

section Distinct

variable {p : Path} {paths : List Path}

theorem mem_of_mem_distinct (h : p ∈ distinct paths) : p ∈ paths := by
  rw [distinct] at h
  rw [← @List.mem_mergeSort _ fun a b => (Path.compare a b).isLE]
  cases hsorted : paths.mergeSort fun a b => (Path.compare a b).isLE with
  | nil => simp [hsorted, List.eraseRepsBy] at h
  | cons a rest =>
      rw [hsorted, List.eraseRepsBy] at h
      simpa using mem_of_mem_loop h

theorem exists_mem_distinct (h : p ∈ paths) :
    ∃ q ∈ distinct paths, p.components = q.components := by
  rw [distinct]
  rw [← @List.mem_mergeSort _ fun a b => (Path.compare a b).isLE] at h
  cases hsorted : paths.mergeSort fun a b => (Path.compare a b).isLE with
  | nil => simp [hsorted] at h
  | cons a rest =>
      rw [hsorted] at h
      have hsame (x y : Path) : x.sameComponents y = true ↔ Path.compare x y = .eq :=
        sameComponents_iff.trans compare_eq_iff.symm
      obtain ⟨q, hq, heq⟩ := @exists_mem_loop _ _ _ _ hsame _ _ _ [] (.inr (List.mem_cons.mp h))
      exact ⟨q, hq, compare_eq_iff.mp heq⟩

/-- The paths that are left ascend strictly: no two of them have the same components. -/
theorem pairwise_distinct (paths : List Path) :
    (distinct paths).Pairwise fun p q => Path.compare p q = .lt := by
  have hsorted : (paths.mergeSort fun a b => (Path.compare a b).isLE).Pairwise fun a b =>
      (Path.compare a b).isLE = true := by
    refine List.pairwise_mergeSort (fun a b c => TransCmp.isLE_trans) (fun a b => ?_) paths
    rw [@OrientedCmp.eq_swap _ Path.compare _ b a]
    cases Path.compare a b <;> rfl
  rw [distinct]
  cases hlist : paths.mergeSort fun a b => (Path.compare a b).isLE with
  | nil => exact .nil
  | cons a rest =>
      rw [hlist] at hsorted
      exact pairwise_loop (fun x y => sameComponents_iff.trans compare_eq_iff.symm) hsorted
        (List.pairwise_singleton _ a)

end Distinct

end LintGate.Proofs.PathOrder
