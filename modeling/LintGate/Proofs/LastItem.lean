import Mathlib.Data.List.Basic

/-!
Lists of items with keys, in which a later item takes the place of an earlier one: of the items with
a key the last one counts.
-/

namespace LintGate.Proofs.LastItem

variable {α : Type} {keyOf : α → String} {items : List α} {key : String} {x : α}

/-- The item is the last one with the key. -/
def IsLast (keyOf : α → String) (items : List α) (key : String) (x : α) : Prop :=
  ∃ before after, items = before ++ x :: after ∧ keyOf x = key ∧ ∀ y ∈ after, keyOf y ≠ key

theorem isLast_iff_find? :
    IsLast keyOf items key x ↔ items.reverse.find? (keyOf · == key) = some x := by
  rw [List.find?_eq_some_iff_append]
  constructor
  · rintro ⟨before, after, rfl, hkey, hafter⟩
    refine ⟨by simpa using hkey, after.reverse, before.reverse, by simp, ?_⟩
    simpa using hafter
  · rintro ⟨hkey, after, before, heq, hafter⟩
    refine ⟨before.reverse, after.reverse, ?_, by simpa using hkey, by simpa using hafter⟩
    rw [← List.reverse_inj, heq]
    simp

/-- Where no two items have one key, every item is the last one with its key. -/
theorem isLast_iff_mem (h : (items.map keyOf).Nodup) :
    IsLast keyOf items key x ↔ x ∈ items ∧ keyOf x = key := by
  constructor
  · rintro ⟨before, after, rfl, hkey, _⟩
    exact ⟨by simp, hkey⟩
  · rintro ⟨hmem, rfl⟩
    obtain ⟨before, after, rfl⟩ := List.append_of_mem hmem
    rw [List.map_append, List.map_cons, List.nodup_append, List.nodup_cons] at h
    refine ⟨before, after, rfl, rfl, fun y hy hkey => h.2.1.1 ?_⟩
    exact hkey ▸ List.mem_map_of_mem hy

end LintGate.Proofs.LastItem
