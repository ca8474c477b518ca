import Mathlib.Data.List.Basic
import LintGate.Text.Dictionary

/-!
Dictionaries made of entries: sorted by key, each key with the last of its values.
-/

namespace LintGate.Proofs.SortedEntries

open LintGate.Dictionary
open Std

variable {α : Type} {key : String} {value : α} {d entries : List (String × α)}

/-- The keys ascend, so that no key stands twice. -/
def Sorted (entries : List (String × α)) : Prop :=
  entries.Pairwise fun a b => compare a.1 b.1 = .lt

theorem get?_nil (key : String) : get? key ([] : List (String × α)) = none := by
  rfl

theorem get?_cons (key : String) (e : String × α) (rest : List (String × α)) :
    get? key (e :: rest) = if e.1 = key then some e.2 else get? key rest := by
  by_cases h : e.1 = key <;> simp [get?, h]

theorem get?_append (key : String) (d rest : List (String × α)) :
    get? key (d ++ rest) = (get? key d).or (get? key rest) := by
  simp [get?, List.find?_append, Option.map_or]

theorem mem_of_get? (h : get? key d = some value) : (key, value) ∈ d := by
  obtain ⟨e, hfind, rfl⟩ := Option.map_eq_some_iff.mp h
  have hkey : e.1 = key := by simpa using List.find?_some hfind
  rw [← hkey]
  exact List.mem_of_find?_eq_some hfind

theorem get?_eq_none_iff : get? key d = none ↔ ∀ e ∈ d, e.1 ≠ key := by
  simp [get?]

theorem compare_lt_ne {a b : String} (h : compare a b = .lt) : a ≠ b := by
  rintro rfl
  have hself : compare a a = .eq := ReflOrd.compare_self
  rw [hself] at h
  cases h

theorem Sorted.nodup (h : Sorted d) : (d.map (·.1)).Nodup := by
  rw [List.Nodup, List.pairwise_map]
  refine h.imp fun {a b} hlt heq => ?_
  exact compare_lt_ne hlt heq

theorem get?_of_mem (hd : (d.map (·.1)).Nodup) (h : (key, value) ∈ d) :
    get? key d = some value := by
  induction d with
  | nil => cases h
  | cons e rest ih =>
      rw [List.map_cons, List.nodup_cons] at hd
      rw [get?_cons]
      rcases List.mem_cons.mp h with rfl | h
      · rw [if_pos rfl]
      · have hne : e.1 ≠ key := fun heq => hd.1 (heq ▸ List.mem_map_of_mem h)
        rw [if_neg hne, ih hd.2 h]

theorem get?_insert (key name : String) (value : α) (d : List (String × α)) :
    get? name (Dictionary.insert key value d) = if key = name then some value else get? name d := by
  induction d with
  | nil => rw [Dictionary.insert, get?_cons]
  | cons e rest ih =>
      rw [Dictionary.insert]
      split
      · rw [get?_cons]
      · rename_i heq
        have hkey : key = e.1 := LawfulEqOrd.eq_of_compare heq
        rw [get?_cons, get?_cons, ← hkey]
        by_cases h : key = name <;> simp [h]
      · rename_i hgt
        have hne : e.1 ≠ key := compare_lt_ne (OrientedCmp.lt_of_gt hgt)
        rw [get?_cons, get?_cons, ih]
        by_cases h : e.1 = name
        · simp [h, show key ≠ name from fun heq => hne (h.trans heq.symm)]
        · simp [h]

theorem mem_insert {e : String × α} (h : e ∈ Dictionary.insert key value d) :
    e = (key, value) ∨ e ∈ d := by
  induction d with
  | nil => simpa [Dictionary.insert] using h
  | cons head rest ih =>
      rw [Dictionary.insert] at h
      split at h
      · simpa using h
      · rcases List.mem_cons.mp h with rfl | h
        · exact .inl rfl
        · exact .inr (List.mem_cons_of_mem _ h)
      · rcases List.mem_cons.mp h with rfl | h
        · exact .inr List.mem_cons_self
        · rcases ih h with rfl | h
          · exact .inl rfl
          · exact .inr (List.mem_cons_of_mem _ h)

theorem sorted_insert (key : String) (value : α) (h : Sorted d) :
    Sorted (Dictionary.insert key value d) := by
  induction d with
  | nil => exact List.pairwise_singleton _ _
  | cons head rest ih =>
      obtain ⟨hhead, hrest⟩ := List.pairwise_cons.mp h
      rw [Dictionary.insert]
      split
      · rename_i hlt
        refine List.pairwise_cons.mpr ⟨?_, h⟩
        intro e he
        rcases List.mem_cons.mp he with rfl | he
        · exact hlt
        · exact TransCmp.lt_trans hlt (hhead e he)
      · rename_i heq
        obtain rfl := LawfulEqOrd.eq_of_compare heq
        exact List.pairwise_cons.mpr ⟨hhead, hrest⟩
      · rename_i hgt
        refine List.pairwise_cons.mpr ⟨?_, ih hrest⟩
        intro e he
        rcases mem_insert he with rfl | he
        · exact OrientedCmp.lt_of_gt hgt
        · exact hhead e he

theorem sorted_foldl (h : Sorted d) (entries : List (String × α)) :
    Sorted (entries.foldl (fun d e => Dictionary.insert e.1 e.2 d) d) := by
  induction entries generalizing d with
  | nil => exact h
  | cons e rest ih => exact ih (sorted_insert e.1 e.2 h)

theorem sorted_ofEntries (entries : List (String × α)) : Sorted (ofEntries entries) :=
  sorted_foldl .nil entries

theorem mem_foldl {e : String × α}
    (h : e ∈ entries.foldl (fun d e => Dictionary.insert e.1 e.2 d) d) : e ∈ entries ∨ e ∈ d := by
  induction entries generalizing d with
  | nil => exact .inr h
  | cons head rest ih =>
      rcases ih h with h | h
      · exact .inl (List.mem_cons_of_mem _ h)
      · rcases mem_insert h with rfl | h
        · exact .inl List.mem_cons_self
        · exact .inr h

theorem mem_of_mem_ofEntries {e : String × α} (h : e ∈ ofEntries entries) : e ∈ entries :=
  (mem_foldl h).resolve_right List.not_mem_nil

theorem get?_foldl (key : String) (entries d : List (String × α)) :
    get? key (entries.foldl (fun d e => Dictionary.insert e.1 e.2 d) d) =
      (get? key entries.reverse).or (get? key d) := by
  induction entries generalizing d with
  | nil => rfl
  | cons e rest ih =>
      rw [List.foldl_cons, ih, get?_insert, List.reverse_cons, get?_append, get?_cons, get?_nil]
      by_cases h : e.1 = key
      · cases get? key rest.reverse <;> simp [h]
      · cases get? key rest.reverse <;> simp [h]

/-- The last of equal keys wins. -/
theorem get?_ofEntries (key : String) (entries : List (String × α)) :
    get? key (ofEntries entries) = get? key entries.reverse := by
  rw [ofEntries, get?_foldl, get?_nil, Option.or_none]

theorem insert_of_greatest (h : ∀ e ∈ d, compare e.1 key = .lt) :
    Dictionary.insert key value d = d ++ [(key, value)] := by
  induction d with
  | nil => rfl
  | cons e rest ih =>
      have hgt : compare key e.1 = .gt := OrientedCmp.gt_of_lt (h e List.mem_cons_self)
      have hrest := ih fun e he => h e (List.mem_cons_of_mem _ he)
      simp only [Dictionary.insert, hgt, hrest, List.cons_append]

theorem foldl_of_sorted (h : Sorted (d ++ entries)) :
    entries.foldl (fun d e => Dictionary.insert e.1 e.2 d) d = d ++ entries := by
  induction entries generalizing d with
  | nil => simp
  | cons e rest ih =>
      have hlast : ∀ a ∈ d, compare a.1 e.1 = .lt := fun a ha =>
        (List.pairwise_append.mp h).2.2 a ha e List.mem_cons_self
      have hnext : Sorted ((d ++ [e]) ++ rest) := by
        rw [List.append_assoc]
        exact h
      rw [List.foldl_cons, insert_of_greatest hlast, ih hnext, List.append_assoc]
      rfl

theorem ofEntries_of_sorted (h : Sorted d) : ofEntries d = d :=
  foldl_of_sorted h

end LintGate.Proofs.SortedEntries
