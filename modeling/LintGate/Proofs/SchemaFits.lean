import Mathlib.Algebra.Order.Group.Nat
import LintGate.Json.Schema
import LintGate.Proofs.SortedEntries

/-!
Which values fit a schema. The check finds something wrong with exactly the values that do not fit.
-/

namespace LintGate.Proofs.SchemaFits

open LintGate.Json
open LintGate.Proofs.SortedEntries

/-- The number is this natural number. -/
def IsNatural (x : Double) (k : Nat) : Prop :=
  x.isNegative = false ∧ x.significand * 2 ^ x.exponent.toNat = k * 2 ^ (-x.exponent).toNat

section Magnitude

variable (x : Double)

theorem binade_eq : Double.binade = 2 ^ 52 := by
  rfl

theorem significand_bounds :
    x.significand < 2 ^ 53 ∧ (2 ^ 52 ≤ x.rank → 2 ^ 52 ≤ x.significand) := by
  have hmod : x.rank % 2 ^ 52 < 2 ^ 52 := Nat.mod_lt _ (by decide)
  rw [Double.significand, binade_eq]
  split <;> omega

theorem exponent_eq : x.exponent = max (x.rank / 2 ^ 52 : Nat) 1 - 1075 := by
  rfl

/-- The magnitude is one at least from the rank of one on. -/
theorem pow_le_significand_iff (h : x.exponent < 0) :
    2 ^ (-x.exponent).toNat ≤ x.significand ↔ 1023 * 2 ^ 52 ≤ x.rank := by
  obtain ⟨hless, hnormal⟩ := significand_bounds x
  have hexponent := exponent_eq x
  constructor
  · intro hpow
    by_contra hrank
    have hlarge : 53 ≤ (-x.exponent).toNat := by omega
    have hle : 2 ^ 53 ≤ 2 ^ (-x.exponent).toNat := Nat.pow_le_pow_right (by decide) hlarge
    omega
  · intro hrank
    have hsmall : (-x.exponent).toNat ≤ 52 := by omega
    have hle : 2 ^ (-x.exponent).toNat ≤ 2 ^ 52 := Nat.pow_le_pow_right (by decide) hsmall
    have hsignificand := hnormal (by omega)
    omega

theorem rank_of_exponent_nonneg (h : 0 ≤ x.exponent) : 1023 * 2 ^ 52 ≤ x.rank := by
  have hexponent := exponent_eq x
  omega

theorem atLeastOne_iff :
    x.atLeastOne = true ↔ x.isNegative = false ∧ 1023 * 2 ^ 52 ≤ x.rank := by
  simp [Double.atLeastOne, binade_eq]

theorem isIntegral_iff :
    x.isIntegral = true ↔ 0 ≤ x.exponent ∨ 2 ^ (-x.exponent).toNat ∣ x.significand := by
  simp [Double.isIntegral, Nat.dvd_iff_mod_eq_zero]

/-- The two checks of a double single out the natural numbers from one on. -/
theorem isNatural_iff :
    (∃ k, 1 ≤ k ∧ IsNatural x k) ↔ x.isIntegral = true ∧ x.atLeastOne = true := by
  rw [isIntegral_iff, atLeastOne_iff]
  by_cases hexponent : 0 ≤ x.exponent
  · have hzero : (-x.exponent).toNat = 0 := by omega
    have hrank := rank_of_exponent_nonneg x hexponent
    have hsignificand := (significand_bounds x).2 (by omega)
    have hpow : 0 < 2 ^ x.exponent.toNat := Nat.pow_pos (by decide)
    constructor
    · rintro ⟨k, -, hsign, -⟩
      exact ⟨.inl hexponent, hsign, hrank⟩
    · rintro ⟨-, hsign, -⟩
      refine ⟨x.significand * 2 ^ x.exponent.toNat, ?_, hsign, ?_⟩
      · exact Nat.mul_pos (by omega) hpow
      · rw [hzero, Nat.pow_zero, Nat.mul_one]
  · have hzero : x.exponent.toNat = 0 := by omega
    have hone := pow_le_significand_iff x (by omega)
    rw [← hone]
    constructor
    · rintro ⟨k, hk, hsign, heq⟩
      rw [hzero, Nat.pow_zero, Nat.mul_one] at heq
      refine ⟨.inr ⟨k, heq.trans (Nat.mul_comm _ _)⟩, hsign, ?_⟩
      rw [heq]
      exact Nat.le_mul_of_pos_left _ hk
    · rintro ⟨hintegral, hsign, hle⟩
      obtain ⟨k, hk⟩ := hintegral.resolve_left hexponent
      refine ⟨k, ?_, hsign, ?_⟩
      · by_contra hnone
        obtain rfl : k = 0 := by omega
        have hpow : 0 < 2 ^ (-x.exponent).toNat := Nat.pow_pos (by decide)
        omega
      · rw [hzero, Nat.pow_zero, Nat.mul_one, hk, Nat.mul_comm]

end Magnitude

/-- The values that a schema describes. -/
inductive Fits : Schema → Value → Prop
  | boolean (b : Bool) : Fits .boolean (.bool b)
  | string {minLength : Nat} {s : String} (h : minLength ≤ s.length) :
      Fits (.string minLength) (.string s)
  | natural {n : UInt64} (h : 1 ≤ n.toNat) : Fits .positiveInteger (.number (.natural n))
  | real {x : Double} {k : Nat} (h : 1 ≤ k) (hx : IsNatural x k) :
      Fits .positiveInteger (.number (.real x))
  | either {a b s : String} (h : s = a ∨ s = b) : Fits (.either a b) (.string s)
  | array {item : Schema} {items : List Value} (h : ∀ v ∈ items, Fits item v) :
      Fits (.array item) (.array items)
  | text (s : String) : Fits .stringOrStrings (.string s)
  | texts {members : List (String × Value)} (h : ∀ m ∈ members, ∃ s, m.2 = .string s) :
      Fits .stringOrStrings (.object members)
  /-- Every member has a schema of its own and fits it; no required one is missing. -/
  | object {properties : List (String × Schema)} {required : List String}
      {members : List (String × Value)}
      (hknown : ∀ m ∈ members, Dictionary.get? m.1 properties ≠ none)
      (hfits : ∀ m ∈ members, ∀ schema, Dictionary.get? m.1 properties = some schema →
        Fits schema m.2)
      (hrequired : ∀ name ∈ required, ∃ m ∈ members, m.1 = name) :
      Fits (.object properties required) (.object members)

/-- The member has a schema among the properties and fits it. -/
def Described (properties : List (String × Schema)) (m : String × Value) : Prop :=
  ∃ schema, Dictionary.get? m.1 properties = some schema ∧ Fits schema m.2

theorem fits_object_iff {properties : List (String × Schema)} {required : List String} {v : Value} :
    Fits (.object properties required) v ↔
      ∃ members, v = .object members ∧ (∀ m ∈ members, Described properties m) ∧
        ∀ name ∈ required, ∃ m ∈ members, m.1 = name := by
  constructor
  · intro h
    cases h with
    | @object _ _ members hknown hfits hrequired =>
        refine ⟨members, rfl, ?_, hrequired⟩
        intro m hm
        obtain ⟨schema, hget⟩ := Option.ne_none_iff_exists'.mp (hknown m hm)
        exact ⟨schema, hget, hfits m hm schema hget⟩
  · rintro ⟨members, rfl, hmembers, hrequired⟩
    refine .object ?_ ?_ hrequired
    · intro m hm
      obtain ⟨schema, hget, -⟩ := hmembers m hm
      simp [hget]
    · intro m hm schema hget
      obtain ⟨own, hown, hfits⟩ := hmembers m hm
      obtain rfl := Option.some.inj (hown.symm.trans hget)
      exact hfits

theorem fits_of_described {properties : List (String × Schema)} {members : List (String × Value)}
    {name : String} {schema : Schema} {v : Value} (h : ∀ m ∈ members, Described properties m)
    (hschema : Dictionary.get? name properties = some schema)
    (hget : Dictionary.get? name members = some v) : Fits schema v := by
  obtain ⟨own, hown, hfits⟩ := h _ (mem_of_get? hget)
  obtain rfl := Option.some.inj (hown.symm.trans hschema)
  exact hfits

theorem fits_get? {properties : List (String × Schema)} {required : List String} {name : String}
    {schema : Schema} {v w : Value} (h : Fits (.object properties required) v)
    (hschema : Dictionary.get? name properties = some schema) (hget : v.get? name = some w) :
    Fits schema w := by
  obtain ⟨members, rfl, hmembers, -⟩ := fits_object_iff.mp h
  exact fits_of_described hmembers hschema hget

theorem mem_of_fits {properties : List (String × Schema)} {required : List String} {name : String}
    {v w : Value} (h : Fits (.object properties required) v) (hget : v.get? name = some w) :
    name ∈ properties.map (·.1) := by
  obtain ⟨members, rfl, hmembers, -⟩ := fits_object_iff.mp h
  obtain ⟨schema, hschema, -⟩ := hmembers _ (mem_of_get? hget)
  exact List.mem_map_of_mem (mem_of_get? hschema)

section Checking

theorem firstItem?_eq_none_iff (check : Value → Option Violation) (items : List Value)
    (index : Nat) :
    Schema.firstItem? check index items = none ↔ ∀ v ∈ items, check v = none := by
  induction items generalizing index with
  | nil => simp [Schema.firstItem?]
  | cons v rest ih =>
      rw [Schema.firstItem?]
      cases hv : check v with
      | none => simp [hv, ih]
      | some found => simp [hv]

theorem find?_checks (properties : List (String × Schema)) (name : String) :
    (Schema.checks properties).find? (·.1 == name) =
      (Dictionary.get? name properties).map fun schema => (name, schema.check) := by
  induction properties with
  | nil => rfl
  | cons p rest ih =>
      rw [Schema.checks, List.find?_cons, get?_cons, ih]
      by_cases h : p.1 = name
      · simp [h]
      · have hne : (p.1 == name) = false := by simpa using h
        simp [h, hne]

theorem firstMember?_eq_none_iff (properties : List (String × Schema))
    (members : List (String × Value)) :
    Schema.firstMember? (Schema.checks properties) members = none ↔
      ∀ m ∈ members, ∃ schema, Dictionary.get? m.1 properties = some schema ∧
        schema.check m.2 = none := by
  induction members with
  | nil => simp [Schema.firstMember?]
  | cons m rest ih =>
      obtain ⟨name, v⟩ := m
      rw [Schema.firstMember?, find?_checks, List.forall_mem_cons, ← ih]
      cases Dictionary.get? name properties with
      | none => simp
      | some schema => cases hcheck : schema.check v <;> simp [hcheck]

theorem missing?_eq_none_iff (required : List String) (members : List (String × Value)) :
    Schema.missing? required members = none ↔ ∀ name ∈ required, ∃ m ∈ members, m.1 = name := by
  simp [Schema.missing?]

end Checking

theorem check_object_eq_none_iff (properties : List (String × Schema)) (required : List String)
    (members : List (String × Value)) :
    (Schema.object properties required).check (.object members) = none ↔
      (∀ m ∈ members, ∃ schema, Dictionary.get? m.1 properties = some schema ∧
        schema.check m.2 = none) ∧ ∀ name ∈ required, ∃ m ∈ members, m.1 = name := by
  rw [← firstMember?_eq_none_iff, ← missing?_eq_none_iff, Schema.check]
  cases Schema.firstMember? (Schema.checks properties) members <;> simp

theorem positiveInteger_iff (v : Value) :
    v.isInteger = true ∧ v.isPositive = true ↔ Fits .positiveInteger v := by
  constructor
  · rintro ⟨hinteger, hpositive⟩
    cases v with
    | number n =>
        cases n with
        | natural n =>
            have hne : n ≠ 0 := by simpa [Value.isPositive] using hpositive
            have hpos : n.toNat ≠ 0 := fun h => hne (UInt64.toNat_inj.mp h)
            exact .natural (by omega)
        | negative magnitude => cases hpositive
        | real x =>
            obtain ⟨k, hk, hx⟩ := (isNatural_iff x).mpr ⟨hinteger, hpositive⟩
            exact .real hk hx
    | _ => cases hinteger
  · intro h
    cases h with
    | @natural n h =>
        have hne : n ≠ 0 := by
          rintro rfl
          simp at h
        exact ⟨rfl, by simpa [Value.isPositive] using hne⟩
    | real hk hx => exact (isNatural_iff _).mp ⟨_, hk, hx⟩

theorem stringOrStrings_iff (v : Value) :
    v.isStringOrStrings = true ↔ Fits .stringOrStrings v := by
  have hstring (w : Value) : w.isString = true ↔ ∃ s, w = .string s := by
    cases w <;> simp [Value.isString]
  constructor
  · intro h
    cases v with
    | string s => exact .text s
    | object members =>
        refine .texts fun m hm => (hstring m.2).mp ?_
        exact List.all_eq_true.mp h m hm
    | _ => cases h
  · intro h
    cases h with
    | text s => rfl
    | texts h => exact List.all_eq_true.mpr fun m hm => (hstring m.2).mpr (h m hm)

/-- A value passes the check of a schema just if it fits. -/
theorem check_eq_none_iff : (schema : Schema) → (v : Value) →
    (schema.check v = none ↔ Fits schema v)
  | .boolean, v => by
      constructor
      · intro h
        cases v with
        | bool b => exact .boolean b
        | _ => cases h
      · rintro ⟨⟩
        rfl
  | .string minLength, v => by
      constructor
      · intro h
        cases v with
        | string s =>
            refine .string (Nat.not_lt.mp fun hlt => ?_)
            simp [Schema.check, hlt] at h
        | _ => cases h
      · intro h
        cases h with
        | string h => simp [Schema.check, h]
  | .positiveInteger, v => by
      rw [← positiveInteger_iff, Schema.check]
      cases v.isInteger <;> cases v.isPositive <;> simp
  | .either a b, v => by
      constructor
      · intro h
        cases v with
        | string s =>
            refine .either (Decidable.not_not.mp fun hne => ?_)
            simp [Schema.check, hne] at h
        | _ => cases h
      · intro h
        cases h with
        | either h => simp [Schema.check, h]
  | .array item, v => by
      constructor
      · intro h
        cases v with
        | array items =>
            rw [Schema.check, firstItem?_eq_none_iff] at h
            exact .array fun w hw => (check_eq_none_iff item w).mp (h w hw)
        | _ => cases h
      · intro h
        cases h with
        | array h =>
            rw [Schema.check, firstItem?_eq_none_iff]
            exact fun w hw => (check_eq_none_iff item w).mpr (h w hw)
  | .stringOrStrings, v => by
      rw [← stringOrStrings_iff, Schema.check]
      cases v.isStringOrStrings <;> simp
  | .object properties required, v => by
      have hmember (m : String × Value) :
          (∃ schema, Dictionary.get? m.1 properties = some schema ∧ schema.check m.2 = none) ↔
            Described properties m := by
        refine exists_congr fun schema => and_congr_right fun hget => ?_
        have hmem := mem_of_get? hget
        exact check_eq_none_iff schema m.2
      rw [fits_object_iff]
      constructor
      · intro h
        cases v with
        | object members =>
            obtain ⟨hmembers, hrequired⟩ := (check_object_eq_none_iff ..).mp h
            exact ⟨members, rfl, fun m hm => (hmember m).mp (hmembers m hm), hrequired⟩
        | _ => cases h
      · rintro ⟨members, rfl, hmembers, hrequired⟩
        refine (check_object_eq_none_iff ..).mpr ⟨?_, hrequired⟩
        exact fun m hm => (hmember m).mpr (hmembers m hm)
termination_by schema => sizeOf schema
decreasing_by
  all_goals first
    | (simp; done)
    | (have hsize := List.sizeOf_lt_of_mem hmem
       simp at hsize ⊢
       omega)

end LintGate.Proofs.SchemaFits
