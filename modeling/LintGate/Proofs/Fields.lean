import LintGate.Report.Skipped
import LintGate.Text.Cut
import Mathlib.Data.Nat.Digits.Defs

/-!
The fields of a line: line numbers, fields without blanks around them, and what stands before a
delimiter. What was printed is read back, and what is read is said to the letter.
-/

namespace LintGate.Proofs.Fields

open LintGate.Text

/-- The digits denote the number, the last one counting ones. -/
def Denote (digits : List Char) (n : Nat) : Prop :=
  digits ≠ [] ∧ (∀ c ∈ digits, c.isDigit = true) ∧
    Nat.ofDigits 10 (digits.reverse.map digitValue) = n

/-- The field holds the line number, blanks around it aside: digits, after a plus sign or not. -/
def IsLineNumber (field : List Char) (line : UInt32) : Prop :=
  ∃ digits, Denote digits line.toNat ∧ (trim field = digits ∨ trim field = '+' :: digits)

theorem digitValue_digitChar {n : Nat} (h : n < 10) : digitValue n.digitChar = n :=
  Nat.toNat_digitChar_sub_48_of_lt_ten h

theorem ofDigits_concat (cs : List Char) (c : Char) :
    ofDigits (cs ++ [c]) = 10 * ofDigits cs + digitValue c := by
  simp [ofDigits]

/-- The digits of a number denote it. -/
theorem ofDigits_digits (n : Nat) : ofDigits (digits n) = n := by
  induction n using Nat.strongRecOn with
  | ind n ih =>
      by_cases hn : n < 10
      · rw [digits, Nat.toDigits_of_lt_base hn]
        simp [ofDigits, digitValue_digitChar hn]
      · have hdigits : digits n = digits (n / 10) ++ [(n % 10).digitChar] :=
          Nat.toDigits_of_base_le (by decide) (Nat.le_of_not_lt hn)
        rw [hdigits, ofDigits_concat, ih (n / 10) (by omega),
          digitValue_digitChar (Nat.mod_lt n (by decide))]
        exact Nat.div_add_mod n 10

theorem isDigit_of_mem_digits {n : Nat} {c : Char} (h : c ∈ digits n) : c.isDigit = true :=
  Nat.isDigit_of_mem_toDigits (by decide) (by decide) h

theorem digits_ne_nil (n : Nat) : digits n ≠ [] :=
  Nat.toDigits_ne_nil

theorem natural?_digits (n : Nat) : natural? (digits n) = some n := by
  have hall : (digits n).all Char.isDigit = true :=
    List.all_eq_true.mpr fun c hc => isDigit_of_mem_digits hc
  simp [natural?, digits_ne_nil, hall, ofDigits_digits]

theorem isBlank_eq_false_of_isDigit {c : Char} (h : c.isDigit = true) : isBlank c = false := by
  have hrange : 48 ≤ c.toNat ∧ c.toNat ≤ 57 := by
    simpa [Char.isDigit, UInt32.le_iff_toNat_le] using h
  simp only [isBlank, Bool.or_eq_false_iff, Bool.and_eq_false_iff, decide_eq_false_iff_not,
    beq_eq_false_iff_ne]
  omega

theorem ne_of_isDigit {c d : Char} (hc : c.isDigit = true) (hd : d.isDigit = false) : c ≠ d := by
  rintro rfl
  rw [hc] at hd
  cases hd

theorem not_mem_digits {n : Nat} {d : Char} (hd : d.isDigit = false) : d ∉ digits n :=
  fun h => ne_of_isDigit (isDigit_of_mem_digits h) hd rfl

/-- A line number is read back from its digits. -/
theorem lineNumber?_digits (line : UInt32) : lineNumber? (digits line.toNat) = some line := by
  have hsign : (digits line.toNat).head? ≠ some '+' := by
    intro hplus
    exact ne_of_isDigit (isDigit_of_mem_digits (List.mem_of_head? hplus)) rfl rfl
  simp [lineNumber?, hsign, natural?_digits, UInt32.toNat_lt_size]

theorem ofDigits_eq (cs : List Char) :
    ofDigits cs = Nat.ofDigits 10 (cs.reverse.map digitValue) := by
  rw [Nat.ofDigits_eq_foldr, List.foldr_map, List.foldr_reverse, ofDigits]
  congr 1
  funext value c
  simp [Nat.add_comm]

theorem natural?_eq_some_iff {cs : List Char} {n : Nat} : natural? cs = some n ↔ Denote cs n := by
  rw [natural?, Denote, ← ofDigits_eq]
  simp [and_assoc]

theorem lineNumber?_eq_some_iff {cs : List Char} {line : UInt32} :
    lineNumber? cs = some line ↔
      ∃ digits, Denote digits line.toNat ∧ (cs = digits ∨ cs = '+' :: digits) := by
  have hnatural (digits : List Char) :
      (do
        let value ← natural? digits
        if value < UInt32.size then some (UInt32.ofNat value) else none) = some line ↔
      Denote digits line.toNat := by
    rw [← natural?_eq_some_iff]
    constructor
    · intro h
      obtain ⟨value, hvalue, h⟩ := Option.bind_eq_some_iff.mp h
      split at h
      · rename_i hlt
        obtain rfl := Option.some.inj h
        rw [hvalue, UInt32.toNat_ofNat_of_lt' hlt]
      · cases h
    · intro h
      simp [h, UInt32.toNat_lt_size]
  rw [lineNumber?, hnatural]
  constructor
  · intro h
    refine ⟨_, h, ?_⟩
    split
    · rename_i hplus
      obtain ⟨rest, rfl⟩ := List.head?_eq_some_iff.mp hplus
      exact .inr rfl
    · exact .inl rfl
  · rintro ⟨digits, hdenote, rfl | rfl⟩
    · rw [if_neg]
      · exact hdenote
      · intro hplus
        exact ne_of_isDigit (hdenote.2.1 '+' (List.mem_of_head? hplus)) rfl rfl
    · exact hdenote

theorem readLineNumber_eq_ok_iff {field : List Char} {line : UInt32} :
    readLineNumber field = .ok line ↔ IsLineNumber field line := by
  rw [IsLineNumber, ← lineNumber?_eq_some_iff, readLineNumber]
  cases lineNumber? (trim field) <;> simp

theorem dropWhile_eq_self {cs : List Char} (h : ∀ c ∈ cs, isBlank c = false) :
    cs.dropWhile isBlank = cs := by
  cases cs with
  | nil => rfl
  | cons c rest => simp [h c List.mem_cons_self]

theorem trim_eq_self {cs : List Char} (h : ∀ c ∈ cs, isBlank c = false) : trim cs = cs := by
  have hreverse : ∀ c ∈ cs.reverse, isBlank c = false := by
    intro c hc
    exact h c (List.mem_reverse.mp hc)
  rw [trim, trimStart, dropWhile_eq_self h, trimEnd, dropWhile_eq_self hreverse,
    List.reverse_reverse]

theorem mem_dropWhile {c : Char} {cs : List Char} (hc : c ∈ cs) (hblank : isBlank c = false) :
    c ∈ cs.dropWhile isBlank := by
  induction cs with
  | nil => cases hc
  | cons b rest ih =>
      rw [List.dropWhile_cons]
      split
      · rename_i hb
        rcases List.mem_cons.mp hc with rfl | hrest
        · rw [hblank] at hb
          cases hb
        · exact ih hrest
      · exact hc

/-- Trimming takes nothing away but blanks. -/
theorem mem_trim {c : Char} {cs : List Char} (hc : c ∈ cs) (hblank : isBlank c = false) :
    c ∈ trim cs := by
  have hstart : c ∈ trimStart cs := mem_dropWhile hc hblank
  have hend := mem_dropWhile (List.mem_reverse.mpr hstart) hblank
  exact List.mem_reverse.mpr hend

theorem cutAt_append {d : Char} {before : List Char} (h : d ∉ before) (after : List Char) :
    cutAt d (before ++ d :: after) = .ok (before, after) := by
  rw [cutAt, cut_eq_some_iff.mpr ⟨rfl, h⟩]

/-- There is one way to cut a text at the first `d`. -/
theorem cut_unique {d : Char} {before before' after after' : List Char}
    (h : before ++ d :: after = before' ++ d :: after') (hd : d ∉ before) (hd' : d ∉ before') :
    before = before' ∧ after = after' := by
  have hcut := cut_eq_some_iff.mpr ⟨h, hd'⟩
  rw [cut_eq_some_iff.mpr ⟨rfl, hd⟩] at hcut
  exact Prod.mk.inj (Option.some.inj hcut)

theorem cutAt_eq_ok_iff {d : Char} {cs before after : List Char} :
    cutAt d cs = .ok (before, after) ↔ cs = before ++ d :: after ∧ d ∉ before := by
  rw [← cut_eq_some_iff, cutAt]
  cases cut d cs <;> simp

theorem readLineNumber_digits (line : UInt32) :
    readLineNumber (digits line.toNat) = .ok line := by
  have hblank : ∀ c ∈ digits line.toNat, isBlank c = false :=
    fun c hc => isBlank_eq_false_of_isDigit (isDigit_of_mem_digits hc)
  simp only [readLineNumber, trim_eq_self hblank, lineNumber?_digits]

theorem bind_eq_ok {ε α β : Type} {x : Except ε α} {f : α → Except ε β} {b : β}
    (h : (x >>= f) = .ok b) : ∃ a, x = .ok a ∧ f a = .ok b := by
  cases x with
  | error e => cases h
  | ok a => exact ⟨a, rfl, h⟩

theorem map_eq_ok {ε α β : Type} {x : Except ε α} {f : α → β} {b : β} (h : x.map f = .ok b) :
    ∃ a, x = .ok a ∧ f a = b := by
  cases x with
  | error e => cases h
  | ok a => exact ⟨a, rfl, Except.ok.inj h⟩

theorem eq_ok_of_toOption {ε α : Type} {x : Except ε α} {a : α} (h : x.toOption = some a) :
    x = .ok a := by
  cases x with
  | error e => cases h
  | ok b => rw [Option.some.inj h]

theorem requireField_eq_ok_iff {name : String} {field : List Char} {s : String} :
    requireField name field = .ok s ↔ trim field = s.toList ∧ s ≠ "" := by
  rw [requireField]
  split
  · rename_i hempty
    constructor
    · intro h
      cases h
    · rintro ⟨heq, hne⟩
      exact absurd (String.toList_eq_nil_iff.mp (heq ▸ hempty)) hne
  · rename_i hsome
    constructor
    · intro h
      cases h
      exact ⟨by rw [String.toList_ofList], fun h => hsome (String.ofList_eq_empty_iff.mp h)⟩
    · rintro ⟨heq, _⟩
      rw [heq, String.ofList_toList]

theorem concat_singleton (r : Reading) : Reading.concat [r] = r := by
  simp [Reading.concat]

end LintGate.Proofs.Fields
