import LintGate.Json.Printer
import LintGate.Json.Reader
import LintGate.Proofs.Fields
import Mathlib.Data.List.TakeWhile

/-!
Strings and numbers of JSON texts. Whatever characters a string has, what is written for it is read
as the string, and so is a number read whose digits are those that were written.
-/

namespace LintGate.Proofs.JsonTokens

open LintGate.Json
open LintGate.Proofs.Fields

section Strings

/-- The part that a character of a string is read as. -/
def partOf (c : Char) : StringPart :=
  if c.toNat < 0x20 ∧ c ∉ ['\x08', '\t', '\n', '\x0c', '\r'] then .escape c.toNat else .plain c

theorem escapeControl_eq {n : Nat} (h : n < 0x20) :
    ∃ a b c d, escapeControl (Char.ofNat n) = ['\\', 'u', a, b, c, d] ∧ hex4? a b c d = some n := by
  have hall : ∀ n < 0x20,
      let cs := escapeControl (Char.ofNat n)
      let digit := fun i => cs.getD i '0'
      cs = ['\\', 'u', digit 2, digit 3, digit 4, digit 5] ∧
        hex4? (digit 2) (digit 3) (digit 4) (digit 5) = some n := by decide
  exact ⟨_, _, _, _, hall n h⟩

theorem stringParts?_plain {c : Char} (hquote : c ≠ '"') (hslash : c ≠ '\\')
    (hcode : 0x20 ≤ c.toNat) (rest : List Char) :
    stringParts? (c :: rest) =
      (stringParts? rest).map fun found => (.plain c :: found.1, found.2) := by
  have hstop : ¬ ((decide (c.toNat < 0x20) || c == '\\') = true) := by
    simp [hslash, Nat.not_lt.mpr hcode]
  rw [stringParts?, if_neg hstop]
  · cases stringParts? rest <;> rfl
  · exact hquote
  · intro _ _ _ _ _ h
    exact absurd h hslash
  · intro _ _ h
    exact absurd h hslash

theorem stringParts?_simple {e c : Char} (he : e ≠ 'u') (h : simpleEscape? e = some c)
    (rest : List Char) :
    stringParts? ('\\' :: e :: rest) =
      (stringParts? rest).map fun found => (.plain c :: found.1, found.2) := by
  rw [stringParts?, h]
  · cases stringParts? rest <;> rfl
  · intro _ _ _ _ _ hu
    exact absurd hu he

/-- What is written for a character is read as one part. -/
theorem stringParts?_escapeChar (c : Char) (rest : List Char) :
    stringParts? (escapeChar c ++ rest) =
      (stringParts? rest).map fun found => (partOf c :: found.1, found.2) := by
  unfold escapeChar
  split
  case h_8 hquote hslash hb ht hn hf hr =>
    split
    · rename_i hcode
      obtain ⟨a, b, c', d, heq, hhex⟩ := escapeControl_eq hcode
      rw [Char.ofNat_toNat] at heq
      have hpart : partOf c = .escape c.toNat := by
        rw [partOf, if_pos]
        simp_all
      rw [heq, hpart]
      simp only [List.cons_append, List.nil_append, stringParts?, hhex]
      cases stringParts? rest <;> rfl
    · rename_i hcode
      have hpart : partOf c = .plain c := by
        rw [partOf, if_neg]
        exact fun h => hcode h.1
      rw [hpart]
      exact stringParts?_plain hquote hslash (Nat.le_of_not_lt hcode) rest
  all_goals exact stringParts?_simple (by decide) rfl rest

theorem stringParts?_quoted (cs rest : List Char) :
    stringParts? (cs.flatMap escapeChar ++ '"' :: rest) = some (cs.map partOf, rest) := by
  induction cs with
  | nil => simp [stringParts?]
  | cons c cs ih =>
      rw [List.flatMap_cons, List.append_assoc, stringParts?_escapeChar, ih]
      rfl

/-- No part that stands for a character is half of a pair. -/
theorem joinParts?_partOf (c : Char) (parts : List StringPart) :
    joinParts? (partOf c :: parts) = (joinParts? parts).map (c :: ·) := by
  rw [partOf]
  split
  · rename_i h
    obtain ⟨hcode, -⟩ := h
    have hhigh : ¬ (0xD800 ≤ c.toNat ∧ c.toNat < 0xDC00) := by omega
    have hlow : ¬ (0xDC00 ≤ c.toNat ∧ c.toNat < 0xE000) := by omega
    have hsurrogate : ¬ (0xD800 ≤ c.toNat ∧ c.toNat < 0xE000) := by omega
    cases parts with
    | nil => simp [joinParts?, hsurrogate]
    | cons next parts => cases next <;> simp [joinParts?, hhigh, hlow, hsurrogate]
  · rw [joinParts?]

theorem joinParts?_map (cs : List Char) : joinParts? (cs.map partOf) = some cs := by
  induction cs with
  | nil => rfl
  | cons c cs ih => rw [List.map_cons, joinParts?_partOf, ih, Option.map_some]

/-- A string is read back, whatever characters it has and whatever comes after it. -/
theorem string?_quoted (s : String) (rest : List Char) :
    string? (s.toList.flatMap escapeChar ++ '"' :: rest) = some (some s, rest) := by
  simp only [string?, stringParts?_quoted, Option.map_some, joinParts?_map, String.ofList_toList]

end Strings

section Numbers

/-- The text is at its end, or goes on with a character that is never inside a number. -/
def Stops (rest : List Char) : Prop :=
  ∀ c, rest.head? = some c → isSpace c = true ∨ c ∈ [',', ']', '\x7d']

variable {rest : List Char}

theorem Stops.not_isDigit (h : Stops rest) {c : Char} (hc : rest.head? = some c) :
    c.isDigit = false ∧ c ≠ '.' ∧ c ≠ 'e' ∧ c ≠ 'E' := by
  have hcases : c ∈ [' ', '\n', '\t', '\r', ',', ']', '\x7d'] := by
    simpa [isSpace, or_assoc] using h c hc
  have hall : [' ', '\n', '\t', '\r', ',', ']', '\x7d'].all
      (fun c => !c.isDigit && c != '.' && c != 'e' && c != 'E') = true := rfl
  simpa [and_assoc] using List.all_eq_true.mp hall c hcases

theorem takeWhile_append_stops (h : Stops rest) (cs : List Char) :
    (cs ++ rest).takeWhile Char.isDigit = cs.takeWhile Char.isDigit ∧
      (cs ++ rest).dropWhile Char.isDigit = cs.dropWhile Char.isDigit ++ rest := by
  induction cs with
  | nil =>
      cases rest with
      | nil => exact ⟨rfl, rfl⟩
      | cons c rest =>
          obtain ⟨hdigit, -⟩ := h.not_isDigit rfl
          simp [hdigit]
  | cons c cs ih =>
      cases hc : c.isDigit with
      | true => simpa [hc] using ih
      | false => simp [hc]

theorem digitRun?_append (h : Stops rest) {cs run after : List Char}
    (hrun : digitRun? cs = some (run, after)) :
    digitRun? (cs ++ rest) = some (run, after ++ rest) := by
  obtain ⟨htake, hdrop⟩ := takeWhile_append_stops h cs
  rw [digitRun?] at hrun ⊢
  rw [htake, hdrop]
  split at hrun
  · cases hrun
  · obtain ⟨rfl, rfl⟩ := Prod.mk.inj (Option.some.inj hrun)
    rfl

theorem wholePart?_append (h : Stops rest) {cs run after : List Char}
    (hrun : wholePart? cs = some (run, after)) :
    wholePart? (cs ++ rest) = some (run, after ++ rest) := by
  obtain ⟨hrun, hzero⟩ := Option.filter_eq_some_iff.mp hrun
  rw [wholePart?, digitRun?_append h hrun, Option.filter_eq_some_iff]
  exact ⟨rfl, hzero⟩

theorem head?_append_ne {cs : List Char} {d : Char} (hcs : cs.head? ≠ some d)
    (hrest : rest.head? ≠ some d) : (cs ++ rest).head? ≠ some d := by
  cases cs with
  | nil => exact hrest
  | cons c cs => exact hcs

theorem fractionPart?_of_head? {cs : List Char} (h : cs.head? ≠ some '.') :
    fractionPart? cs = some (none, cs) := by
  unfold fractionPart?
  split
  · exact absurd rfl h
  · rfl

theorem fractionPart?_append (h : Stops rest) {cs after : List Char} {fraction : Option (List Char)}
    (hcs : fractionPart? cs = some (fraction, after)) :
    fractionPart? (cs ++ rest) = some (fraction, after ++ rest) := by
  by_cases hpoint : cs.head? = some '.'
  · obtain ⟨cs, rfl⟩ := List.head?_eq_some_iff.mp hpoint
    obtain ⟨⟨run, after⟩, hrun, heq⟩ := Option.map_eq_some_iff.mp hcs
    obtain ⟨rfl, rfl⟩ := Prod.mk.inj heq
    rw [List.cons_append, fractionPart?, digitRun?_append h hrun]
    rfl
  · rw [fractionPart?_of_head? hpoint] at hcs
    obtain ⟨rfl, rfl⟩ := Prod.mk.inj (Option.some.inj hcs)
    have hrest : rest.head? ≠ some '.' := fun hc => (h.not_isDigit hc).2.1 rfl
    exact fractionPart?_of_head? (head?_append_ne hpoint hrest)

/-- The power of ten behind its letter. -/
def signedPower? : List Char → Option (Option Int × List Char)
  | '-' :: rest =>
    (digitRun? rest).map fun (run, rest) => (some (-(Text.ofDigits run : Int)), rest)
  | '+' :: rest => (digitRun? rest).map fun (run, rest) => (some (Text.ofDigits run : Int), rest)
  | rest => (digitRun? rest).map fun (run, rest) => (some (Text.ofDigits run : Int), rest)

theorem powerPart?_letter {c : Char} (h : c = 'e' ∨ c = 'E') (cs : List Char) :
    powerPart? (c :: cs) = signedPower? cs := by
  rcases h with rfl | rfl <;> rfl

theorem powerPart?_of_head? {cs : List Char} (he : cs.head? ≠ some 'e')
    (hE : cs.head? ≠ some 'E') : powerPart? cs = some (none, cs) := by
  unfold powerPart?
  split
  · exact absurd rfl he
  · exact absurd rfl hE
  · rfl

theorem map_digitRun?_append (h : Stops rest) (f : List Char → Option Int) {power : Option Int}
    {cs after : List Char}
    (hcs : ((digitRun? cs).map fun (run, rest) => (f run, rest)) = some (power, after)) :
    ((digitRun? (cs ++ rest)).map fun (run, rest) => (f run, rest)) =
      some (power, after ++ rest) := by
  obtain ⟨⟨run, after⟩, hrun, heq⟩ := Option.map_eq_some_iff.mp hcs
  obtain ⟨rfl, rfl⟩ := Prod.mk.inj heq
  rw [digitRun?_append h hrun]
  rfl

theorem signedPower?_append (h : Stops rest) {cs after : List Char} {power : Option Int}
    (hcs : signedPower? cs = some (power, after)) :
    signedPower? (cs ++ rest) = some (power, after ++ rest) := by
  unfold signedPower? at hcs
  split at hcs
  · exact map_digitRun?_append h (fun run => some (-(Text.ofDigits run : Int))) hcs
  · exact map_digitRun?_append h (fun run => some (Text.ofDigits run : Int)) hcs
  · rename_i hminus hplus
    cases cs with
    | nil => cases hcs
    | cons c cs =>
        unfold signedPower?
        split
        · rename_i heq
          obtain ⟨rfl, -⟩ := List.cons.inj heq
          exact absurd rfl (hminus cs)
        · rename_i heq
          obtain ⟨rfl, -⟩ := List.cons.inj heq
          exact absurd rfl (hplus cs)
        · exact map_digitRun?_append h (fun run => some (Text.ofDigits run : Int)) hcs

theorem powerPart?_append (h : Stops rest) {cs after : List Char} {power : Option Int}
    (hcs : powerPart? cs = some (power, after)) :
    powerPart? (cs ++ rest) = some (power, after ++ rest) := by
  by_cases hletter : cs.head? = some 'e' ∨ cs.head? = some 'E'
  · obtain ⟨c, hc, cs, rfl⟩ : ∃ c, (c = 'e' ∨ c = 'E') ∧ ∃ tail, cs = c :: tail := by
      rcases hletter with hletter | hletter
      · exact ⟨'e', .inl rfl, List.head?_eq_some_iff.mp hletter⟩
      · exact ⟨'E', .inr rfl, List.head?_eq_some_iff.mp hletter⟩
    rw [List.cons_append, powerPart?_letter hc] at *
    exact signedPower?_append h hcs
  · obtain ⟨he, hE⟩ := not_or.mp hletter
    rw [powerPart?_of_head? he hE] at hcs
    obtain ⟨rfl, rfl⟩ := Prod.mk.inj (Option.some.inj hcs)
    exact powerPart?_of_head? (head?_append_ne he fun hc => (h.not_isDigit hc).2.2.1 rfl)
      (head?_append_ne hE fun hc => (h.not_isDigit hc).2.2.2 rfl)

/-- A sign in front, and the text behind it. -/
def signOf : List Char → Bool × List Char
  | '-' :: rest => (true, rest)
  | rest => (false, rest)

theorem numeral?_eq (cs : List Char) :
    numeral? cs = (do
      let (whole, after) ← wholePart? (signOf cs).2
      let (fraction, after) ← fractionPart? after
      let (power, after) ← powerPart? after
      return (⟨(signOf cs).1, whole, fraction, power⟩, after)) := by
  rfl

theorem signOf_append {cs : List Char} (hcs : cs ≠ []) (rest : List Char) :
    signOf (cs ++ rest) = ((signOf cs).1, (signOf cs).2 ++ rest) := by
  cases cs with
  | nil => exact absurd rfl hcs
  | cons c cs =>
      by_cases hc : c = '-'
      · subst hc
        rfl
      · simp [signOf, hc]

/-- What follows a numeral and cannot go on with it leaves it as it is. -/
theorem numeral?_append (h : Stops rest) {cs after : List Char} {n : Numeral}
    (hcs : numeral? cs = some (n, after)) : numeral? (cs ++ rest) = some (n, after ++ rest) := by
  have hne : cs ≠ [] := by
    rintro rfl
    cases hcs
  rw [numeral?_eq] at hcs
  obtain ⟨⟨whole, afterWhole⟩, hwhole, hcs⟩ := Option.bind_eq_some_iff.mp hcs
  obtain ⟨⟨fraction, afterFraction⟩, hfraction, hcs⟩ := Option.bind_eq_some_iff.mp hcs
  obtain ⟨⟨power, afterPower⟩, hpower, hcs⟩ := Option.bind_eq_some_iff.mp hcs
  obtain ⟨rfl, rfl⟩ := Prod.mk.inj (Option.some.inj hcs)
  rw [numeral?_eq, signOf_append hne]
  simp only [wholePart?_append h hwhole, fractionPart?_append h hfraction,
    powerPart?_append h hpower, Option.bind_eq_bind, Option.bind_some]
  rfl

/-- A numeral starts with its sign or a digit. -/
theorem head_of_numeral? {cs after : List Char} {n : Numeral} (h : numeral? cs = some (n, after)) :
    ∃ c tail, cs = c :: tail ∧ (c = '-' ∨ c.isDigit = true) := by
  cases cs with
  | nil => cases h
  | cons c tail =>
      refine ⟨c, tail, rfl, ?_⟩
      by_cases hc : c = '-'
      · exact .inl hc
      · right
        have hsign : signOf (c :: tail) = (false, c :: tail) := by simp [signOf, hc]
        rw [numeral?_eq, hsign] at h
        obtain ⟨⟨whole, _⟩, hwhole, _⟩ := Option.bind_eq_some_iff.mp h
        obtain ⟨hrun, _⟩ := Option.filter_eq_some_iff.mp hwhole
        cases hdigit : c.isDigit with
        | true => rfl
        | false => simp [digitRun?, hdigit] at hrun

/-- The text of the number is one numeral, and that numeral is read as the number. -/
def ReadsBack (n : Number) : Prop :=
  ∃ numeral, numeral? n.text.toList = some (numeral, []) ∧
    Number.ofNumeral? Numeral.byScaling? numeral = some n

instance (n : Number) : Decidable (ReadsBack n) :=
  decidable_of_iff ((numeral? n.text.toList).any fun found =>
      found.2.isEmpty && Number.ofNumeral? Numeral.byScaling? found.1 == some n) <| by
    rw [ReadsBack, Option.any_eq_true]
    simp

theorem head?_digits {n : Nat} (h : n ≠ 0) : (Text.digits n).head? ≠ some '0' := by
  induction n using Nat.strongRecOn with
  | ind n ih =>
      by_cases hn : n < 10
      · rw [Text.digits, Nat.toDigits_of_lt_base hn]
        intro hzero
        have hvalue := digitValue_digitChar hn
        rw [Option.some.inj hzero] at hvalue
        exact h hvalue.symm
      · have hdigits : Text.digits n = Text.digits (n / 10) ++ [(n % 10).digitChar] :=
          Nat.toDigits_of_base_le (by decide) (Nat.le_of_not_lt hn)
        rw [hdigits, List.head?_append, Option.or_of_isSome (by simp [digits_ne_nil])]
        exact ih (n / 10) (by omega) (by omega)

theorem wholePart?_digits (n : Nat) : wholePart? (Text.digits n) = some (Text.digits n, []) := by
  have hall : ∀ c ∈ Text.digits n, c.isDigit = true := fun c hc => isDigit_of_mem_digits hc
  have htake : (Text.digits n).takeWhile Char.isDigit = Text.digits n :=
    List.takeWhile_eq_self_iff.mpr hall
  have hdrop : (Text.digits n).dropWhile Char.isDigit = [] :=
    List.dropWhile_eq_nil_iff.mpr hall
  have hrun : digitRun? (Text.digits n) = some (Text.digits n, []) := by
    rw [digitRun?, htake, hdrop]
    split
    · rename_i hnil
      exact absurd hnil (digits_ne_nil n)
    · rfl
  rw [wholePart?, hrun, Option.filter_some, if_pos]
  by_cases hn : n = 0
  · subst hn
    rfl
  · simp [head?_digits hn]

theorem numeral?_digits (n : Nat) :
    numeral? (Text.digits n) = some (⟨false, Text.digits n, none, none⟩, []) := by
  have hsign : signOf (Text.digits n) = (false, Text.digits n) := by
    unfold signOf
    split
    · rename_i heq
      have hminus : '-' ∈ Text.digits n := heq ▸ List.mem_cons_self
      exact absurd hminus (not_mem_digits rfl)
    · rfl
  rw [numeral?_eq, hsign]
  simp only [wholePart?_digits, Option.bind_eq_bind, Option.bind_some]
  rfl

theorem readsBack_natural (k : UInt64) : ReadsBack (.natural k) := by
  refine ⟨⟨false, Text.digits k.toNat, none, none⟩, ?_, ?_⟩
  · rw [← numeral?_digits]
    simp [Number.text, Text.digits]
  · have hlt : k.toNat < UInt64.size := k.toNat_lt_size
    simp [Number.ofNumeral?, Numeral.isWhole, ofDigits_digits, hlt]

end Numbers

end LintGate.Proofs.JsonTokens
