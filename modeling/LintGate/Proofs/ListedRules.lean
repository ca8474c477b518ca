import LintGate.Profile
import LintGate.Proofs.Fields
import LintGate.Proofs.LastItem
import Mathlib.Data.List.Induction

/-!
Profiles made from a list of rules. A list is refused at its first rule whose key is blank or has
come before. A profile that is made has every listed rule under its key, and of the rules that are
inserted later the last one with a key counts.
-/

namespace LintGate.Proofs.ListedRules

open LintGate.Profile
open LintGate.Proofs.LastItem

/-- The rule cannot follow these rules. That its key is blank is noticed before that it has come
before. -/
inductive Unfit (before : List Rule) (r : Rule) : Profile.Error → Prop
  | blank (h : ∀ c ∈ r.key.toList, Text.isBlank c = true) : Unfit before r .blankKey
  | duplicate {c : Char} (hc : c ∈ r.key.toList) (hplain : Text.isBlank c = false)
      (h : r.key ∈ before.map (·.key)) : Unfit before r (.duplicateKey r.key)

/-- No rule of the list is unfit behind those before it. -/
def AllFit (rules : List Rule) : Prop :=
  ∀ before r after, rules = before ++ r :: after → ∀ e, ¬ Unfit before r e

section Lists

variable {before rules : List Rule} {r : Rule}

/-- A key is blank, or has a character that is not. -/
theorem isBlankText_cases (key : String) :
    (∀ c ∈ key.toList, Text.isBlank c = true) ∨ ∃ c ∈ key.toList, Text.isBlank c = false := by
  by_cases h : ∀ c ∈ key.toList, Text.isBlank c = true
  · exact .inl h
  · exact .inr (by simpa using h)

theorem exists_unfit_iff : (∃ e, Unfit before r e) ↔
    (∀ c ∈ r.key.toList, Text.isBlank c = true) ∨ r.key ∈ before.map (·.key) := by
  constructor
  · rintro ⟨_, h | ⟨_, _, h⟩⟩
    · exact .inl h
    · exact .inr h
  · intro h
    rcases isBlankText_cases r.key with hblank | ⟨c, hc, hplain⟩
    · exact ⟨_, .blank hblank⟩
    · refine ⟨_, .duplicate hc hplain (h.resolve_left fun hblank => ?_)⟩
      rw [hblank c hc] at hplain
      cases hplain

theorem allFit_nil : AllFit [] := by
  intro before r after h
  simp at h

theorem allFit_concat : AllFit (before ++ [r]) ↔ AllFit before ∧ ∀ e, ¬ Unfit before r e := by
  constructor
  · intro h
    refine ⟨fun first s rest heq => ?_, h before r [] rfl⟩
    exact h first s (rest ++ [r]) (by rw [heq, List.append_assoc, List.cons_append])
  · rintro ⟨hbefore, hlast⟩ first s rest heq
    rcases List.eq_nil_or_concat rest with rfl | ⟨rest, x, rfl⟩
    · obtain ⟨rfl, hs⟩ := List.append_inj' heq rfl
      obtain rfl := List.head_eq_of_cons_eq hs
      exact hlast
    · rw [List.concat_eq_append, ← List.cons_append, ← List.append_assoc] at heq
      exact hbefore first s rest (List.append_inj' heq rfl).1

/-- A list in which a rule is unfit has a first one. -/
theorem exists_first_of_not_allFit (h : ¬ AllFit rules) :
    ∃ before r after e, rules = before ++ r :: after ∧ AllFit before ∧ Unfit before r e := by
  induction rules using List.reverseRecOn with
  | nil => exact absurd allFit_nil h
  | append_singleton before r ih =>
      by_cases hbefore : AllFit before
      · rw [allFit_concat] at h
        obtain ⟨e, he⟩ : ∃ e, Unfit before r e := by
          simpa [hbefore] using h
        exact ⟨before, r, [], e, rfl, hbefore, he⟩
      · obtain ⟨first, s, after, e, rfl, hfirst, he⟩ := ih hbefore
        exact ⟨first, s, after ++ [r], e, by simp, hfirst, he⟩

theorem nodup_keys_concat : ((before ++ [r]).map (·.key)).Nodup ↔
    r.key ∉ before.map (·.key) ∧ (before.map (·.key)).Nodup := by
  rw [List.map_append, List.map_singleton, (List.perm_append_singleton _ _).nodup_iff,
    List.nodup_cons]

/-- The keys of a list without an unfit rule are different, and none is blank. -/
theorem allFit_iff : AllFit rules ↔ (rules.map (·.key)).Nodup ∧
    ∀ r ∈ rules, ∃ c ∈ r.key.toList, Text.isBlank c = false := by
  induction rules using List.reverseRecOn with
  | nil => simp [allFit_nil]
  | append_singleton before r ih =>
      have hlast : (∀ e, ¬ Unfit before r e) ↔
          (∃ c ∈ r.key.toList, Text.isBlank c = false) ∧ r.key ∉ before.map (·.key) := by
        rw [← not_exists, exists_unfit_iff]
        simp
      rw [allFit_concat, ih, hlast, nodup_keys_concat, List.forall_mem_append,
        List.forall_mem_singleton]
      tauto

end Lists

section Inserting

variable {p : Profile} {rules : List Rule} {r : Rule}

theorem find?_put (r : Rule) (rules : List Rule) (key : String) :
    (put r rules).find? (·.key == key) =
      if r.key = key then some r else rules.find? (·.key == key) := by
  induction rules with
  | nil => by_cases hkey : r.key = key <;> simp [put, hkey]
  | cons s rest ih =>
      by_cases hsame : s.key = r.key
      · by_cases hkey : r.key = key <;> simp [put, hsame, hkey]
      · rw [put, if_neg hsame]
        by_cases hs : s.key = key
        · have hr : r.key ≠ key := fun hr => hsame (hs.trans hr.symm)
          simp [hs, hr]
        · simpa [hs] using ih

theorem find?_insert (p : Profile) (r : Rule) (key : String) :
    (p.insert r).find? key = if r.key = key then some r else p.find? key :=
  find?_put r p.rules key

/-- Of the rules that were inserted the last one with a key is found. -/
theorem find?_foldl_insert (p : Profile) (rules : List Rule) (key : String) :
    (rules.foldl Profile.insert p).find? key =
      (rules.reverse.find? (·.key == key)).or (p.find? key) := by
  induction rules generalizing p with
  | nil => rfl
  | cons r rest ih =>
      rw [List.foldl_cons, ih, find?_insert, List.reverse_cons, List.find?_append, Option.or_assoc]
      by_cases hkey : r.key = key <;> simp [hkey]

/-- The profile with these rules, inserted one after another. -/
def made (language : String) (rules : List Rule) : Profile :=
  rules.foldl Profile.insert (.empty language)

theorem language_foldl_insert (p : Profile) (rules : List Rule) :
    (rules.foldl Profile.insert p).language = p.language := by
  induction rules generalizing p with
  | nil => rfl
  | cons r rest ih => exact ih (p.insert r)

theorem find?_made_eq_some_iff {language : String} {key : String} :
    (made language rules).find? key = some r ↔ IsLast Rule.key rules key r := by
  rw [made, find?_foldl_insert, isLast_iff_find?]
  exact iff_of_eq (congrArg (· = some r) Option.or_none)

theorem resolve_made_eq_some_iff {language : String} {ruleId : String} :
    (made language rules).resolve ruleId = some r ↔
      IsLast Rule.key rules ruleId r ∧ r.enabled = true := by
  rw [resolve, Option.filter_eq_some_iff, find?_made_eq_some_iff]

theorem put_of_not_mem (h : r.key ∉ rules.map (·.key)) : put r rules = rules ++ [r] := by
  induction rules with
  | nil => rfl
  | cons s rest ih =>
      rw [List.map_cons, List.mem_cons, not_or] at h
      rw [put, if_neg (Ne.symm h.1), ih h.2, List.cons_append]

/-- Rules with different keys stay as they are listed. -/
theorem rules_made {language : String} (h : (rules.map (·.key)).Nodup) :
    (made language rules).rules = rules := by
  induction rules using List.reverseRecOn with
  | nil => rfl
  | append_singleton before r ih =>
      obtain ⟨hnew, hkeys⟩ := nodup_keys_concat.mp h
      have hput : put r (made language before).rules = before ++ [r] := by
        rw [ih hkeys, put_of_not_mem hnew]
      rw [made, List.foldl_append]
      exact hput

theorem insertAll_append (p : Profile) (before rest : List Rule) :
    p.insertAll (before ++ rest) = (p.insertAll before).bind (·.insertAll rest) := by
  induction before generalizing p with
  | nil => rfl
  | cons r before ih =>
      rw [List.cons_append, insertAll, insertAll]
      split
      · rfl
      · split
        · rfl
        · exact ih _

theorem isSome_find?_made_iff {language key : String} :
    ((made language rules).find? key).isSome = true ↔ key ∈ rules.map (·.key) := by
  rw [made, find?_foldl_insert, Option.isSome_or, Bool.or_eq_true, List.find?_isSome]
  have hnone : (empty language).find? key = none := rfl
  simp [hnone]

section Loading

variable {language : String} {before after : List Rule} {e : Profile.Error}

/-- An unfit rule ends the loading. -/
theorem insertAll_made_of_unfit (h : Unfit before r e) :
    (made language before).insertAll (r :: after) = .error e := by
  rw [insertAll]
  cases h with
  | blank h => exact if_pos (List.all_eq_true.mpr h)
  | duplicate hc hplain h =>
      have hblank : ¬ Text.isBlankText r.key.toList = true := by
        intro hblank
        rw [List.all_eq_true.mp hblank _ hc] at hplain
        cases hplain
      rw [if_neg hblank, if_pos (isSome_find?_made_iff.mpr h)]

theorem insertAll_made_of_fit (h : ∀ e, ¬ Unfit before r e) :
    (made language before).insertAll [r] = .ok (made language (before ++ [r])) := by
  have hfit := not_or.mp (mt exists_unfit_iff.mpr (not_exists.mpr h))
  have hblank : ¬ Text.isBlankText r.key.toList = true :=
    fun hblank => hfit.1 (List.all_eq_true.mp hblank)
  rw [insertAll, if_neg hblank, if_neg (mt isSome_find?_made_iff.mp hfit.2), made, made,
    List.foldl_append]
  rfl

/-- A list without an unfit rule is loaded. -/
theorem insertAll_of_allFit (h : AllFit rules) :
    (empty language).insertAll rules = .ok (made language rules) := by
  induction rules using List.reverseRecOn with
  | nil => rfl
  | append_singleton before r ih =>
      obtain ⟨hbefore, hlast⟩ := allFit_concat.mp h
      rw [insertAll_append, ih hbefore]
      exact insertAll_made_of_fit hlast

theorem insertAll_of_unfit (hbefore : AllFit before) (h : Unfit before r e) :
    (empty language).insertAll (before ++ r :: after) = .error e := by
  rw [insertAll_append, insertAll_of_allFit hbefore]
  exact insertAll_made_of_unfit h

/-- The error is that of the first unfit rule. -/
theorem insertAll_eq_error_iff : (empty language).insertAll rules = .error e ↔
    ∃ before r after, rules = before ++ r :: after ∧ AllFit before ∧ Unfit before r e := by
  constructor
  · intro h
    by_cases hrules : AllFit rules
    · rw [insertAll_of_allFit hrules] at h
      cases h
    · obtain ⟨before, r, after, first, rfl, hbefore, hfirst⟩ := exists_first_of_not_allFit hrules
      rw [insertAll_of_unfit hbefore hfirst] at h
      obtain rfl := Except.error.inj h
      exact ⟨before, r, after, rfl, hbefore, hfirst⟩
  · rintro ⟨before, r, after, rfl, hbefore, h⟩
    exact insertAll_of_unfit hbefore h

theorem not_allFit_iff : ¬ AllFit rules ↔
    ∃ before r after, rules = before ++ r :: after ∧
      ((∀ c ∈ r.key.toList, Text.isBlank c = true) ∨ r.key ∈ before.map (·.key)) := by
  simp only [AllFit, ← exists_unfit_iff]
  push Not
  rfl

end Loading

/-- The language and the rules that a profile document lists. -/
def listed (text : String) : Except Json.Fault (String × List Rule) :=
  (Json.Document.decode (record.read .text {}) text).map fun parts =>
    (parts.language.getD "", parts.rules.getD [])

/-- A profile that holds the listed rules. -/
structure Holds (language : String) (rules : List Rule) (p : Profile) : Prop where
  language_eq : p.language = language
  size_eq : p.size = rules.length
  /-- Only the very key of an enabled rule leads to the rule. -/
  resolve_iff : ∀ ruleId r, p.resolve ruleId = some r ↔
    r ∈ rules ∧ r.key = ruleId ∧ r.enabled = true
  /-- A finding takes severity and debt of its rule, also the lack of a debt, and nothing else. -/
  annotate_iff : ∀ i j : Issue, p.annotate i = some j ↔
    ∃ r, p.resolve i.ruleId = some r ∧ j = { i with severity := some r.severity, debt := r.debt }
  /-- Rules that are inserted afterwards take the place of those with their key. -/
  resolve_insert_iff : ∀ more ruleId r, (more.foldl Profile.insert p).resolve ruleId = some r ↔
    IsLast Rule.key (rules ++ more) ruleId r ∧ r.enabled = true

theorem holds_made {language : String} (h : AllFit rules) :
    Holds language rules (made language rules) where
  language_eq := language_foldl_insert _ _
  size_eq := congrArg List.length (rules_made (allFit_iff.mp h).1)
  resolve_iff := by
    intro ruleId r
    rw [resolve_made_eq_some_iff, isLast_iff_mem (allFit_iff.mp h).1, and_assoc]
  annotate_iff := by
    intro i j
    rw [annotate, Option.map_eq_some_iff]
    exact exists_congr fun r => and_congr_right fun _ => eq_comm
  resolve_insert_iff := by
    intro more ruleId r
    rw [made, ← List.foldl_append]
    exact resolve_made_eq_some_iff

/-- What comes of a document that lists these rules. -/
structure Loaded (language : String) (rules : List Rule)
    (result : Except Profile.Error Profile) : Prop where
  fails_iff : (∃ e, result = .error e) ↔
    ∃ before r after, rules = before ++ r :: after ∧
      ((∀ c ∈ r.key.toList, Text.isBlank c = true) ∨ r.key ∈ before.map (·.key))
  error_iff : ∀ e, result = .error e ↔
    ∃ before r after, rules = before ++ r :: after ∧ AllFit before ∧ Unfit before r e
  holds : AllFit rules → ∃ p, result = .ok p ∧ Holds language rules p

/-- A profile document that can be read is refused for its first unfit rule, if it has one, and
makes a profile of the listed rules otherwise. -/
theorem ofJson_listed {text language : String} {rules : List Rule}
    (h : listed text = .ok (language, rules)) : Loaded language rules (ofJson text) := by
  obtain ⟨parts, hparts, hlisted⟩ := Fields.map_eq_ok h
  obtain ⟨rfl, rfl⟩ := Prod.mk.inj hlisted
  have hload : ofJson text =
      (empty (parts.language.getD "")).insertAll (parts.rules.getD []) := by
    rw [ofJson, hparts]
  rw [hload]
  constructor
  case fails_iff =>
      rw [← not_allFit_iff]
      constructor
      · rintro ⟨e, he⟩ hrules
        rw [insertAll_of_allFit hrules] at he
        cases he
      · intro hrules
        obtain ⟨before, r, after, e, heq, hbefore, he⟩ := exists_first_of_not_allFit hrules
        exact ⟨e, insertAll_eq_error_iff.mpr ⟨before, r, after, heq, hbefore, he⟩⟩
  case error_iff =>
      intro e
      exact insertAll_eq_error_iff
  case holds =>
      intro hrules
      exact ⟨_, insertAll_of_allFit hrules, holds_made hrules⟩

end Inserting

/-- Keys that differ in a letter's case and in a blank at the end, and then the first one again in
front of a blank one. -/
def repeatedText : String :=
  "\x7b \"language\": \"c++\", \"rules\": [\x7b \"key\": \"rats.\" \x7d,
    \x7b \"key\": \"Rats.\", \"severity\": \"minor\", \"debt\": 0.5 \x7d,
    \x7b \"key\": \"rats. \", \"enabled\": false \x7d,
    \x7b \"key\": \"rats.\" \x7d, \x7b \"key\": \" \" \x7d] \x7d"

/-- The rules of that text up to the one that comes again. -/
def distinctRules : List Rule :=
  [⟨"rats.", .major, none, true⟩, ⟨"Rats.", .minor, some ⟨0x3FE0000000000000, by decide⟩, true⟩,
    ⟨"rats. ", .major, none, false⟩]

def repeatedRules : List Rule :=
  distinctRules ++ [⟨"rats.", .major, none, true⟩, ⟨" ", .major, none, true⟩]

theorem ofJson_listed_repeated :
    listed repeatedText = .ok ("c++", repeatedRules) ∧
      Loaded "c++" repeatedRules (ofJson repeatedText) ∧
      ofJson repeatedText = .error (.duplicateKey "rats.") := by
  have hlisted : listed repeatedText = .ok ("c++", repeatedRules) :=
    Fields.eq_ok_of_toOption (by decide +kernel)
  have hloaded := ofJson_listed hlisted
  refine ⟨hlisted, hloaded, (hloaded.error_iff _).mpr ?_⟩
  have hletter : ∀ r ∈ distinctRules, 'a' ∈ r.key.toList := by decide
  have hfit : AllFit distinctRules :=
    allFit_iff.mpr ⟨by decide, fun r hr => ⟨'a', hletter r hr, rfl⟩⟩
  exact ⟨distinctRules, _, _, rfl, hfit, .duplicate (c := 'r') (by decide) (by decide) (by decide)⟩

end LintGate.Proofs.ListedRules
