import LintGate.Proofs.DocumentMembers
import LintGate.Proofs.PrintedJson

/-!
Where the numbers of a document come from. A number that a path of names leads to is written in the
text as the numeral of a member that has the last one of these names.
-/

namespace LintGate.Proofs.WrittenNumbers

open LintGate.Json
open LintGate.Proofs.JsonTokens
open LintGate.Proofs.PrintedJson
open LintGate.Proofs.DocumentMembers

variable {cs rest : List Char}

section Suffixes

theorem suffix_of_digitRun? {run : List Char} (h : digitRun? cs = some (run, rest)) :
    rest <:+ cs := by
  rw [digitRun?] at h
  split at h
  · cases h
  · obtain ⟨-, rfl⟩ := Prod.mk.inj (Option.some.inj h)
    exact List.dropWhile_suffix _

theorem suffix_of_map_digitRun? {α : Type} (f : List Char → α) {a : α}
    (h : ((digitRun? cs).map fun (run, rest) => (f run, rest)) = some (a, rest)) : rest <:+ cs := by
  obtain ⟨⟨run, after⟩, hrun, heq⟩ := Option.map_eq_some_iff.mp h
  obtain ⟨-, rfl⟩ := Prod.mk.inj heq
  exact suffix_of_digitRun? hrun

theorem suffix_of_fractionPart? {fraction : Option (List Char)}
    (h : fractionPart? cs = some (fraction, rest)) : rest <:+ cs := by
  unfold fractionPart? at h
  split at h
  · exact (suffix_of_map_digitRun? some h).trans (List.suffix_cons _ _)
  · obtain ⟨-, rfl⟩ := Prod.mk.inj (Option.some.inj h)
    exact List.suffix_rfl

theorem suffix_of_signedPower? {power : Option Int} (h : signedPower? cs = some (power, rest)) :
    rest <:+ cs := by
  unfold signedPower? at h
  split at h
  · exact (suffix_of_map_digitRun? (fun run => some (-(Text.ofDigits run : Int))) h).trans
      (List.suffix_cons _ _)
  · exact (suffix_of_map_digitRun? (fun run => some (Text.ofDigits run : Int)) h).trans
      (List.suffix_cons _ _)
  · exact suffix_of_map_digitRun? (fun run => some (Text.ofDigits run : Int)) h

theorem suffix_of_powerPart? {power : Option Int} (h : powerPart? cs = some (power, rest)) :
    rest <:+ cs := by
  unfold powerPart? at h
  split at h
  · exact (suffix_of_signedPower? h).trans (List.suffix_cons _ _)
  · exact (suffix_of_signedPower? h).trans (List.suffix_cons _ _)
  · obtain ⟨-, rfl⟩ := Prod.mk.inj (Option.some.inj h)
    exact List.suffix_rfl

theorem suffix_signOf (cs : List Char) : (signOf cs).2 <:+ cs := by
  unfold signOf
  split
  · exact List.suffix_cons _ _
  · exact List.suffix_rfl

theorem suffix_of_numeral? {n : Numeral} (h : numeral? cs = some (n, rest)) : rest <:+ cs := by
  rw [numeral?_eq] at h
  obtain ⟨⟨whole, afterWhole⟩, hwhole, h⟩ := Option.bind_eq_some_iff.mp h
  obtain ⟨⟨fraction, afterFraction⟩, hfraction, h⟩ := Option.bind_eq_some_iff.mp h
  obtain ⟨⟨power, afterPower⟩, hpower, h⟩ := Option.bind_eq_some_iff.mp h
  obtain ⟨-, rfl⟩ := Prod.mk.inj (Option.some.inj h)
  have hrun := suffix_of_digitRun? (Option.filter_eq_some_iff.mp hwhole).1
  have hafter := (suffix_of_powerPart? hpower).trans (suffix_of_fractionPart? hfraction)
  exact (hafter.trans hrun).trans (suffix_signOf cs)

theorem suffix_of_stringParts? {parts : List StringPart}
    (h : stringParts? cs = some (parts, rest)) : rest <:+ cs := by
  fun_induction stringParts? cs generalizing parts with
  | case1 => cases h
  | case2 tail =>
      obtain ⟨-, rfl⟩ := Prod.mk.inj (Option.some.inj h)
      exact List.suffix_cons _ _
  | case3 a b c d tail ih =>
      obtain ⟨_, -, h⟩ := Option.bind_eq_some_iff.mp h
      obtain ⟨⟨more, after⟩, hmore, h⟩ := Option.bind_eq_some_iff.mp h
      obtain ⟨-, rfl⟩ := Prod.mk.inj (Option.some.inj h)
      exact (ih hmore).trans (List.suffix_append ['\\', 'u', a, b, c, d] tail)
  | case4 c tail _ ih =>
      obtain ⟨_, -, h⟩ := Option.bind_eq_some_iff.mp h
      obtain ⟨⟨more, after⟩, hmore, h⟩ := Option.bind_eq_some_iff.mp h
      obtain ⟨-, rfl⟩ := Prod.mk.inj (Option.some.inj h)
      exact (ih hmore).trans (List.suffix_append ['\\', c] tail)
  | case5 => cases h
  | case6 c tail _ _ _ _ ih =>
      obtain ⟨⟨more, after⟩, hmore, h⟩ := Option.bind_eq_some_iff.mp h
      obtain ⟨-, rfl⟩ := Prod.mk.inj (Option.some.inj h)
      exact (ih hmore).trans (List.suffix_cons _ _)

theorem suffix_of_string? {s : Option String} (h : string? cs = some (s, rest)) : rest <:+ cs := by
  obtain ⟨⟨parts, after⟩, hparts, heq⟩ := Option.map_eq_some_iff.mp h
  obtain ⟨-, rfl⟩ := Prod.mk.inj heq
  exact suffix_of_stringParts? hparts

/-- What stands behind the first character of the next token. -/
theorem suffix_of_skipSpace {c : Char} (h : skipSpace cs = c :: rest) : rest <:+ cs :=
  (List.suffix_cons c rest).trans (h ▸ List.dropWhile_suffix _)

end Suffixes

/-- The text has a member with the name whose value is the numeral. -/
def Writes (cs : List Char) (name : String) (n : Numeral) : Prop :=
  ∃ quoted after value rest, '"' :: quoted <:+ cs ∧ string? quoted = some (some name, after) ∧
    skipSpace after = ':' :: value ∧ numeral? (skipSpace value) = some (n, rest)

theorem Writes.mono {more : List Char} {name : String} {n : Numeral} (h : Writes cs name n)
    (hmore : cs <:+ more) : Writes more name n := by
  obtain ⟨quoted, after, value, rest, hquoted, hmember⟩ := h
  exact ⟨quoted, after, value, rest, hquoted.trans hmore, hmember⟩

section Reading

variable {real : Numeral → Option Double}

/-- Every number below a name in the outline is the numeral of a member of the text. -/
def Sourced (real : Numeral → Option Double) (cs : List Char) (o : Outline) : Prop :=
  ∀ path name number, outlineAt? (path ++ [name]) o = some (.number number) →
    ∃ n, Writes cs name n ∧ number = Number.ofNumeral? real n

theorem Sourced.mono {more : List Char} {o : Outline} (h : Sourced real cs o)
    (hmore : cs <:+ more) : Sourced real more o := by
  intro path name number hfound
  obtain ⟨n, hn, hnumber⟩ := h path name number hfound
  exact ⟨n, hn.mono hmore, hnumber⟩

/-- No name leads anywhere in an outline that is no object. -/
theorem sourced_of_outlineAt?_eq_none {o : Outline} (h : ∀ name, outlineAt? [name] o = none) :
    Sourced real cs o := by
  intro path name number hfound
  cases path with
  | nil =>
      rw [List.nil_append, h] at hfound
      cases hfound
  | cons first path =>
      rw [List.cons_append, outlineAt?_cons, h] at hfound
      cases hfound

theorem sourced_closed : Sourced real cs (.object .closed) :=
  sourced_of_outlineAt?_eq_none fun _ => rfl

theorem sourced_broken : Sourced real cs (.object .broken) :=
  sourced_of_outlineAt?_eq_none fun _ => rfl

/-- The numbers below a member are those below its value, and its value if that is a number. -/
theorem Sourced.member {key : Option String} {value : Outline} {ms : Members}
    (hnumber : ∀ name number, key = some name → value = .number number →
      ∃ n, Writes cs name n ∧ number = Number.ofNumeral? real n)
    (hvalue : Sourced real cs value) (hms : Sourced real cs (.object ms)) :
    Sourced real cs (.object (.member key value ms)) := by
  have hsame (first : String) (found : Outline)
      (h : outlineAt? [first] (.object (.member key value ms)) = some found) :
      outlineAt? [first] (.object ms) = some found ∨ key = some first ∧ value = found := by
    simp only [outlineAt?, lastMember?, Option.bind_fun_some, Option.or_eq_some_iff] at h ⊢
    rcases h with hlater | ⟨-, hlast⟩
    · exact .inl hlater
    · split at hlast
      · rename_i hkey
        exact .inr ⟨hkey, Option.some.inj hlast⟩
      · cases hlast
  intro path name number hfound
  cases path with
  | nil =>
      rcases hsame name _ hfound with hlater | ⟨hkey, hvalue⟩
      · exact hms [] name number hlater
      · exact hnumber name number hkey hvalue
  | cons first path =>
      rw [List.cons_append, outlineAt?_cons] at hfound
      obtain ⟨found, hfirst, hfound⟩ := Option.bind_eq_some_iff.mp hfound
      rcases hsame first found hfirst with hlater | ⟨-, rfl⟩
      · refine hms (first :: path) name number ?_
        rw [List.cons_append, outlineAt?_cons, hlater]
        exact hfound
      · exact hvalue path name number hfound

/-- What the reader finds at the start of a text: an outline and the end of the text behind it. A
number is the numeral at the start, and the numbers below the outline are in the text. -/
structure FoundIn (real : Numeral → Option Double) (cs : List Char) (o : Outline)
    (rest : List Char) : Prop where
  suffix : rest <:+ cs
  number (number : Option Number) (h : o = .number number) :
    ∃ n after, numeral? (skipSpace cs) = some (n, after) ∧ number = Number.ofNumeral? real n
  below : Sourced real cs o

theorem foundIn_leaf {o : Outline} (hrest : rest <:+ cs) (hnumber : ∀ number, o ≠ .number number)
    (hnone : ∀ name, outlineAt? [name] o = none) : FoundIn real cs o rest :=
  ⟨hrest, fun number h => absurd h (hnumber number), sourced_of_outlineAt?_eq_none hnone⟩

theorem foundIn_object {ms : Members} (hrest : rest <:+ cs)
    (hms : Sourced real cs (.object ms)) : FoundIn real cs (.object ms) rest :=
  ⟨hrest, by simp, hms⟩

theorem foundIn_broken : FoundIn real cs .broken [] :=
  foundIn_leaf List.nil_suffix (by simp) fun _ => rfl

def ReadsValues (real : Numeral → Option Double) (fuel : Nat) : Prop :=
  ∀ cs, FoundIn real cs (readValue real fuel cs).1 (readValue real fuel cs).2

def ReadsItems (real : Numeral → Option Double) (fuel : Nat) : Prop :=
  ∀ cs, (readItems real fuel cs).2 <:+ cs

def ReadsMembers (real : Numeral → Option Double) (fuel : Nat) : Prop :=
  ∀ cs, (readMembers real fuel cs).2 <:+ cs ∧
    Sourced real cs (.object (readMembers real fuel cs).1)

theorem readsValues_succ {fuel : Nat} (hitems : ReadsItems real fuel)
    (hmembers : ReadsMembers real fuel) : ReadsValues real (fuel + 1) := by
  intro cs
  have hspace : skipSpace cs <:+ cs := List.dropWhile_suffix _
  rw [readValue]
  split
  case h_1 tail heq =>
      have htail : tail <:+ skipSpace cs := heq ▸ List.suffix_append ['n', 'u', 'l', 'l'] tail
      exact foundIn_leaf (htail.trans hspace) (by simp) fun _ => rfl
  case h_2 tail heq =>
      have htail : tail <:+ skipSpace cs := heq ▸ List.suffix_append ['t', 'r', 'u', 'e'] tail
      exact foundIn_leaf (htail.trans hspace) (by simp) fun _ => rfl
  case h_3 tail heq =>
      have htail : tail <:+ skipSpace cs :=
        heq ▸ List.suffix_append ['f', 'a', 'l', 's', 'e'] tail
      exact foundIn_leaf (htail.trans hspace) (by simp) fun _ => rfl
  case h_4 tail heq =>
      split
      · rename_i hstring
        have hafter := (suffix_of_string? hstring).trans (suffix_of_skipSpace heq)
        exact foundIn_leaf hafter (by simp) fun _ => rfl
      · exact foundIn_broken
  case h_5 tail heq =>
      have htail := suffix_of_skipSpace heq
      split
      · rename_i hclosed
        exact foundIn_leaf ((suffix_of_skipSpace hclosed).trans htail) (by simp) fun _ => rfl
      · have hafter := (hitems (skipSpace tail)).trans (List.dropWhile_suffix _)
        exact foundIn_leaf (hafter.trans htail) (by simp) fun _ => rfl
  case h_6 tail heq =>
      have htail := suffix_of_skipSpace heq
      split
      · rename_i hclosed
        exact foundIn_object ((suffix_of_skipSpace hclosed).trans htail) sourced_closed
      · obtain ⟨hafter, hms⟩ := hmembers (skipSpace tail)
        have hstart : skipSpace tail <:+ cs := (List.dropWhile_suffix _).trans htail
        exact foundIn_object (hafter.trans hstart) (hms.mono hstart)
  case h_7 =>
      split
      · rename_i n after hnumeral
        refine ⟨(suffix_of_numeral? hnumeral).trans hspace, ?_, ?_⟩
        · rintro _ ⟨⟩
          exact ⟨n, after, hnumeral, rfl⟩
        · exact sourced_of_outlineAt?_eq_none fun _ => rfl
      · exact foundIn_broken

theorem readsItems_succ {fuel : Nat} (hvalues : ReadsValues real fuel)
    (hitems : ReadsItems real fuel) : ReadsItems real (fuel + 1) := by
  intro cs
  have hrest := (hvalues cs).suffix
  rw [readItems]
  dsimp only
  split
  · rename_i heq
    exact (suffix_of_skipSpace heq).trans hrest
  · rename_i tail heq
    exact ((hitems tail).trans (suffix_of_skipSpace heq)).trans hrest
  · exact List.nil_suffix

theorem readsMembers_succ {fuel : Nat} (hvalues : ReadsValues real fuel)
    (hmembers : ReadsMembers real fuel) : ReadsMembers real (fuel + 1) := by
  intro cs
  rw [readMembers]
  split
  case h_2 => exact ⟨List.nil_suffix, sourced_broken⟩
  rename_i quoted hquote
  split
  · exact ⟨List.nil_suffix, sourced_broken⟩
  rename_i key after hkey
  have hquoted : '"' :: quoted <:+ cs := hquote ▸ List.dropWhile_suffix _
  have hafter : after <:+ cs :=
    (suffix_of_string? hkey).trans ((List.suffix_cons _ _).trans hquoted)
  split
  case h_2 =>
    exact ⟨List.nil_suffix,
      .member (by simp) (sourced_of_outlineAt?_eq_none fun _ => rfl) sourced_broken⟩
  rename_i value hcolon
  have hvalue := (suffix_of_skipSpace hcolon).trans hafter
  have hfound := hvalues value
  have hmember (ms : Members) (hms : Sourced real cs (.object ms)) :
      Sourced real cs (.object (.member key (readValue real fuel value).1 ms)) := by
    refine .member ?_ (hfound.below.mono hvalue) hms
    intro name number hname hnumber
    obtain ⟨n, rest, hnumeral, heq⟩ := hfound.number number hnumber
    subst hname
    exact ⟨n, ⟨quoted, after, value, rest, hquoted, hkey, hcolon, hnumeral⟩, heq⟩
  have hrest := hfound.suffix.trans hvalue
  dsimp only
  split
  · rename_i hclosed
    exact ⟨(suffix_of_skipSpace hclosed).trans hrest, hmember _ sourced_closed⟩
  · rename_i tail hcomma
    have htail := (suffix_of_skipSpace hcomma).trans hrest
    obtain ⟨hend, hmore⟩ := hmembers tail
    exact ⟨hend.trans htail, hmember _ (hmore.mono htail)⟩
  · exact ⟨List.nil_suffix, hmember _ sourced_broken⟩

theorem reads (real : Numeral → Option Double) (fuel : Nat) :
    ReadsValues real fuel ∧ ReadsItems real fuel ∧ ReadsMembers real fuel := by
  induction fuel with
  | zero =>
      refine ⟨fun cs => ?_, fun cs => ?_, fun cs => ?_⟩
      · rw [readValue]
        exact foundIn_broken
      · rw [readItems]
        exact List.nil_suffix
      · rw [readMembers]
        exact ⟨List.nil_suffix, sourced_broken⟩
  | succ fuel ih =>
      obtain ⟨hvalues, hitems, hmembers⟩ := ih
      exact ⟨readsValues_succ hitems hmembers, readsItems_succ hvalues hitems,
        readsMembers_succ hvalues hmembers⟩

end Reading

theorem eq_number_of_toValue? {o : Outline} {room : Nat} {number : Number}
    (h : o.toValue? room = some (.number number)) : o = .number (some number) := by
  cases o with
  | broken => cases h
  | null => cases h
  | bool b => cases h
  | number found =>
      obtain ⟨number, rfl, heq⟩ := Option.map_eq_some_iff.mp h
      rw [Value.number.inj heq]
  | string s =>
      obtain ⟨_, -, heq⟩ := Option.map_eq_some_iff.mp h
      cases heq
  | array items =>
      rw [Outline.toValue?] at h
      split at h
      · cases h
      · obtain ⟨_, -, heq⟩ := Option.map_eq_some_iff.mp h
        cases heq
  | object members =>
      rw [Outline.toValue?] at h
      split at h
      · cases h
      · obtain ⟨_, -, heq⟩ := Option.map_eq_some_iff.mp h
        cases heq

/-- A number that a path of names leads to is written in the text. -/
theorem exists_writes {text : String} {v : Value} (h : Value.read? text = some v)
    {path : List String} {name : String} {number : Number}
    (hnumber : valueAt? (path ++ [name]) v = some (.number number)) :
    ∃ n, Writes text.toList name n ∧ Number.ofNumeral? Numeral.byScaling? n = some number := by
  have hplace := valueAt?_toValue? (toValue?_of_read? h) (path ++ [name])
  rw [hnumber] at hplace
  obtain ⟨o, ho, hvalue⟩ := Option.map_eq_some_iff.mp hplace
  obtain rfl := eq_number_of_toValue? hvalue
  have hbelow : Sourced Numeral.byScaling? text.toList (Document.read text).root :=
    ((reads Numeral.byScaling? (2 * text.toList.length + 2)).1 text.toList).below
  obtain ⟨n, hn, heq⟩ := hbelow path name (some number) ho
  exact ⟨n, hn, heq.symm⟩

end LintGate.Proofs.WrittenNumbers
