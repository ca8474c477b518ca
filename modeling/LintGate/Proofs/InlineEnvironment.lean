import LintGate.Linter.Environment
import LintGate.Proofs.Blanks
import LintGate.Proofs.LastItem
import LintGate.Proofs.SortedEntries
import Mathlib.Data.List.Sort

/-!
Variables that are written as one text. The text is read as the entries that were written, whatever
blanks are put around them and whatever else stands between its semicolons, and of the entries with
one key the last one counts.
-/

namespace LintGate.Proofs.InlineEnvironment

open LintGate.Text
open LintGate.Proofs.Blanks
open LintGate.Proofs.LastItem
open LintGate.Proofs.SortedEntries

/-- A key that is read as it is written. -/
structure IsKey (key : String) : Prop where
  ne : key ≠ ""
  trimmed : trim key.toList = key.toList
  noSemicolon : ';' ∉ key.toList
  noEquals : '=' ∉ key.toList

/-- A value that is read as it is written. It can have equals signs, and blanks in front. -/
structure IsValue (value : String) : Prop where
  trimmed : trimEnd value.toList = value.toList
  noSemicolon : ';' ∉ value.toList

/-- What stands between two semicolons and is no entry. -/
inductive Malformed : List Char → Prop
  | blank {piece : List Char} (h : ∀ c ∈ piece, isBlank c = true) : Malformed piece
  | plain {piece : List Char} (h : '=' ∉ piece) : Malformed piece
  | keyless {key : List Char} (h : ∀ c ∈ key, isBlank c = true) (value : List Char) :
      Malformed (key ++ '=' :: value)

/-- An entry as it is written, with blanks before it, behind its key and after it. -/
def written (before : List Char) (key : String) (between : List Char) (value : String)
    (after : List Char) : List Char :=
  before ++ (key.toList ++ between ++ '=' :: value.toList) ++ after

/-- The pieces between semicolons write these entries, in their order. -/
inductive Writes : List (List Char) → List (String × String) → Prop
  | nil : Writes [] []
  | malformed {piece : List Char} {pieces : List (List Char)} {entries : List (String × String)}
      (hpiece : Malformed piece) (hsemicolon : ';' ∉ piece) (h : Writes pieces entries) :
      Writes (piece :: pieces) entries
  | entry {before between after : List Char} {key value : String} {pieces : List (List Char)}
      {entries : List (String × String)} (hkey : IsKey key) (hvalue : IsValue value)
      (hbefore : ∀ c ∈ before, isBlank c = true) (hbetween : ∀ c ∈ between, isBlank c = true)
      (hafter : ∀ c ∈ after, isBlank c = true) (h : Writes pieces entries) :
      Writes (written before key between value after :: pieces) ((key, value) :: entries)

/-- The text with these pieces between its semicolons. -/
def textOf (pieces : List (List Char)) : String :=
  String.ofList ([';'].intercalate pieces)

section Entry

variable {piece before between after : List Char} {key value : String}

theorem not_mem_of_blank {c : Char} (hc : isBlank c = false) (h : ∀ d ∈ piece, isBlank d = true) :
    c ∉ piece := by
  intro hmem
  rw [h c hmem] at hc
  cases hc

theorem entry?_of_plain (h : '=' ∉ piece) : Environment.entry? (trim piece) = none := by
  have hcut : cut '=' (trim piece) = none :=
    cut_eq_none_iff.mpr fun hmem => h (mem_of_mem_trim hmem)
  rw [Environment.entry?, hcut]
  rfl

theorem entry?_malformed (h : Malformed piece) : Environment.entry? (trim piece) = none := by
  cases h with
  | blank h => exact entry?_of_plain (not_mem_of_blank rfl h)
  | plain h => exact entry?_of_plain h
  | @keyless key h value =>
      have htrim : trim (key ++ '=' :: value) = '=' :: trimEnd value := by
        rw [← List.append_nil (key ++ _), trim_surrounded h (List.forall_mem_nil _), trim_cons rfl]
      have hcut : cut '=' ('=' :: trimEnd value) = some ([], trimEnd value) :=
        cut_eq_some_iff.mpr ⟨rfl, List.not_mem_nil⟩
      rw [htrim, Environment.entry?, hcut]
      rfl

/-- A key starts with a character that is not blank. -/
theorem IsKey.exists_cons (h : IsKey key) :
    ∃ c rest, key.toList = c :: rest ∧ isBlank c = false := by
  obtain ⟨c, rest, hkey⟩ := List.exists_cons_of_ne_nil (mt String.toList_eq_nil_iff.mp h.ne)
  refine ⟨c, rest, hkey, Bool.eq_false_iff.mpr fun hc => ?_⟩
  have htrimmed := h.trimmed
  rw [hkey, trim_cons_of_blank hc] at htrimmed
  have hlength := trim_length_le rest
  rw [htrimmed, List.length_cons] at hlength
  omega

/-- An entry is read back, the blanks around it and behind its key aside. -/
theorem entry?_written (hkey : IsKey key) (hvalue : IsValue value)
    (hbefore : ∀ c ∈ before, isBlank c = true) (hbetween : ∀ c ∈ between, isBlank c = true)
    (hafter : ∀ c ∈ after, isBlank c = true) :
    Environment.entry? (trim (written before key between value after)) = some (key, value) := by
  have htrim : trim (written before key between value after) =
      key.toList ++ between ++ '=' :: value.toList := by
    obtain ⟨c, rest, hchars, hc⟩ := hkey.exists_cons
    rw [written, trim_surrounded hbefore hafter, hchars, List.cons_append, List.cons_append,
      trim_cons hc, trimEnd_append_cons rfl, hvalue.trimmed]
  have hequals : '=' ∉ key.toList ++ between := by
    simpa [hkey.noEquals] using not_mem_of_blank rfl hbetween
  have hcut : cut '=' (key.toList ++ between ++ '=' :: value.toList) =
      some (key.toList ++ between, value.toList) := cut_eq_some_iff.mpr ⟨rfl, hequals⟩
  have hname : trim (key.toList ++ between) = key.toList := by
    have hsurrounded : trim ([] ++ key.toList ++ between) = trim key.toList :=
      trim_surrounded (List.forall_mem_nil _) hbetween
    rwa [List.nil_append, hkey.trimmed] at hsurrounded
  rw [htrim, Environment.entry?, hcut]
  simp [hname, hkey.ne]

theorem not_mem_written (hkey : IsKey key) (hvalue : IsValue value)
    (hbefore : ∀ c ∈ before, isBlank c = true) (hbetween : ∀ c ∈ between, isBlank c = true)
    (hafter : ∀ c ∈ after, isBlank c = true) :
    ';' ∉ written before key between value after := by
  have hblank : isBlank ';' = false := rfl
  simp [written, not_mem_of_blank hblank hbefore, not_mem_of_blank hblank hbetween,
    not_mem_of_blank hblank hafter, hkey.noSemicolon, hvalue.noSemicolon]

/-- Whatever stands between two semicolons is malformed or an entry. -/
theorem malformed_or_written (h : ';' ∉ piece) : Malformed piece ∨
    ∃ before key between value after, IsKey key ∧ IsValue value ∧
      (∀ c ∈ before, isBlank c = true) ∧ (∀ c ∈ between, isBlank c = true) ∧
      (∀ c ∈ after, isBlank c = true) ∧ piece = written before key between value after := by
  cases hcut : cut '=' piece with
  | none => exact .inl (.plain (cut_eq_none_iff.mp hcut))
  | some parts =>
      obtain ⟨name, rest⟩ := parts
      obtain ⟨rfl, hequals⟩ := cut_eq_some_iff.mp hcut
      obtain ⟨before, between, hname, hbefore, hbetween⟩ := exists_trim name
      obtain ⟨after, hrest, hafter⟩ := exists_trimEnd rest
      simp only [List.mem_append, List.mem_cons, not_or] at h
      by_cases hnil : trim name = []
      · have hblank : ∀ c ∈ name, isBlank c = true := by
          rw [hname, hnil, List.append_nil]
          exact List.forall_mem_append.mpr ⟨hbefore, hbetween⟩
        exact .inl (.keyless hblank rest)
      · have hkey : IsKey (String.ofList (trim name)) := by
          refine ⟨by simpa using hnil, ?_, ?_, ?_⟩ <;> rw [String.toList_ofList]
          · exact trim_trim name
          · exact fun hmem => h.1 (mem_of_mem_trim hmem)
          · exact fun hmem => hequals (mem_of_mem_trim hmem)
        have hvalue : IsValue (String.ofList (trimEnd rest)) := by
          refine ⟨?_, ?_⟩ <;> rw [String.toList_ofList]
          · exact trimEnd_trimEnd rest
          · exact fun hmem => h.2.2 (hrest ▸ List.mem_append_left after hmem)
        refine .inr ⟨before, _, between, _, after, hkey, hvalue, hbefore, hbetween, hafter, ?_⟩
        rw [written, String.toList_ofList, String.toList_ofList, ← List.append_assoc before,
          ← List.append_assoc before, ← hname, List.append_assoc, List.cons_append, ← hrest]

end Entry

section Text

variable {pieces : List (List Char)} {entries : List (String × String)}

theorem Writes.noSemicolon (h : Writes pieces entries) : ∀ piece ∈ pieces, ';' ∉ piece := by
  induction h with
  | nil => exact List.forall_mem_nil _
  | malformed _ hsemicolon _ ih => exact List.forall_mem_cons.mpr ⟨hsemicolon, ih⟩
  | entry hkey hvalue hbefore hbetween hafter _ ih =>
      exact List.forall_mem_cons.mpr ⟨not_mem_written hkey hvalue hbefore hbetween hafter, ih⟩

theorem Writes.filterMap (h : Writes pieces entries) :
    (pieces.map trim).filterMap Environment.entry? = entries := by
  induction h with
  | nil => rfl
  | malformed hpiece _ _ ih =>
      rw [List.map_cons, List.filterMap_cons_none (entry?_malformed hpiece), ih]
  | entry hkey hvalue hbefore hbetween hafter _ ih =>
      rw [List.map_cons,
        List.filterMap_cons_some (entry?_written hkey hvalue hbefore hbetween hafter), ih]

/-- The entries of a text are those that its pieces write. -/
theorem Writes.entries_textOf (h : Writes pieces entries) :
    Environment.entries (textOf pieces) = entries := by
  rw [Environment.entries, textOf, String.toList_ofList]
  cases hpieces : pieces with
  | nil =>
      subst hpieces
      cases h
      rfl
  | cons piece rest =>
      rw [← hpieces, List.splitOn_intercalate ';' h.noSemicolon (by simp [hpieces]), h.filterMap]

/-- Every text is written so. -/
theorem exists_writes (text : String) :
    ∃ pieces entries, Writes pieces entries ∧ textOf pieces = text := by
  have hwrites (pieces : List (List Char)) (h : ∀ piece ∈ pieces, ';' ∉ piece) :
      ∃ entries, Writes pieces entries := by
    induction pieces with
    | nil => exact ⟨[], .nil⟩
    | cons piece pieces ih =>
        obtain ⟨hpiece, hrest⟩ := List.forall_mem_cons.mp h
        obtain ⟨entries, hentries⟩ := ih hrest
        rcases malformed_or_written hpiece with hmalformed |
          ⟨before, key, between, value, after, hkey, hvalue, hbefore, hbetween, hafter, rfl⟩
        · exact ⟨entries, .malformed hmalformed hpiece hentries⟩
        · exact ⟨_, .entry hkey hvalue hbefore hbetween hafter hentries⟩
  obtain ⟨entries, hentries⟩ := hwrites (text.toList.splitOn ';')
    fun piece hpiece => not_mem_of_mem_splitOn hpiece
  refine ⟨_, entries, hentries, ?_⟩
  rw [textOf, List.intercalate_splitOn, String.ofList_toList]

end Text

section Dictionary

variable {entries : List (String × String)} {key value : String}

theorem isLast_iff_get? : IsLast Prod.fst entries key (key, value) ↔
    Dictionary.get? key entries.reverse = some value := by
  rw [isLast_iff_find?, Dictionary.get?, Option.map_eq_some_iff]
  constructor
  · intro h
    exact ⟨_, h, rfl⟩
  · rintro ⟨⟨name, last⟩, hfind, rfl⟩
    obtain rfl : name = key := by simpa using List.find?_some hfind
    exact hfind

theorem mem_ofEntries_iff : (key, value) ∈ Dictionary.ofEntries entries ↔
    IsLast Prod.fst entries key (key, value) := by
  rw [isLast_iff_get?, ← get?_ofEntries]
  exact ⟨get?_of_mem (sorted_ofEntries entries).nodup, mem_of_get?⟩

/-- A dictionary is made from its entries in whatever order. -/
theorem ofEntries_of_perm {d : Dictionary String} (hd : Sorted d) (h : entries.Perm d) :
    Dictionary.ofEntries entries = d := by
  have hnodup : (entries.map (·.1)).Nodup := (h.map (·.1)).nodup_iff.mpr hd.nodup
  have : Std.Irrefl fun a b : String × String => compare a.1 b.1 = .lt :=
    ⟨fun a hlt => compare_lt_ne hlt rfl⟩
  have : Std.Antisymm fun a b : String × String => compare a.1 b.1 = .lt :=
    ⟨fun a b hlt hgt => absurd rfl (compare_lt_ne (Std.TransCmp.lt_trans hlt hgt))⟩
  refine List.Pairwise.eq_of_mem_iff (sorted_ofEntries entries) hd fun ⟨key, value⟩ => ?_
  rw [mem_ofEntries_iff, isLast_iff_mem hnodup, and_iff_left rfl, h.mem_iff]

end Dictionary

/-- Every text is pieces between semicolons that write entries, and the variables are those of the
entries: each key has the value of its last one. The entries of a dictionary, written in whatever
order and with whatever malformed pieces between them, give the dictionary. -/
theorem toMap_textOf :
    (∀ text, ∃ pieces entries, Writes pieces entries ∧ textOf pieces = text) ∧
    ∀ pieces entries, Writes pieces entries →
      Sorted (Environment.inline (textOf pieces)).toMap ∧
      (∀ key value, Dictionary.get? key (Environment.inline (textOf pieces)).toMap = some value ↔
        IsLast Prod.fst entries key (key, value)) ∧
      ∀ d, Sorted d → entries.Perm d → (Environment.inline (textOf pieces)).toMap = d ∧
        (Environment.inline (textOf pieces)).toMap = (Environment.map d).toMap := by
  refine ⟨exists_writes, fun pieces entries h => ?_⟩
  have hmap : (Environment.inline (textOf pieces)).toMap = Dictionary.ofEntries entries :=
    congrArg Dictionary.ofEntries h.entries_textOf
  rw [hmap]
  refine ⟨sorted_ofEntries entries, fun key value => ?_, fun d hd hperm => ?_⟩
  · rw [get?_ofEntries, isLast_iff_get?]
  · exact ⟨ofEntries_of_perm hd hperm, ofEntries_of_perm hd hperm⟩

/-- Entries out of order, with blanks and malformed pieces between them, and then with an earlier
value of a key in front. -/
theorem toMap_textOf_shuffled :
    let pieces := [written ['\t'] "B" [' '] " 1=2" ['\n'], [], "garbage".toList, " =3".toList,
      written [] "A" [] "" [' ']]
    let entries := [("B", " 1=2"), ("A", "")]
    let d : Dictionary String := [("A", ""), ("B", " 1=2")]
    let longer := written [] "B" [] "0" [] :: pieces
    textOf longer = "B=0;\tB = 1=2\n;;garbage; =3;A= " ∧
      Writes pieces entries ∧ Writes longer (("B", "0") :: entries) ∧ Sorted d ∧
      entries.Perm d ∧ (Environment.inline (textOf pieces)).toMap = d ∧
      Dictionary.get? "B" (Environment.inline (textOf longer)).toMap = some " 1=2" := by
  intro pieces entries d longer
  have hkey (key : String) (h : key = "A" ∨ key = "B") : IsKey key := by
    rcases h with rfl | rfl <;>
      exact ⟨by decide, by decide +kernel, by decide +kernel, by decide +kernel⟩
  have hblanks {blanks : List Char} (h : blanks.all isBlank = true) :
      ∀ c ∈ blanks, isBlank c = true := List.all_eq_true.mp h
  have hA : IsValue "" := ⟨by decide +kernel, by decide +kernel⟩
  have hB : IsValue " 1=2" := ⟨by decide +kernel, by decide +kernel⟩
  have hrest : Writes [written [] "A" [] "" [' ']] [("A", "")] :=
    .entry (hkey "A" (.inl rfl)) hA (hblanks rfl) (hblanks rfl) (hblanks rfl) .nil
  have hmalformed : Writes ([] :: "garbage".toList :: " =3".toList ::
      [written [] "A" [] "" [' ']]) [("A", "")] := by
    refine .malformed (.plain (by decide)) (by decide) ?_
    refine .malformed (.plain (by decide +kernel)) (by decide +kernel) ?_
    exact .malformed (.keyless (hblanks rfl : ∀ c ∈ [' '], isBlank c = true) ['3'])
      (by decide +kernel) hrest
  have hpieces : Writes pieces entries :=
    .entry (hkey "B" (.inr rfl)) hB (hblanks rfl) (hblanks rfl) (hblanks rfl) hmalformed
  have hlonger : Writes longer (("B", "0") :: entries) :=
    .entry (hkey "B" (.inr rfl)) ⟨by decide +kernel, by decide +kernel⟩ (hblanks rfl)
      (hblanks rfl) (hblanks rfl) hpieces
  have hd : Sorted d := List.pairwise_pair.mpr (by decide +kernel)
  have hperm : entries.Perm d := .swap ..
  have hlast : IsLast Prod.fst (("B", "0") :: entries) "B" ("B", " 1=2") :=
    ⟨[("B", "0")], [("A", "")], rfl, rfl, by decide⟩
  exact ⟨by decide +kernel, hpieces, hlonger, hd, hperm,
    ((toMap_textOf.2 pieces entries hpieces).2.2 d hd hperm).1,
    ((toMap_textOf.2 longer _ hlonger).2.1 "B" " 1=2").mpr hlast⟩

end LintGate.Proofs.InlineEnvironment
