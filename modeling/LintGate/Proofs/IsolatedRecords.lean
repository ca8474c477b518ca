import LintGate.Proofs.Blanks
import LintGate.Proofs.Fields
import LintGate.Proofs.PrintedReport
import LintGate.Proofs.RuleNamespace

/-!
The records of a report, whatever tree the document is. Each record ends as a finding, as a skipped
entry, or as one of the records that are left out on purpose, and what it ends as is no matter of
the other records: a record that is rewritten leaves the readings of the others as they are.
-/

namespace LintGate.Proofs.IsolatedRecords

open LintGate.Markup
open LintGate.Text
open LintGate.Proofs.Blanks
open LintGate.Proofs.Fields
open LintGate.Proofs.PrintedReport
open LintGate.Proofs.RuleNamespace

/-- The lines hold the document with this root element. -/
def Holds (lines : List String) (root : Node) : Prop :=
  ∃ text, Report.extract? lines = some text ∧ Node.ofDocument? text = some root

theorem read_of_holds {lines : List String} {root : Node} (h : Holds lines root)
    (title record : String) (convert : Node → Reading) :
    Report.read title record convert lines =
      .concat ((root.elementsNamed record).map convert) := by
  obtain ⟨text, hextract, hroot⟩ := h
  have hne : lines.isEmpty = false := by
    rw [List.isEmpty_eq_false_iff]
    rintro rfl
    cases hextract
  rw [Report.read, if_neg (by simp [hne])]
  simp only [hextract, hroot]

/-- The issues and the skipped entries of a reading. -/
def entries (r : Reading) : Nat :=
  r.issues.length + r.skipped.length

theorem entries_append (a b : Reading) : entries (a.append b) = entries a + entries b := by
  simp only [entries, Reading.append, List.length_append]
  omega

theorem concat_cons (r : Reading) (rest : List Reading) :
    Reading.concat (r :: rest) = r.append (.concat rest) :=
  rfl

theorem concat_append (a b : List Reading) :
    Reading.concat (a ++ b) = (Reading.concat a).append (.concat b) := by
  simp [Reading.concat, Reading.append]

theorem entries_concat {α : Type} (read : α → Reading) (parts : List α) :
    entries (.concat (parts.map read)) = (parts.map fun part => entries (read part)).sum := by
  induction parts with
  | nil => rfl
  | cons part parts ih =>
      rw [List.map_cons, concat_cons, entries_append, ih, List.map_cons, List.sum_cons]

section Cppcheck

/-- Records of this check are left out. -/
def IsUnusedFunction (record : Node) : Prop :=
  record.attribute? "id" = some "unusedFunction"

instance : DecidablePred IsUnusedFunction :=
  fun record => inferInstanceAs (Decidable (record.attribute? "id" = some "unusedFunction"))

theorem entries_cppcheck (record : Node) :
    entries (Report.Cppcheck.convert record) = if IsUnusedFunction record then 0 else 1 := by
  unfold Report.Cppcheck.convert
  split
  · rename_i hnone
    rw [if_neg]
    · rfl
    · intro hunused
      rw [show record.attribute? "id" = some "unusedFunction" from hunused] at hnone
      cases hnone
  · rename_i id hid
    have hid : record.attribute? "id" = some id := (Option.filter_eq_some_iff.mp hid).1
    have hunused : IsUnusedFunction record ↔ id = Report.Cppcheck.dropped := by
      rw [IsUnusedFunction, hid, Option.some.injEq, Report.Cppcheck.dropped]
    simp only [hunused]
    split
    · rfl
    · split <;> rfl

theorem ruleId_cppcheck (record : Node) :
    ∀ i ∈ (Report.Cppcheck.convert record).issues, i.ruleId ≠ "cppcheck.unusedFunction" := by
  intro i hi hrule
  unfold Report.Cppcheck.convert at hi
  split at hi
  · cases hi
  · split at hi
    · cases hi
    · split at hi
      · cases hi
      · rename_i id _ hne _ _ _
        have hdropped : "cppcheck.unusedFunction" =
            Tool.cppcheck.ruleId Report.Cppcheck.dropped := by decide +kernel
        rw [List.mem_singleton.mp hi, hdropped] at hrule
        exact hne (ruleId_injective (t := .cppcheck) (u := .cppcheck) hrule).2

/-- Every error element is an issue, a skipped entry or of the check that is left out. -/
structure CppcheckAccounted (root : Node) (r : Reading) : Prop where
  length : r.issues.length + r.skipped.length +
      ((root.elementsNamed "error").filter (IsUnusedFunction ·)).length =
    (root.elementsNamed "error").length
  ruleId_ne : ∀ i ∈ r.issues, i.ruleId ≠ "cppcheck.unusedFunction"

theorem entries_add_unused (records : List Node) :
    entries (.concat (records.map Report.Cppcheck.convert)) +
      (records.filter (IsUnusedFunction ·)).length = records.length := by
  induction records with
  | nil => rfl
  | cons record records ih =>
      rw [List.map_cons, concat_cons, entries_append, entries_cppcheck, List.length_cons, ← ih]
      by_cases hunused : IsUnusedFunction record
      · rw [if_pos hunused, List.filter_cons_of_pos (by simpa using hunused), List.length_cons]
        omega
      · rw [if_neg hunused, List.filter_cons_of_neg (by simpa using hunused)]
        omega

theorem cppcheckAccounted_concat (root : Node) :
    CppcheckAccounted root
      (.concat ((root.elementsNamed "error").map Report.Cppcheck.convert)) where
  length := entries_add_unused _
  ruleId_ne := by
    intro i hi
    obtain ⟨_, hreading, hi⟩ := List.mem_flatMap.mp hi
    obtain ⟨record, _, rfl⟩ := List.mem_map.mp hreading
    exact ruleId_cppcheck record i hi

end Cppcheck

section Rats

/-- The first child of this name starts with a text that is not blank. -/
def HasText (name : String) (n : Node) : Prop :=
  ∃ child content rest, n.child? name = some child ∧ child.children = .text content :: rest ∧
    ∃ c ∈ content, isBlank c = false

theorem mem_content_iff {child : Node} {c : Char} :
    c ∈ child.content ↔ ∃ content rest, child.children = .text content :: rest ∧ c ∈ content := by
  unfold Node.content
  split
  · simp [Node.children]
  · rename_i hother
    constructor
    · exact nofun
    · rintro ⟨content, rest, hchildren, _⟩
      cases child with
      | element label attributes children =>
          cases hchildren
          exact absurd rfl (hother label attributes content rest)
      | text => cases hchildren
      | aside => cases hchildren

theorem hasText_iff {name : String} {n : Node} :
    HasText name n ↔ isBlankText (n.childContent name) = false := by
  have hblank : isBlankText (n.childContent name) = false ↔
      ∃ c ∈ n.childContent name, isBlank c = false := by
    simp [isBlankText]
  rw [hblank, Node.childContent]
  cases hchild : n.child? name with
  | none => simp [HasText, hchild]
  | some child =>
      simp only [mem_content_iff]
      constructor
      · rintro ⟨_, content, rest, hsame, hchildren, c, hc, hplain⟩
        obtain rfl := Option.some.inj (hchild.symm.trans hsame)
        exact ⟨c, ⟨content, rest, hchildren, hc⟩, hplain⟩
      · rintro ⟨c, ⟨content, rest, hchildren, hc⟩, hplain⟩
        exact ⟨child, content, rest, hchild, hchildren, c, hc, hplain⟩

instance (name : String) : DecidablePred (HasText name) :=
  fun _ => decidable_of_iff _ hasText_iff.symm

theorem trim_eq_nil_iff {cs : List Char} : trim cs = [] ↔ isBlankText cs = true := by
  rw [isBlankText, List.all_eq_true]
  constructor
  · intro hnil c hc
    by_contra hplain
    have hmem := mem_trim hc (Bool.eq_false_iff.mpr hplain)
    rw [hnil] at hmem
    cases hmem
  · intro hblank
    have htrim : trim (cs ++ [] ++ []) = trim [] :=
      trim_surrounded hblank (List.forall_mem_nil _)
    rwa [List.append_nil, List.append_nil] at htrim

/-- How many issues and skipped entries a file of a record makes: one for each of its lines, and one
for itself when it has no name. -/
def fileEntries (file : Node) : Nat :=
  if HasText "name" file then (file.childrenNamed "line").length else 1

/-- How many issues and skipped entries a record without a type makes. -/
def recordEntries (record : Node) : Nat :=
  ((record.childrenNamed "file").map fileEntries).sum

theorem entries_ratsLine (message name : String) (line : Node) :
    entries (Report.Rats.convertLine message name line) = 1 := by
  unfold Report.Rats.convertLine
  split <;> rfl

theorem entries_ratsFile (message : String) (file : Node) :
    entries (Report.Rats.convertFile message file) = fileEntries file := by
  unfold Report.Rats.convertFile fileEntries
  split
  · rename_i hname
    rw [if_neg]
    · rfl
    · rw [hasText_iff, trim_eq_nil_iff.mp hname]
      exact nofun
  · rename_i hname
    rw [if_pos]
    · rw [entries_concat]
      simp only [entries_ratsLine]
      rw [List.map_const', List.sum_replicate_nat, Nat.mul_one]
    · rw [hasText_iff, ← Bool.not_eq_true, ← trim_eq_nil_iff]
      exact hname

theorem entries_rats (record : Node) : entries (Report.Rats.convert record) =
    if HasText "type" record then 0 else recordEntries record := by
  unfold Report.Rats.convert
  split
  · rename_i hblank
    rw [if_neg]
    · simp only [entries_concat, entries_ratsFile, recordEntries]
    · rw [hasText_iff, hblank]
      exact nofun
  · rename_i hplain
    rw [if_pos]
    · rfl
    · rw [hasText_iff]
      exact Bool.eq_false_iff.mpr hplain

/-- Every line of every file with a name, and every file without one, of a record without a type is
an issue or a skipped entry, and nothing else is. -/
def RatsAccounted (root : Node) (r : Reading) : Prop :=
  r.issues.length + r.skipped.length =
    (((root.elementsNamed "vulnerability").filter (¬ HasText "type" ·)).map recordEntries).sum

theorem ratsAccounted_concat (root : Node) :
    RatsAccounted root
      (.concat ((root.elementsNamed "vulnerability").map Report.Rats.convert)) := by
  have hsum (records : List Node) :
      (records.map fun record => entries (Report.Rats.convert record)).sum =
        ((records.filter (¬ HasText "type" ·)).map recordEntries).sum := by
    induction records with
    | nil => rfl
    | cons record records ih =>
        rw [List.map_cons, List.sum_cons, ih, entries_rats]
        by_cases htype : HasText "type" record
        · rw [if_pos htype, List.filter_cons_of_neg (by simpa using htype), Nat.zero_add]
        · rw [if_neg htype, List.filter_cons_of_pos (by simpa using htype), List.map_cons,
            List.sum_cons]
  exact (entries_concat Report.Rats.convert _).trans (hsum _)

end Rats

/-- The reports that are documents. -/
inductive Format
  | cppcheck
  | rats

namespace Format

def tool : Format → Tool
  | .cppcheck => .cppcheck
  | .rats => .rats

/-- The name of a record. -/
def record : Format → String
  | .cppcheck => "error"
  | .rats => "vulnerability"

/-- What one record says. -/
def convert : Format → Node → Reading
  | .cppcheck => Report.Cppcheck.convert
  | .rats => Report.Rats.convert

end Format

theorem read_eq_concat {lines : List String} {root : Node} (h : Holds lines root) (format : Format)
    (settings : ToolSettings) (key : Option String) :
    (Linter.make format.tool settings key).read lines =
      .concat ((root.elementsNamed format.record).map format.convert) := by
  cases format with
  | cppcheck => exact read_of_holds h "cppcheck report" "error" Report.Cppcheck.convert
  | rats => exact read_of_holds h "rats report" "vulnerability" Report.Rats.convert

/-- An element with a gap among its children. -/
structure Frame where
  label : String
  attributes : List Attribute
  before : List Node
  after : List Node

/-- The element with this node in the gap. -/
def Frame.fill (f : Frame) (n : Node) : Node :=
  .element f.label f.attributes (f.before ++ n :: f.after)

/-- The node inside these elements, the outermost first. -/
def enclose (frames : List Frame) (n : Node) : Node :=
  frames.foldr Frame.fill n

/-- A record with no record inside. -/
structure IsLone (record : String) (n : Node) : Prop where
  isNamed : n.isNamed record = true
  none_inside : ∀ child ∈ n.children, child.elementsNamed record = []

theorem elementsNamed_lone {record : String} {n : Node} (h : IsLone record n) :
    n.elementsNamed record = [n] := by
  obtain ⟨hnamed, hinside⟩ := h
  cases n with
  | element label attributes children =>
      have hlabel : label = record := by simpa [Node.isNamed] using hnamed
      have hchildren : children.flatMap (Node.elementsNamed record) = [] :=
        List.flatMap_eq_nil_iff.mpr hinside
      rw [elementsNamed_element, if_pos hlabel, hchildren, List.append_nil]
  | text => cases hnamed
  | aside => cases hnamed

/-- Where no record encloses a node, the records before and after those in it do not depend on it.
By induction on the elements around it. -/
theorem exists_records_around {record : String} {frames : List Frame}
    (h : ∀ f ∈ frames, f.label ≠ record) : ∃ earlier later, ∀ n,
      (enclose frames n).elementsNamed record = earlier ++ n.elementsNamed record ++ later := by
  induction frames with
  | nil => exact ⟨[], [], fun n => by simp [enclose]⟩
  | cons f frames ih =>
      obtain ⟨hf, hframes⟩ := List.forall_mem_cons.mp h
      obtain ⟨earlier, later, hrecords⟩ := ih hframes
      refine ⟨f.before.flatMap (Node.elementsNamed record) ++ earlier,
        later ++ f.after.flatMap (Node.elementsNamed record), fun n => ?_⟩
      have hfill : enclose (f :: frames) n = f.fill (enclose frames n) := rfl
      rw [hfill, Frame.fill, elementsNamed_element, if_neg hf, List.nil_append,
        List.flatMap_append, List.flatMap_cons, hrecords]
      simp only [List.append_assoc]

/-- A document in which one record is written anew. No record stands inside of it or around it. -/
structure Rewriting (format : Format) where
  frames : List Frame
  old : Node
  new : Node
  frames_plain : ∀ f ∈ frames, f.label ≠ format.record
  old_isLone : IsLone format.record old
  new_isLone : IsLone format.record new

namespace Rewriting

variable {format : Format} (w : Rewriting format)

def before : Node := enclose w.frames w.old

def after : Node := enclose w.frames w.new

/-- Both documents have the same records but for the one, and their readings are those of their
records, one after another. -/
def LeavesOthers (r s : Reading) : Prop :=
  ∃ earlier later : List Node,
    w.before.elementsNamed format.record = earlier ++ w.old :: later ∧
    w.after.elementsNamed format.record = earlier ++ w.new :: later ∧
    r = (Reading.concat (earlier.map format.convert)).append
      ((format.convert w.old).append (.concat (later.map format.convert))) ∧
    s = (Reading.concat (earlier.map format.convert)).append
      ((format.convert w.new).append (.concat (later.map format.convert)))

theorem leavesOthers_read {lines others : List String} (hlines : Holds lines w.before)
    (hothers : Holds others w.after) (settings : ToolSettings) (key : Option String) :
    w.LeavesOthers ((Linter.make format.tool settings key).read lines)
      ((Linter.make format.tool settings key).read others) := by
  obtain ⟨earlier, later, haround⟩ := exists_records_around w.frames_plain
  have hrecords {n : Node} (hlone : IsLone format.record n) :
      (enclose w.frames n).elementsNamed format.record = earlier ++ n :: later := by
    rw [haround, elementsNamed_lone hlone, List.append_assoc, List.singleton_append]
  have hconcat (n : Node) : Reading.concat ((earlier ++ n :: later).map format.convert) =
      (Reading.concat (earlier.map format.convert)).append
        ((format.convert n).append (.concat (later.map format.convert))) := by
    rw [List.map_append, concat_append, List.map_cons, concat_cons]
  refine ⟨earlier, later, hrecords w.old_isLone, hrecords w.new_isLone, ?_, ?_⟩
  · rw [read_eq_concat hlines, before, hrecords w.old_isLone, hconcat]
  · rw [read_eq_concat hothers, after, hrecords w.new_isLone, hconcat]

end Rewriting

/-- Whatever document the lines hold, each of its records is accounted for, and to write one record
anew changes nothing of what the others are read as. -/
theorem records_isolated (settings : ToolSettings) (key : Option String) :
    (∀ lines root, Holds lines root →
      CppcheckAccounted root ((Linter.make .cppcheck settings key).read lines)) ∧
    (∀ lines root, Holds lines root →
      RatsAccounted root ((Linter.make .rats settings key).read lines)) ∧
    ∀ (format : Format) (w : Rewriting format) (lines others : List String),
      Holds lines w.before → Holds others w.after →
        w.LeavesOthers ((Linter.make format.tool settings key).read lines)
          ((Linter.make format.tool settings key).read others) := by
  refine ⟨?_, ?_, ?_⟩
  · intro lines root h
    have hread := read_eq_concat h .cppcheck settings key
    exact hread ▸ cppcheckAccounted_concat root
  · intro lines root h
    have hread := read_eq_concat h .rats settings key
    exact hread ▸ ratsAccounted_concat root
  · intro format w lines others hlines hothers
    exact w.leavesOthers_read hlines hothers settings key

/-- After a record with a line that is none, the record of a finding loses its id and gets other
children. -/
def rewriting : Rewriting .cppcheck where
  frames := [⟨"r", [], [.element "error" [.plain "id" "a", .plain "line" "x"] []], []⟩]
  old := .element "error" [.plain "id" "b"] [.element "location" [.plain "line" "7"] []]
  new := .element "error" [] [.text ['<'], .aside]
  frames_plain := by decide
  old_isLone := ⟨rfl, List.forall_mem_singleton.mpr rfl⟩
  new_isLone := ⟨rfl, List.forall_mem_cons.mpr ⟨rfl, List.forall_mem_singleton.mpr rfl⟩⟩

def textBefore : String :=
  "<r><error id='a' line='x'/><error id='b'><location line='7'/></error></r>"

def textAfter : String :=
  "<r><error id='a' line='x'/><error>&lt;<!----></error></r>"

/-- A record with a line that is none, and with a file that has no name. -/
def vulnerability : Node :=
  .element "vulnerability" [] [.element "file" [] [.element "name" [] [.text ['a']],
    .element "line" [] []], .element "file" [] []]

def ratsText : String :=
  "<vulnerability><file><name>a</name><line/></file><file/></vulnerability>"

set_option maxRecDepth 2000 in
theorem records_isolated_rewritten :
    (Holds [textBefore] rewriting.before ∧ Holds [textAfter] rewriting.after ∧
        Holds [ratsText] vulnerability) ∧
      rewriting.LeavesOthers
        ((Linter.make .cppcheck { executable := Path.ofString "lint" } none).read [textBefore])
        ((Linter.make .cppcheck { executable := Path.ofString "lint" } none).read [textAfter]) ∧
      CppcheckAccounted rewriting.before
        ((Linter.make .cppcheck { executable := Path.ofString "lint" } none).read [textBefore]) ∧
      RatsAccounted vulnerability
        ((Linter.make .rats { executable := Path.ofString "lint" } none).read [ratsText]) ∧
      (Linter.make .cppcheck { executable := Path.ofString "lint" } none).read [textAfter] =
        ⟨[], [⟨"<error id=\"a\">", .invalidLineNumber "x"⟩,
          ⟨"<error> without id", .missingField "id"⟩]⟩ ∧
      (Linter.make .rats { executable := Path.ofString "lint" } none).read [ratsText] =
        ⟨[], [⟨"a: <line>", .invalidLineNumber ""⟩,
          ⟨"<file> without name", .missingField "name"⟩]⟩ := by
  have hbefore : Holds [textBefore] rewriting.before := ⟨textBefore, by decide +kernel, rfl⟩
  have hafter : Holds [textAfter] rewriting.after := ⟨textAfter, by decide +kernel, rfl⟩
  have hrats : Holds [ratsText] vulnerability := ⟨ratsText, by decide +kernel, rfl⟩
  obtain ⟨hcppcheck, haccounted, hlocal⟩ :=
    records_isolated { executable := Path.ofString "lint" } none
  exact ⟨⟨hbefore, hafter, hrats⟩, hlocal .cppcheck rewriting _ _ hbefore hafter,
    hcppcheck _ _ hbefore, haccounted _ _ hrats,
    (read_eq_concat hafter .cppcheck _ none).trans (by decide +kernel),
    (read_eq_concat hrats .rats _ none).trans (by decide +kernel)⟩

end LintGate.Proofs.IsolatedRecords
