import LintGate.CommandLine.Summary
import LintGate.Issue.Document
import LintGate.Proofs.DocumentMembers
import LintGate.Proofs.PrintedJson

/-!
A finding that was written as JSON is read back, wherever its object stands in a printed text and
whatever its strings hold.
-/

namespace LintGate.Proofs.IssueRoundTrip

open LintGate.Json
open LintGate.Json.Value (indentedChars indentedItems indentedMembers newLine)
open LintGate.Proofs.DocumentMembers
open LintGate.Proofs.JsonTokens
open LintGate.Proofs.PrintedJson

theorem ofName?_name (s : Severity) : Severity.ofName? s.name = some s := by
  cases s <;> decide

theorem read_name (s : Severity) : Severity.read (.string (some s.name)) = .ok s := by
  simp only [Severity.read, Outline.readString, Outline.readText, bind, Except.bind, ofName?_name]
  rfl

theorem readUInt32_line (n : UInt32) :
    Outline.readUInt32 (.number (some (.natural (UInt64.ofNat n.toNat)))) = .ok n := by
  have hlt : n.toNat < UInt32.size := n.toNat_lt_size
  have heq : (UInt64.ofNat n.toNat).toNat = n.toNat :=
    UInt64.toNat_ofNat_of_lt' (Nat.lt_trans hlt (by decide))
  simp only [Outline.readUInt32, Outline.readNatural, heq, hlt, if_true, Except.map,
    UInt32.ofNat_toNat]

theorem readMembers_line (n : UInt32) (rest : Members) :
    Issue.record.readMembers (.member (some "line") (Value.ofNat n.toNat).toOutline rest) {} =
      Issue.record.readMembers rest { line := some n } := by
  refine readMembers_field rfl rfl ?_ rest
  simp only [Field.of, Value.ofNat, Value.toOutline, readUInt32_line, Except.map]

theorem readMembers_severity {p : Issue.Parts} (h : p.severity = none) (s : Severity)
    (rest : Members) :
    Issue.record.readMembers (.member (some "severity") (.string (some s.name)) rest) p =
      Issue.record.readMembers rest { p with severity := some (some s) } := by
  refine readMembers_field rfl (by simp only [Field.of, h, Option.isSome_none]) ?_ rest
  simp only [Field.of, Outline.readOption, read_name, Except.map]

theorem readMembers_debt {p : Issue.Parts} (h : p.debt = none) (d : Double) (rest : Members) :
    Issue.record.readMembers (.member (some "debt") (.number (some (.real d))) rest) p =
      Issue.record.readMembers rest { p with debt := some (some d) } := by
  refine readMembers_field rfl (by simp only [Field.of, h, Option.isSome_none]) ?_ rest
  simp only [Field.of, Outline.readOption, Outline.readDouble, Except.map]

/-- All parts of a finding, unset where the finding leaves them unset. -/
def partsOf (i : Issue) : Issue.Parts where
  line := some i.line
  message := some i.message
  ruleId := some i.ruleId
  component := some i.component
  severity := i.severity.map some
  debt := i.debt.map some

theorem ofParts_partsOf (i : Issue) : Issue.ofParts (partsOf i) = i := by
  obtain ⟨line, message, ruleId, component, severity, debt⟩ := i
  cases severity <;> cases debt <;> rfl

theorem read_toOutline (i : Issue) :
    Issue.record.read .text {} i.toValue.toOutline = .ok (partsOf i) := by
  obtain ⟨line, message, ruleId, component, severity, debt⟩ := i
  have hrequired (rest : Members) :
      Issue.record.readMembers (.member (some "line") (Value.ofNat line.toNat).toOutline <|
          .member (some "message") (.string (some message)) <|
          .member (some "ruleId") (.string (some ruleId)) <|
          .member (some "component") (.string (some component)) rest) {} =
        Issue.record.readMembers rest
          { line := some line, message := some message, ruleId := some ruleId,
            component := some component } := by
    rw [readMembers_line, readMembers_field rfl rfl rfl, readMembers_field rfl rfl rfl,
      readMembers_field rfl rfl rfl]
  cases severity with
  | none =>
      cases debt with
      | none => exact hrequired .closed
      | some d => exact (hrequired _).trans (readMembers_debt rfl d .closed)
  | some s =>
      cases debt with
      | none => exact (hrequired _).trans (readMembers_severity rfl s .closed)
      | some d =>
          exact (hrequired _).trans
            ((readMembers_severity rfl s _).trans (readMembers_debt rfl d .closed))

theorem ofJson_printed {i : Issue} {text : List Char} (h : Printed i.toValue text) :
    Issue.ofJson (String.ofList text) = .ok i := by
  have hread := read_toOutline i
  simp only [Issue.ofJson, Document.decode, read_printed h, hread, bind, Except.bind, if_true]
  simp only [Except.map, pure, Except.pure, ofParts_partsOf]

theorem numbersReadBack_toValue {i : Issue} (h : ∀ d, i.debt = some d → ReadsBack (.real d)) :
    NumbersReadBack i.toValue := by
  obtain ⟨line, message, ruleId, component, severity, debt⟩ := i
  have hline : ReadsBack (.natural (UInt64.ofNat line.toNat)) := readsBack_natural _
  have hdebt : MembersReadBack (debt.map fun d => ("debt", .number (.real d))).toList := by
    cases debt with
    | none => trivial
    | some d => exact ⟨h d rfl, trivial⟩
  cases severity with
  | none => exact ⟨hline, trivial, trivial, trivial, hdebt⟩
  | some s => exact ⟨hline, trivial, trivial, trivial, trivial, hdebt⟩

theorem isInfix_indentedItems {v : Value} {items : List Value} (h : v ∈ items) (level : Nat) :
    v.indentedChars level <:+: indentedItems level items := by
  induction items with
  | nil => cases h
  | cons w rest ih =>
      cases rest with
      | nil =>
          obtain rfl := List.mem_singleton.mp h
          exact ⟨newLine level, [], by simp [indentedItems]⟩
      | cons next rest =>
          rcases List.mem_cons.mp h with rfl | h
          · exact ⟨newLine level, ',' :: indentedItems level (next :: rest),
              by simp [indentedItems]⟩
          · refine (ih h).trans ⟨newLine level ++ w.indentedChars level ++ [','], [], ?_⟩
            simp [indentedItems]

theorem isInfix_indentedMembers {k : String} {v : Value} {members : List (String × Value)}
    (h : (k, v) ∈ members) (level : Nat) :
    v.indentedChars level <:+: indentedMembers level members := by
  induction members with
  | nil => cases h
  | cons m rest ih =>
      obtain ⟨name, w⟩ := m
      cases rest with
      | nil =>
          obtain ⟨rfl, rfl⟩ := Prod.mk.inj (List.mem_singleton.mp h)
          exact ⟨newLine level ++ quoted k ++ [':', ' '], [], by simp [indentedMembers]⟩
      | cons next rest =>
          rcases List.mem_cons.mp h with heq | h
          · obtain ⟨rfl, rfl⟩ := Prod.mk.inj heq
            exact ⟨newLine level ++ quoted k ++ [':', ' '],
              ',' :: indentedMembers level (next :: rest), by simp [indentedMembers]⟩
          · refine (ih h).trans
              ⟨newLine level ++ quoted name ++ [':', ' '] ++ w.indentedChars level ++ [','], [], ?_⟩
            simp [indentedMembers]

/-- An item stands in the text of its array, one level deeper. -/
theorem isInfix_array {v : Value} {items : List Value} (h : v ∈ items) (level : Nat) :
    v.indentedChars (level + 1) <:+: (Value.array items).indentedChars level := by
  cases items with
  | nil => cases h
  | cons w rest =>
      refine (isInfix_indentedItems h (level + 1)).trans ⟨['['], newLine level ++ [']'], ?_⟩
      simp [indentedChars]

theorem isInfix_object {k : String} {v : Value} {members : List (String × Value)}
    (h : (k, v) ∈ members) (level : Nat) :
    v.indentedChars (level + 1) <:+: (Value.object members).indentedChars level := by
  cases members with
  | nil => cases h
  | cons m rest =>
      refine (isInfix_indentedMembers h (level + 1)).trans ⟨['\x7b'], newLine level ++ ['\x7d'], ?_⟩
      simp [indentedChars]

/-- The object of a finding stands in the printed reports, three levels deep. -/
theorem isInfix_reportsJson {reports : List AnalysisReport} {r : AnalysisReport} {i : Issue}
    (hr : r ∈ reports) (hi : i ∈ r.issues) :
    i.toValue.indentedChars 3 <:+: (CommandLine.reportsJson reports).toList := by
  have hissues : ("issues", Value.array (r.issues.map Issue.toValue)) ∈
      [("file", .string r.file.text), ("issues", .array (r.issues.map Issue.toValue)),
        ("tools", .array (r.tools.map AnalysisReport.toolValue)),
        ("diff", AnalysisReport.diffValue r.diff)] := by
    simp
  have hitem : i.toValue.indentedChars 3 <:+:
      (Value.array (r.issues.map Issue.toValue)).indentedChars 2 :=
    isInfix_array (List.mem_map_of_mem hi) 2
  have hmember : (Value.array (r.issues.map Issue.toValue)).indentedChars 2 <:+:
      r.toValue.indentedChars 1 :=
    isInfix_object hissues 1
  have hreport : r.toValue.indentedChars 1 <:+:
      (Value.array (reports.map AnalysisReport.toValue)).indentedChars 0 :=
    isInfix_array (List.mem_map_of_mem hr) 0
  rw [CommandLine.reportsJson, Value.indented, String.toList_append, String.toList_ofList]
  exact ((hitem.trans hmember).trans hreport).trans (List.infix_append [] _ _)

theorem get?_optional (i : Issue) :
    i.toValue.get? "severity" = i.severity.map (fun s => .string s.name) ∧
      i.toValue.get? "debt" = i.debt.map (fun d => .number (.real d)) := by
  obtain ⟨line, message, ruleId, component, severity, debt⟩ := i
  cases severity <;> cases debt <;> exact ⟨rfl, rfl⟩

/-- A finding is read back from its object, on one line or at any level of a printed text, as it
stands in the printed reports; what is unset is not in the object. The text of its debt is assumed
to be read back. -/
theorem ofJson_toValue (i : Issue) (hdebt : ∀ d, i.debt = some d → ReadsBack (.real d)) :
    Issue.ofJson i.toValue.compact = .ok i ∧
      (∀ level, Issue.ofJson (String.ofList (i.toValue.indentedChars level)) = .ok i) ∧
      (∀ reports r, r ∈ reports → i ∈ r.issues →
        i.toValue.indentedChars 3 <:+: (CommandLine.reportsJson reports).toList) ∧
      i.toValue.get? "severity" = i.severity.map (fun s => .string s.name) ∧
      i.toValue.get? "debt" = i.debt.map (fun d => .number (.real d)) := by
  have hback := numbersReadBack_toValue hdebt
  refine ⟨?_, ?_, ?_, get?_optional i⟩
  · exact ofJson_printed (printed_compact i.toValue hback)
  · intro level
    exact ofJson_printed (printed_indented level i.toValue hback)
  · intro reports r hr hi
    exact isInfix_reportsJson hr hi

/-- A finding with characters that are escaped, and a debt of 0.1. -/
def escapedIssue : Issue where
  line := 4294967295
  message := "a \"b\" \\ \x01 \n ß 𝄞"
  ruleId := "rats.\x7f"
  component := "src/é.c"
  severity := some .minor
  debt := some ⟨0x3FB999999999999A, by decide⟩

theorem ofJson_toValue_escaped :
    (∀ d, escapedIssue.debt = some d → ReadsBack (.real d)) ∧
      Issue.ofJson escapedIssue.toValue.compact = .ok escapedIssue ∧
      Issue.ofJson (String.ofList (escapedIssue.toValue.indentedChars 3)) = .ok escapedIssue := by
  have hdebt : ∀ d, escapedIssue.debt = some d → ReadsBack (.real d) := by
    intro d hd
    obtain rfl := Option.some.inj hd
    decide +kernel
  obtain ⟨hcompact, hindented, -⟩ := ofJson_toValue escapedIssue hdebt
  exact ⟨hdebt, hcompact, hindented 3⟩

end LintGate.Proofs.IssueRoundTrip
