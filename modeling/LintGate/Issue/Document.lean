import LintGate.Issue.Basic
import LintGate.Json.Printer
import LintGate.Json.Record

/-!
Findings as JSON. Severity and debt are written only when they are set.
-/

namespace LintGate

open Json

/-- The severity a document names. -/
def Severity.read (v : Outline) : Except Fault Severity := do
  let name ← v.readString
  match Severity.ofName? name with
  | some severity => return severity
  | none => throw (.refused (Severity.unknown name))

namespace Issue

/-- The fields of a finding that have been read. -/
structure Parts where
  line : Option UInt32 := none
  message : Option String := none
  ruleId : Option String := none
  component : Option String := none
  severity : Option (Option Severity) := none
  debt : Option (Option Double) := none

def record : Record Parts where
  title := "struct Issue"
  fields := [
    .of "line" (·.line) (fun p v => { p with line := v }) Outline.readUInt32 false false,
    .of "message" (·.message) (fun p v => { p with message := v }) Outline.readString false false,
    .of "ruleId" (·.ruleId) (fun p v => { p with ruleId := v }) Outline.readString false false,
    .of "component" (·.component) (fun p v => { p with component := v }) Outline.readString
      false false,
    .of "severity" (·.severity) (fun p v => { p with severity := v })
      (Outline.readOption Severity.read) true false,
    .of "debt" (·.debt) (fun p v => { p with debt := v })
      (Outline.readOption Outline.readDouble) true false]

/-- The finding with these parts. -/
def ofParts (p : Parts) : Issue where
  line := p.line.getD 0
  message := p.message.getD ""
  ruleId := p.ruleId.getD ""
  component := p.component.getD ""
  severity := p.severity.getD none
  debt := p.debt.getD none

/-- The finding a JSON text holds. -/
def ofJson (text : String) : Except Fault Issue :=
  (Document.decode (record.read .text {}) text).map ofParts

/-- The finding as a JSON object. -/
def toValue (i : Issue) : Value :=
  .object <|
    [("line", .ofNat i.line.toNat), ("message", .string i.message),
      ("ruleId", .string i.ruleId), ("component", .string i.component)] ++
    (i.severity.map fun s => ("severity", .string s.name)).toList ++
    (i.debt.map fun d => ("debt", .number (.real d))).toList

end Issue

end LintGate
