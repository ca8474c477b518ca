import LintGate.Issue.Severity
import LintGate.Number.Double
import LintGate.Text.Cut

/-!
Findings of lint tools in one form.
-/

namespace LintGate

/-- One finding. Severity and debt are unset until a profile gives them. -/
structure Issue where
  /-- The line, counted from 1; 0 when the tool gave no place. -/
  line : UInt32
  message : String
  /-- The key of the tool, its separator, and the tool's own code. -/
  ruleId : String
  /-- The file, as the tool named it or as the analysis renamed it. -/
  component : String
  severity : Option Severity
  debt : Option Double
  deriving DecidableEq

namespace Issue

/-- A finding as a tool reports it. -/
def reported (ruleId message : String) (line : UInt32) (component : String) : Issue :=
  ⟨line, message, ruleId, component, none, none⟩

/-- The part of the rule id before its first `.` or `:`. -/
def repositoryKey (i : Issue) : String :=
  String.ofList (Text.upTo (fun c => c == '.' || c == ':') i.ruleId.toList)

end Issue

end LintGate
