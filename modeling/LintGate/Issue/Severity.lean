import LintGate.Text.Blank

/-!
The severity that a profile gives to a finding.
-/

namespace LintGate

/-- Severities, the gravest first. -/
inductive Severity
  | blocker
  | critical
  | major
  | minor
  | info
  deriving DecidableEq, Repr, Inhabited

namespace Severity

def all : List Severity :=
  [.blocker, .critical, .major, .minor, .info]

/-- The name in reports and profiles. -/
def name : Severity → String
  | .blocker => "BLOCKER"
  | .critical => "CRITICAL"
  | .major => "MAJOR"
  | .minor => "MINOR"
  | .info => "INFO"

/-- The severity of a rule that names none. -/
def default : Severity := .major

/-- The place in the order, the gravest first. -/
def rank : Severity → Nat
  | .blocker => 0
  | .critical => 1
  | .major => 2
  | .minor => 3
  | .info => 4

/-- The severity with this name, in letters of either case, with or without blanks around it. -/
def ofName? (s : String) : Option Severity :=
  let wanted := Text.upper (Text.trimmed s)
  all.find? (·.name == wanted)

/-- What is said of a text that names no severity. -/
def unknown (s : String) : String :=
  s!"Invalid severity: {s}"

/-- The severities, the gravest first. -/
def sort (severities : List Severity) : List Severity :=
  severities.mergeSort fun a b => a.rank ≤ b.rank

end Severity

end LintGate
