import LintGate.Issue.Basic
import LintGate.Text.Digits

/-!
What reading the output of a tool gives: findings, and the entries that could not be read, each
with its cause.
-/

namespace LintGate

/-- Why a line or a record of tool output is no finding. -/
inductive SkipReason
  | missingDelimiter (delimiter : Char)
  | invalidLineNumber (field : String)
  | missingField (name : String)
  /-- No report stands in the output. -/
  | noReport
  /-- The report is no well-formed document. -/
  | malformedReport
  deriving DecidableEq, Repr

def SkipReason.message : SkipReason → String
  | .missingDelimiter delimiter => s!"missing '{delimiter}' delimiter"
  | .invalidLineNumber field => s!"invalid line number: '{field}'"
  | .missingField name => s!"missing field: {name}"
  | .noReport => "malformed document: no XML report found"
  | .malformedReport => "malformed document"

/-- An entry that could not be read. -/
structure Skipped where
  /-- The line, or a short description of the record. -/
  entry : String
  reason : SkipReason
  deriving DecidableEq, Repr

/-- What was read from the output of one tool, in the order of the output. -/
structure Reading where
  issues : List Issue := []
  skipped : List Skipped := []
  deriving DecidableEq

namespace Reading

/-- A reading of one finding. -/
def found (i : Issue) : Reading := ⟨[i], []⟩

/-- A reading of one entry that is no finding. -/
def skip (entry : String) (reason : SkipReason) : Reading := ⟨[], [⟨entry, reason⟩]⟩

/-- One reading after another. -/
def append (a b : Reading) : Reading :=
  ⟨a.issues ++ b.issues, a.skipped ++ b.skipped⟩

/-- The readings of all entries, one after another. -/
def concat (readings : List Reading) : Reading :=
  ⟨readings.flatMap (·.issues), readings.flatMap (·.skipped)⟩

end Reading

/-- The line number in a field, blanks around it aside. -/
def readLineNumber (field : List Char) : Except SkipReason UInt32 :=
  let trimmed := Text.trim field
  match Text.lineNumber? trimmed with
  | some line => .ok line
  | none => .error (.invalidLineNumber (String.ofList trimmed))

/-- What precedes and what follows the first `delimiter`. -/
def cutAt (delimiter : Char) (cs : List Char) : Except SkipReason (List Char × List Char) :=
  match Text.cut delimiter cs with
  | some parts => .ok parts
  | none => .error (.missingDelimiter delimiter)

/-- The field without the blanks around it, which must leave something. -/
def requireField (name : String) (field : List Char) : Except SkipReason String :=
  match Text.trim field with
  | [] => .error (.missingField name)
  | trimmed => .ok (String.ofList trimmed)

end LintGate
