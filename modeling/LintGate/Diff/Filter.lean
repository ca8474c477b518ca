import LintGate.Diff.Operation
import LintGate.File.Fault
import LintGate.Text.Utf8

/-!
Keeping the findings on lines that differ from a reference. Without a reference, or when the file
cannot be read, all findings are kept, and the outcome says why.
-/

namespace LintGate

/-- Why findings were not restricted to changed lines. -/
inductive SkipCause
  | noReference
  | unreadable (fault : FileFault)
  deriving DecidableEq, Repr

def SkipCause.message : SkipCause → String
  | .noReference => "reference source unavailable"
  | .unreadable fault => s!"failed to read file: {fault.message}"

/-- What became of the restriction to changed lines. -/
inductive DiffOutcome
  | notRequested
  | applied (kept dropped : Nat)
  | skipped (cause : SkipCause)
  deriving DecidableEq, Repr

namespace DiffOutcome

/-- The findings on lines of the file that differ from the reference, and what was done. Bytes that
are no UTF-8 are compared as replacement characters. -/
def filter (file : Except FileFault (List UInt8)) (reference : Option String)
    (issues : List Issue) : List Issue × DiffOutcome :=
  match reference with
  | none => (issues, .skipped .noReference)
  | some reference =>
    match file with
    | .error fault => (issues, .skipped (.unreadable fault))
    | .ok bytes =>
      let script := EditScript.between reference (Text.Utf8.decodeLossy bytes)
      let kept := script.retainChanged issues
      (kept, .applied kept.length (issues.length - kept.length))

end DiffOutcome

end LintGate
