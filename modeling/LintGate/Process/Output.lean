import LintGate.Text.Lines
import LintGate.Tool

/-!
What a process leaves behind, and why there may be nothing.
-/

namespace LintGate

/-- What a process printed, line by line, and how it ended. -/
structure ProcessOutput where
  stdout : List String := []
  stderr : List String := []
  /-- The exit code; none when a signal ended the process. -/
  exitCode : Option Int := some 0
  deriving DecidableEq, Repr

/-- The lines of one stream. -/
def ProcessOutput.lines (o : ProcessOutput) : Stream → List String
  | .stdout => o.stdout
  | .stderr => o.stderr

/-- The lines in what a process wrote, as text and without line ends; empty lines do not count. -/
def ProcessOutput.linesOf (bytes : List UInt8) : List String :=
  let text (line : List UInt8) : List Char := (Text.Utf8.decodeLossy line).toList
  let lines := (Text.byteLines bytes).map fun line =>
    String.ofList ((text line).reverse.dropWhile (· == '\r')).reverse
  lines.filter (!·.isEmpty)

/-- Why a command gave no output, or an analysis no report. -/
inductive RunFailure
  | launch (program reason : String)
  | timedOut (program : String)
  | cancelled (program : String)
  | io (reason : String)
  | configuration (reason : String)
  | profile (reason : String)
  | internal (reason : String)
  deriving DecidableEq, Repr

def RunFailure.message : RunFailure → String
  | .launch program reason => s!"Failed to launch '{program}': {reason}"
  | .timedOut program => s!"'{program}' timed out"
  | .cancelled program => s!"'{program}' was cancelled"
  | .io reason => s!"I/O error: {reason}"
  | .configuration reason => s!"Configuration error: {reason}"
  | .profile reason => s!"Profile error: Invalid profile: {reason}"
  | .internal reason => s!"Internal error: {reason}"

end LintGate
