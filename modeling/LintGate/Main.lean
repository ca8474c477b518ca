import LintGate.CommandLine.Run
import LintGate.File.Listing
import LintGate.Json.Reader

/-!
The command line program. It works on the files that are listed on the first line of its input.
-/

namespace LintGate.CommandLine

/-- The directory in which the listed files lie. -/
def projectDirectory : Path := Path.ofString "/project"

end LintGate.CommandLine

open LintGate CommandLine

def main (arguments : List String) : IO UInt32 := do
  let line ← (← IO.getStdin).getLine
  let files := FileTree.ofListing projectDirectory ((Json.Value.read? line).getD .null)
  match CommandLine.run (.ofFiles files projectDirectory) arguments with
  | .error kind =>
    IO.eprintln kind.message
    return UInt32.ofNat kind.code
  | .ok outcome =>
    IO.print outcome.stdout
    IO.eprint outcome.stderr
    if let some failure := outcome.failure then IO.eprintln failure.message
    return UInt32.ofNat outcome.code
