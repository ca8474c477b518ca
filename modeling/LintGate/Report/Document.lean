import LintGate.Markup.Node
import LintGate.Report.Skipped
import LintGate.Text.Cut

/-!
Reports that are XML documents. Tools print other lines around a report, so the document is cut out
of the output from the first `<` to the last `>`.
-/

namespace LintGate.Report

/-- The text from the first `<` to the last `>`, if that comes later. -/
def extract? (lines : List String) : Option String :=
  let start := (Text.joined "\n" lines).toList.dropWhile (· != '<')
  let document := (start.reverse.dropWhile (· != '>')).reverse
  if document.isEmpty then none else some (String.ofList document)

/-- Reads the records of a report, each element called `record`, in document order. Output without
any line is an empty report. -/
def read (title record : String) (convert : Markup.Node → Reading) (lines : List String) :
    Reading :=
  if lines.isEmpty then {}
  else
    match extract? lines with
    | none => .skip s!"{lines.length} line(s) of output" .noReport
    | some text =>
      match Markup.Node.ofDocument? text with
      | none => .skip title .malformedReport
      | some root => .concat ((root.elementsNamed record).map convert)

end LintGate.Report
