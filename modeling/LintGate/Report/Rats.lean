import LintGate.Report.Document
import LintGate.Tool

/-!
The report of RATS: one `vulnerability` element for each kind of finding, with the files and the
lines where it was met. Only those without a type count.
-/

namespace LintGate.Report.Rats

/-- What one line of a file says, for a record with this message. -/
def convertLine (message name : String) (line : Markup.Node) : Reading :=
  match readLineNumber line.content with
  | .ok number => .found (.reported (Tool.rats.ruleId "") message number name)
  | .error reason => .skip (name ++ ": <line>") reason

/-- What one file of a record with this message says. -/
def convertFile (message : String) (file : Markup.Node) : Reading :=
  match Text.trim (file.childContent "name") with
  | [] => .skip "<file> without name" (.missingField "name")
  | name => .concat ((file.childrenNamed "line").map (convertLine message (String.ofList name)))

/-- What one record says. -/
def convert (record : Markup.Node) : Reading :=
  if Text.isBlankText (record.childContent "type") then
    let message := String.ofList (Text.collapse (record.childContent "message"))
    .concat ((record.childrenNamed "file").map (convertFile message))
  else {}

/-- Reads the output of RATS. -/
def read (lines : List String) : Reading :=
  Report.read "rats report" "vulnerability" convert lines

end LintGate.Report.Rats
