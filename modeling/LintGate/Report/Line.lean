import LintGate.Report.Skipped
import LintGate.Text.Cut

/-!
The two line grammars of tools that print one finding a line: `path(line): message [id]`, and
`path:line[:column]:(rule)message`. Each delimiter is taken at its first occurrence after the one
before it.
-/

namespace LintGate

/-- The parts of a line that is a finding. -/
structure FindingLine where
  file : String
  line : UInt32
  rule : String
  message : String
  deriving DecidableEq, Repr

namespace FindingLine

/-- Reads `path(line): message [id]`. The colon may be left out, and what follows the closing
bracket does not count. -/
def bracketed (text : List Char) : Except SkipReason FindingLine := do
  let (file, rest) ← cutAt '(' text
  let (number, rest) ← cutAt ')' rest
  let line ← readLineNumber number
  let (message, rest) ← cutAt '[' (Text.dropOne ':' rest)
  let (id, _) ← cutAt ']' rest
  let file ← requireField "file" file
  let id ← requireField "id" id
  return ⟨file, line, id, String.ofList (Text.trim message)⟩

/-- A drive, as in `C:\` or `C:/`, and the text after its colon. -/
def splitDrive : List Char → List Char × List Char
  | letter :: ':' :: separator :: rest =>
    if letter.isAlpha && (separator == '\\' || separator == '/') then
      ([letter, ':'], separator :: rest)
    else ([], letter :: ':' :: separator :: rest)
  | text => ([], text)

/-- Whether the text is a column: digits, with or without blanks around them. -/
def isColumn (field : List Char) : Bool :=
  let trimmed := Text.trim field
  !trimmed.isEmpty && trimmed.all Char.isDigit

/-- The text after a column and its colon, or the whole text when it does not start with one. -/
def dropColumn (text : List Char) : List Char :=
  match Text.cut ':' text with
  | some (column, rest) => if isColumn column then rest else text
  | none => text

/-- Reads `path:line[:column]:(rule)message`. A drive belongs to the path, and what stands between
the last colon and the parenthesis does not count. -/
def located (text : List Char) : Except SkipReason FindingLine := do
  let (drive, rest) := splitDrive text
  let (path, rest) ← cutAt ':' rest
  let file ← requireField "file" (drive ++ path)
  let (number, rest) ← cutAt ':' rest
  let line ← readLineNumber number
  let (_, rest) ← cutAt '(' (dropColumn rest)
  let (rule, message) ← cutAt ')' rest
  let rule ← requireField "rule" rule
  return ⟨file, line, rule, String.ofList (Text.trim message)⟩

/-- Reads every line by one grammar; `ruleId` makes a rule id of the rule on the line. -/
def readAll (grammar : List Char → Except SkipReason FindingLine) (ruleId : String → String)
    (lines : List String) : Reading :=
  .concat <| lines.map fun line =>
    match grammar line.toList with
    | .ok found => .found (.reported (ruleId found.rule) found.message found.line found.file)
    | .error reason => .skip line reason

end FindingLine

end LintGate
