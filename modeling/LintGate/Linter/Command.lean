import LintGate.Path.Basic
import LintGate.Text.Dictionary

/-!
Commands: a program with its arguments, how they are written on one line, and how such a line is
split. Blanks separate arguments and double quotes hold an argument together; nothing is escaped.
-/

namespace LintGate

/-- One call of a program. -/
structure Command where
  program : Path
  arguments : List String
  /-- Variables besides those that are inherited. -/
  environment : Dictionary String
  workingDir : Option Path
  /-- The time limit in milliseconds. -/
  timeout : Option UInt64
  deriving DecidableEq

namespace Command

/-- The arguments in a text from here on. `quoted` says whether a quote is open, `current` is the
argument that has begun. -/
def splitFrom (quoted : Bool) (current : Option (List Char)) : List Char → List (List Char)
  | [] => current.toList
  | c :: rest =>
    if c = '"' then splitFrom (!quoted) (some (current.getD [])) rest
    else if Text.isBlank c && !quoted then current.toList ++ splitFrom false none rest
    else splitFrom quoted (some (current.getD [] ++ [c])) rest

/-- The arguments in a text. -/
def split (text : String) : List String :=
  (splitFrom false none text.toList).map String.ofList

/-- A part of a command line, in quotes when it is empty or contains a blank. -/
def quote (part : String) : String :=
  if part.isEmpty || part.toList.any Text.isBlank then "\"" ++ part ++ "\"" else part

/-- The program and its arguments on one line. -/
def line (c : Command) : String :=
  Text.joined " " ((c.program.text :: c.arguments).map quote)

end Command

end LintGate
