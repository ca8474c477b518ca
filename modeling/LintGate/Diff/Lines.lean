/-!
The lines of a text, for comparing it with another. A line holds the characters that end it, so that
equal lines end alike.
-/

namespace LintGate.Diff

/-- The text with each carriage return before a line feed left out. -/
def unifyLineEnds : List Char → List Char
  | [] => []
  | '\r' :: '\n' :: rest => '\n' :: unifyLineEnds rest
  | c :: rest => c :: unifyLineEnds rest

/-- The text with a line feed at its end, unless it is empty. -/
def endLastLine (cs : List Char) : List Char :=
  match cs.getLast? with
  | none => []
  | some c => if c = '\n' then cs else cs ++ ['\n']

/-- The form in which texts are compared. -/
def normalize (text : String) : List Char :=
  endLastLine (unifyLineEnds text.toList)

/-- A character in front of the first line. -/
def extendFirst (c : Char) : List (List Char) → List (List Char)
  | [] => [[c]]
  | line :: rest => (c :: line) :: rest

/-- The lines of a text. A carriage return ends a line together with the line feed after it, or
alone. -/
def lines : List Char → List (List Char)
  | [] => []
  | '\r' :: '\n' :: rest => ['\r', '\n'] :: lines rest
  | c :: rest =>
    if c = '\n' ∨ c = '\r' then [c] :: lines rest
    else extendFirst c (lines rest)

end LintGate.Diff
