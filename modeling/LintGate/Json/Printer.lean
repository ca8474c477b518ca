import LintGate.Json.Value
import LintGate.Number.Shortest

/-!
JSON text: on one line without spaces, or on many with two spaces for each level. Members are
written in the order they have.
-/

namespace LintGate.Json

/-- A control character as four hexadecimal digits. -/
def escapeControl (c : Char) : List Char :=
  let found := Nat.toDigits 16 c.toNat
  '\\' :: 'u' :: List.replicate (4 - found.length) '0' ++ found

/-- What is written for a character inside a string. -/
def escapeChar (c : Char) : List Char :=
  match c with
  | '"' => ['\\', '"']
  | '\\' => ['\\', '\\']
  | '\x08' => ['\\', 'b']
  | '\t' => ['\\', 't']
  | '\n' => ['\\', 'n']
  | '\x0c' => ['\\', 'f']
  | '\r' => ['\\', 'r']
  | c => if c.toNat < 0x20 then escapeControl c else [c]

/-- A string between quotes. -/
def quoted (s : String) : List Char :=
  '"' :: s.toList.flatMap escapeChar ++ ['"']

/-- The text of a number. -/
def Number.text : Number → String
  | .natural n => toString n.toNat
  | .negative magnitude => "-" ++ toString magnitude
  | .real x => x.text

namespace Value

mutual
/-- The value on one line. -/
def compactChars : Value → List Char
  | .null => "null".toList
  | .bool b => (if b then "true" else "false").toList
  | .number n => n.text.toList
  | .string s => quoted s
  | .array items => '[' :: compactItems items ++ [']']
  | .object members => '\x7b' :: compactMembers members ++ ['\x7d']

/-- The items with commas between them. -/
def compactItems : List Value → List Char
  | [] => []
  | [v] => v.compactChars
  | v :: rest => v.compactChars ++ ',' :: compactItems rest

/-- The members with commas between them. -/
def compactMembers : List (String × Value) → List Char
  | [] => []
  | [(k, v)] => quoted k ++ ':' :: v.compactChars
  | (k, v) :: rest => quoted k ++ ':' :: v.compactChars ++ ',' :: compactMembers rest
end

/-- A new line, indented by two spaces for each level. -/
def newLine (level : Nat) : List Char :=
  '\n' :: List.replicate (2 * level) ' '

mutual
/-- The value over several lines, its first line standing at `level`. -/
def indentedChars (level : Nat) : Value → List Char
  | .array (v :: rest) => '[' :: indentedItems (level + 1) (v :: rest) ++ newLine level ++ [']']
  | .object (m :: rest) =>
    '\x7b' :: indentedMembers (level + 1) (m :: rest) ++ newLine level ++ ['\x7d']
  | .array [] => ['[', ']']
  | .object [] => ['\x7b', '\x7d']
  | .null => "null".toList
  | .bool b => (if b then "true" else "false").toList
  | .number n => n.text.toList
  | .string s => quoted s

/-- Each item on a line of its own. -/
def indentedItems (level : Nat) : List Value → List Char
  | [] => []
  | [v] => newLine level ++ v.indentedChars level
  | v :: rest => newLine level ++ v.indentedChars level ++ ',' :: indentedItems level rest

/-- Each member on a line of its own. -/
def indentedMembers (level : Nat) : List (String × Value) → List Char
  | [] => []
  | [(k, v)] => newLine level ++ quoted k ++ ':' :: ' ' :: v.indentedChars level
  | (k, v) :: rest =>
    newLine level ++ quoted k ++ ':' :: ' ' :: v.indentedChars level ++
      ',' :: indentedMembers level rest
end

/-- The text on one line. -/
def compact (v : Value) : String :=
  String.ofList v.compactChars

/-- The text over several lines. -/
def indented (v : Value) : String :=
  String.ofList (v.indentedChars 0)

end Value

end LintGate.Json
