import LintGate.Json.Record
import LintGate.Text.Blank
import LintGate.Text.Cut

/-!
The variables a tool is given besides those it inherits. They are written as one text of entries
`KEY=VALUE` between semicolons, or as an object.
-/

namespace LintGate

open Json

inductive Environment
  | inline (text : String)
  | map (entries : Dictionary String)
  deriving DecidableEq, Repr

namespace Environment

/-- No variables. -/
def none : Environment := .map []

/-- The key and the value of one entry; the blanks around the key do not count. An entry without a
key is no entry. -/
def entry? (text : List Char) : Option (String × String) := do
  let (key, value) ← Text.cut '=' text
  let key := Text.trim key
  if key.isEmpty then Option.none else some (String.ofList key, String.ofList value)

/-- The entries of a text, the blanks around each aside. -/
def entries (text : String) : List (String × String) :=
  ((text.toList.splitOn ';').map Text.trim).filterMap entry?

/-- The variables, the last entry of a key winning. -/
def toMap : Environment → Dictionary String
  | .map entries => entries
  | .inline text => Dictionary.ofEntries (entries text)

/-- The variables an object lists, if all of its values are strings. -/
def readEntries? : Members → Option (List (String × String))
  | .closed => some []
  | .broken => Option.none
  | .member (some key) (.string (some value)) rest => (readEntries? rest).map ((key, value) :: ·)
  | .member .. => Option.none

/-- An environment in either form. -/
def read : Outline → Except Fault Environment
  | .string (some text) => .ok (.inline text)
  | .object members =>
    match readEntries? members with
    | some entries => .ok (.map (Dictionary.ofEntries entries))
    | Option.none => .error (.noVariant "Environment")
  | _ => .error (.noVariant "Environment")

/-- The environment as it was written. -/
def toValue : Environment → Value
  | .inline text => .string text
  | .map entries => .object (entries.map fun e => (e.1, .string e.2))

end Environment

end LintGate
