import LintGate.Json.Outline
import LintGate.Number.Shortest
import LintGate.Text.Printable

/-!
What can be wrong with the data of a document, and how it is said. Messages say nothing of the place
of a fault, and a refusal that ends like one loses that end.
-/

namespace LintGate.Json

/-- Why a document does not hold the data asked for. -/
inductive Fault
  /-- The text is no JSON document. -/
  | malformed
  | missingField (name : String)
  | duplicateField (name : String)
  | invalidType (found expected : String)
  | invalidValue (found expected : String)
  | invalidLength (found : Nat) (expected : String)
  | unknownVariant (found : String) (allowed : List String)
  /-- None of the forms in which the named value may be written fits. -/
  | noVariant (name : String)
  /-- The value is of the right type and means nothing. -/
  | refused (message : String)
  deriving DecidableEq, Repr

/-- A text without the place ` at line N column M` that it may end in, the numbers being of 64
bits. -/
def withoutPlace (s : String) : String :=
  let kept? := do
    let text := s.toList.reverse
    let rest ← " column ".toList.reverse.isPrefixOf? (text.dropWhile Char.isDigit)
    let before ← " at line ".toList.reverse.isPrefixOf? (rest.dropWhile Char.isDigit)
    let column ← Text.natural? (text.takeWhile Char.isDigit).reverse
    let line ← Text.natural? (rest.takeWhile Char.isDigit).reverse
    if line < UInt64.size ∧ column < UInt64.size then some (String.ofList before.reverse) else none
  kept?.getD s

/-- The alternatives between backquotes, the last one after `or`. -/
def alternatives : List String → String
  | [] => ""
  | [a] => s!"`{a}`"
  | [a, b] => s!"`{a}` or `{b}`"
  | a :: rest => s!"`{a}`, {alternatives rest}"

def Fault.message : Fault → String
  | .malformed => "syntax"
  | .missingField name => s!"missing field `{name}`"
  | .duplicateField name => s!"duplicate field `{name}`"
  | .invalidType found expected => s!"invalid type: {found}, expected {expected}"
  | .invalidValue found expected => s!"invalid value: {found}, expected {expected}"
  | .invalidLength found expected => s!"invalid length {found}, expected {expected}"
  | .unknownVariant found allowed =>
    s!"unknown variant `{found}`, expected {alternatives allowed}"
  | .noVariant name => s!"data did not match any variant of untagged enum {name}"
  | .refused message => withoutPlace message

/-- How a number is named in a message. -/
def Number.describe : Number → String
  | .natural n => s!"integer `{n.toNat}`"
  | .negative magnitude => s!"integer `-{magnitude}`"
  | .real x => s!"floating point `{x.text}`"

/-- The fault of finding this value where something else is expected. A string or number that
cannot be held is a fault of the text, found earlier. -/
def Outline.mismatch (expected : String) : Outline → Fault
  | .broken => .malformed
  | .null => .invalidType "null" expected
  | .bool b => .invalidType s!"boolean `{b}`" expected
  | .number none => .malformed
  | .number (some n) => .invalidType n.describe expected
  | .string none => .malformed
  | .string (some s) => .invalidType s!"string {Text.shown s}" expected
  | .array _ => .invalidType "sequence" expected
  | .object _ => .invalidType "map" expected

end LintGate.Json
