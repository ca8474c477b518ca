import LintGate.Json.Printer

/-!
Schemas of JSON values, and the first place where a value does not fit. The members of an object are
looked at in ascending order of their names, and required ones are missed last.
-/

namespace LintGate.Json

/-- What a value may be. -/
inductive Schema
  | boolean
  /-- A string of at least this many characters. -/
  | string (minLength : Nat)
  /-- A number without a fraction, one at least. -/
  | positiveInteger
  /-- One of two strings. -/
  | either (a b : String)
  | array (item : Schema)
  /-- A string, or an object whose values are strings. -/
  | stringOrStrings
  | object (properties : List (String × Schema)) (required : List String)

/-- How a value does not fit. -/
inductive Misfit
  | wrongType (found : Value) (expected : String)
  | tooShort (found : String) (minLength : Nat)
  | belowMinimum (found : Value)
  | notOneOf (found : Value) (a b : String)
  | noneOf (found : Value)
  | unexpected (name : String)
  | missing (name : String)

def Misfit.message : Misfit → String
  | .wrongType found expected => s!"{found.compact} is not of type \"{expected}\""
  | .tooShort found minLength =>
    (Value.string found).compact ++ s!" is shorter than {minLength} character"
  | .belowMinimum found => s!"{found.compact} is less than the minimum of 1"
  | .notOneOf found a b => s!"{found.compact} is not one of \"{a}\" or \"{b}\""
  | .noneOf found =>
    found.compact ++ " is not valid under any of the schemas listed in the 'oneOf' keyword"
  | .unexpected name => s!"Additional properties are not allowed ('{name}' was unexpected)"
  | .missing name => s!"\"{name}\" is a required property"

/-- A misfit and the names and indices that lead to it. -/
structure Violation where
  misfit : Misfit
  place : List String

namespace Violation

/-- The same violation seen from outside the member called `step`. -/
def below (step : String) (v : Violation) : Violation :=
  { v with place := step :: v.place }

/-- The place as a pointer, empty for the whole value. -/
def pointer (v : Violation) : String :=
  String.join (v.place.map ("/" ++ ·))

def message (v : Violation) : String :=
  s!"{v.misfit.message} at {v.pointer}"

end Violation

namespace Value

def isString : Value → Bool
  | .string _ => true
  | _ => false

/-- A number without a fraction. -/
def isInteger : Value → Bool
  | .number (.natural _) => true
  | .number (.negative _) => true
  | .number (.real x) => x.isIntegral
  | _ => false

/-- A number that is one at least. -/
def isPositive : Value → Bool
  | .number (.natural n) => n != 0
  | .number (.real x) => x.atLeastOne
  | _ => false

/-- A string, or an object whose values are strings. -/
def isStringOrStrings : Value → Bool
  | .string _ => true
  | .object members => members.all (·.2.isString)
  | _ => false

end Value

namespace Schema

/-- The first result of `check` over the items, numbered from `index` on. -/
def firstItem? (check : Value → Option Violation) : Nat → List Value → Option Violation
  | _, [] => none
  | index, v :: rest =>
    match check v with
    | some found => some (found.below (toString index))
    | none => firstItem? check (index + 1) rest

/-- The first name in the list that no member has. -/
def missing? (required : List String) (members : List (String × Value)) : Option Violation :=
  (required.find? fun name => !members.any (·.1 == name)).map fun name => ⟨.missing name, []⟩

/-- The first result over the members: a member without a schema is itself a misfit. -/
def firstMember? (checks : List (String × (Value → Option Violation))) :
    List (String × Value) → Option Violation
  | [] => none
  | (name, v) :: rest =>
    match checks.find? (·.1 == name) with
    | none => some ⟨.unexpected name, []⟩
    | some (_, check) =>
      match check v with
      | some found => some (found.below name)
      | none => firstMember? checks rest

mutual
/-- The first place where the value does not fit the schema. -/
def check : Schema → Value → Option Violation
  | .boolean, v =>
    match v with
    | .bool _ => none
    | v => some ⟨.wrongType v "boolean", []⟩
  | .string minLength, v =>
    match v with
    | .string s => if s.length < minLength then some ⟨.tooShort s minLength, []⟩ else none
    | v => some ⟨.wrongType v "string", []⟩
  | .positiveInteger, v =>
    if !v.isInteger then some ⟨.wrongType v "integer", []⟩
    else if !v.isPositive then some ⟨.belowMinimum v, []⟩
    else none
  | .either a b, v =>
    match v with
    | .string s => if s = a ∨ s = b then none else some ⟨.notOneOf v a b, []⟩
    | v => some ⟨.notOneOf v a b, []⟩
  | .array item, v =>
    match v with
    | .array items => firstItem? (check item) 0 items
    | v => some ⟨.wrongType v "array", []⟩
  | .stringOrStrings, v => if v.isStringOrStrings then none else some ⟨.noneOf v, []⟩
  | .object properties required, v =>
    match v with
    | .object members =>
      match firstMember? (checks properties) members with
      | some found => some found
      | none => missing? required members
    | v => some ⟨.wrongType v "object", []⟩

/-- The check of each property. -/
def checks : List (String × Schema) → List (String × (Value → Option Violation))
  | [] => []
  | (name, schema) :: rest => (name, check schema) :: checks rest
end

end Schema

end LintGate.Json
