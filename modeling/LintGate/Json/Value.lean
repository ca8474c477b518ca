import LintGate.Number.Double
import LintGate.Text.Dictionary

/-!
JSON values. Members of an object keep the order they are given in; reading a document orders them
ascending by name, the last of equal names winning.
-/

namespace LintGate.Json

/-- A number as a document holds it: an integer of 64 bits, or else a double. -/
inductive Number
  | natural (n : UInt64)
  /-- The number below zero with this magnitude, at most 2^63. -/
  | negative (magnitude : Nat)
  | real (x : Double)
  deriving DecidableEq

inductive Value
  | null
  | bool (b : Bool)
  | number (n : Number)
  | string (s : String)
  | array (items : List Value)
  | object (members : List (String × Value))
  deriving Inhabited

namespace Value

/-- A natural number; beyond 64 bits the low bits. -/
def ofNat (n : Nat) : Value :=
  .number (.natural (UInt64.ofNat n))

/-- The value, or null. -/
def ofOption (f : α → Value) : Option α → Value
  | none => .null
  | some a => f a

/-- The texts as an array of strings. -/
def ofStrings (texts : List String) : Value :=
  .array (texts.map .string)

/-- The member called `key`, of an object that has one. -/
def get? (v : Value) (key : String) : Option Value :=
  match v with
  | .object members => Dictionary.get? key members
  | _ => none

end Value

end LintGate.Json
