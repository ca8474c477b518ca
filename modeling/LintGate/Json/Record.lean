import LintGate.Json.Fault
import LintGate.Json.Reader

/-!
Decoding records. A record is written as an object, its members in any order, or as an array of its
fields in their order. Decoding walks the outline from left to right and stops at the first fault;
unknown members are passed over as long as the grammar holds.
-/

namespace LintGate.Json

/-- Where a value comes from: the running text of a document, or a value that was read before. -/
inductive Source
  | text
  | value
  deriving DecidableEq, Repr

/-- One field of a record whose parts are collected in a `P`. -/
structure Field (P : Type) where
  name : String
  isSet : P → Bool
  read : Outline → P → Except Fault P
  /-- An object may leave the field out. -/
  optional : Bool
  /-- An array may end before the field. -/
  trailing : Bool

/-- The field kept at `get` and written by `set`. -/
def Field.of (name : String) (get : P → Option α) (set : P → Option α → P)
    (read : Outline → Except Fault α) (optional trailing : Bool) : Field P where
  name := name
  isSet p := (get p).isSome
  read v p := (read v).map fun a => set p (some a)
  optional := optional
  trailing := trailing

/-- A kind of record: what messages call it, and its fields in their order. -/
structure Record (P : Type) where
  title : String
  fields : List (Field P)

namespace Record

/-- What messages say of an array with too few items. -/
def arity (r : Record P) : String :=
  s!"{r.title} with {r.fields.length} elements"

/-- The members of an object from here on. A name met twice is a fault before its second value is
looked at; a field left out is a fault when the object ends. -/
def readMembers (r : Record P) : Members → P → Except Fault P
  | .closed, p =>
    match r.fields.find? fun f => !f.optional && !f.isSet p with
    | some f => .error (.missingField f.name)
    | none => .ok p
  | .broken, _ => .error .malformed
  | .member none _ _, _ => .error .malformed
  | .member (some key) value rest, p =>
    match r.fields.find? (·.name == key) with
    | none => if value.isWhole then r.readMembers rest p else .error .malformed
    | some f =>
      if f.isSet p then .error (.duplicateField key)
      else do
        let p ← f.read value p
        r.readMembers rest p

/-- The items of an array from the `index`-th on, for the fields that are left. -/
def readItems (r : Record P) (tooLong : Fault) : List (Field P) → Nat → Items → P → Except Fault P
  | [], _, .closed, p => .ok p
  | [], _, _, _ => .error tooLong
  | f :: rest, index, .closed, p =>
    if f.trailing then r.readItems tooLong rest (index + 1) .closed p
    else .error (.invalidLength index r.arity)
  | _ :: _, _, .broken, _ => .error .malformed
  | f :: rest, index, .item value items, p => do
    let p ← f.read value p
    r.readItems tooLong rest (index + 1) items p

/-- The number of items of an array. -/
def countItems : Items → Nat
  | .item _ rest => countItems rest + 1
  | _ => 0

/-- The parts of a record, starting from `start`. A running text with too many items is malformed;
a value says how many it has. -/
def read (r : Record P) (source : Source) (start : P) : Outline → Except Fault P
  | .object members => r.readMembers members start
  | .array items =>
    let tooLong := match source with
      | .text => .malformed
      | .value => .invalidLength (countItems items) "fewer elements in array"
    r.readItems tooLong r.fields 0 items start
  | other => .error (other.mismatch r.title)

end Record

namespace Outline

def readBool : Outline → Except Fault Bool
  | .bool b => .ok b
  | other => .error (other.mismatch "a boolean")

/-- A string; messages name what is expected. -/
def readText (expected : String) : Outline → Except Fault String
  | .string (some s) => .ok s
  | other => .error (other.mismatch expected)

def readString : Outline → Except Fault String :=
  readText "a string"

/-- A natural number below `bound`, the type being called `expected`. -/
def readNatural (bound : Nat) (expected : String) : Outline → Except Fault Nat
  | .number (some (.natural n)) =>
    if n.toNat < bound then .ok n.toNat
    else .error (.invalidValue (Number.natural n).describe expected)
  | .number (some (.negative n)) => .error (.invalidValue (Number.negative n).describe expected)
  | other => .error (other.mismatch expected)

/-- A natural number of 32 bits. -/
def readUInt32 (v : Outline) : Except Fault UInt32 :=
  (v.readNatural UInt32.size "u32").map UInt32.ofNat

/-- A natural number of 64 bits. -/
def readUInt64 (v : Outline) : Except Fault UInt64 :=
  (v.readNatural UInt64.size "u64").map UInt64.ofNat

/-- A number as the double nearest to it. -/
def readDouble : Outline → Except Fault Double
  | .number (some (.real x)) => .ok x
  | .number (some (.natural n)) =>
    match Double.ofDecimal? false n.toNat 0 with
    | some x => .ok x
    | none => .error .malformed
  | .number (some (.negative n)) =>
    match Double.ofDecimal? true n 0 with
    | some x => .ok x
    | none => .error .malformed
  | other => .error (other.mismatch "f64")

/-- Null, or what `read` accepts. -/
def readOption (read : Outline → Except Fault α) : Outline → Except Fault (Option α)
  | .null => .ok none
  | other => (read other).map some

/-- The items of an array, each read in its turn. -/
def readEach (read : Outline → Except Fault α) : Items → Except Fault (List α)
  | .closed => .ok []
  | .broken => .error .malformed
  | .item value rest => do
    let a ← read value
    let as ← readEach read rest
    return a :: as

def readList (read : Outline → Except Fault α) : Outline → Except Fault (List α)
  | .array items => readEach read items
  | other => .error (other.mismatch "a sequence")

end Outline

/-- What `read` makes of a whole text: the first fault of the data comes before what follows the
value. -/
def Document.decode (read : Outline → Except Fault α) (text : String) : Except Fault α := do
  let document := Document.read text
  let a ← read document.root
  if document.endsAfterRoot then return a else throw .malformed

end LintGate.Json
