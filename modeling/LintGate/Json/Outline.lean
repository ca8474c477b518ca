import LintGate.Json.Value

/-!
The outline of a JSON text: the tree that can be seen up to the first place where the grammar is
broken, with a `broken` leaf or tail at that place. A reader that walks an outline in order meets
the first fault of the text first, whether it is a fault of the grammar or of the data.
-/

namespace LintGate.Json

mutual
/-- A value as far as the grammar allows it to be read. -/
inductive Outline
  | broken
  | null
  | bool (b : Bool)
  /-- A number; `none` where its magnitude is beyond the doubles. -/
  | number (n : Option Number)
  /-- A string; `none` where a surrogate escape stands alone. -/
  | string (s : Option String)
  | array (items : Items)
  | object (members : Members)

/-- The rest of an array. -/
inductive Items
  | closed
  | broken
  | item (value : Outline) (rest : Items)

/-- The rest of an object. A member without a colon has a broken value. -/
inductive Members
  | closed
  | broken
  | member (key : Option String) (value : Outline) (rest : Members)
end

mutual
/-- Whether the grammar holds to the end of the value. -/
def Outline.isWhole : Outline → Bool
  | .broken => false
  | .array items => items.isWhole
  | .object members => members.isWhole
  | _ => true

def Items.isWhole : Items → Bool
  | .closed => true
  | .broken => false
  | .item value rest => value.isWhole && rest.isWhole

def Members.isWhole : Members → Bool
  | .closed => true
  | .broken => false
  | .member _ value rest => value.isWhole && rest.isWhole
end

/-- How many arrays and objects may be open at once where a whole value is read. -/
def depthLimit : Nat := 127

mutual
/-- The value, if it is whole, its strings and numbers can be held, and it is not nested deeper
than `room` levels. -/
def Outline.toValue? (room : Nat) : Outline → Option Value
  | .broken => none
  | .null => some .null
  | .bool b => some (.bool b)
  | .number n => n.map .number
  | .string s => s.map .string
  | .array items => if room = 0 then none else (items.toValues? (room - 1)).map .array
  | .object members =>
    if room = 0 then none
    else (members.toMembers? (room - 1)).map fun ms => .object (Dictionary.ofEntries ms)

def Items.toValues? (room : Nat) : Items → Option (List Value)
  | .closed => some []
  | .broken => none
  | .item value rest => do
    let v ← value.toValue? room
    let vs ← rest.toValues? room
    return v :: vs

def Members.toMembers? (room : Nat) : Members → Option (List (String × Value))
  | .closed => some []
  | .broken => none
  | .member key value rest => do
    let k ← key
    let v ← value.toValue? room
    let ms ← rest.toMembers? room
    return (k, v) :: ms
end

mutual
/-- The outline of a value: nothing in it is broken. -/
def Value.toOutline : Value → Outline
  | .null => .null
  | .bool b => .bool b
  | .number n => .number (some n)
  | .string s => .string (some s)
  | .array items => .array (Value.toItems items)
  | .object members => .object (Value.toMembers members)

def Value.toItems : List Value → Items
  | [] => .closed
  | v :: rest => .item v.toOutline (Value.toItems rest)

def Value.toMembers : List (String × Value) → Members
  | [] => .closed
  | (k, v) :: rest => .member (some k) v.toOutline (Value.toMembers rest)
end

end LintGate.Json
