import LintGate.Text.Digits

/-!
Arithmetic in scripts: integers of 64 bits, with operators, assignments and choices.
-/

namespace LintGate.Shell

/-- What a binary operator does with two integers. -/
inductive Operator
  | times | quotient | remainder
  | plus | minus
  | shiftLeft | shiftRight
  | lt | le | gt | ge
  | eq | ne
  | bitAnd
  | bitXor
  | bitOr
  deriving DecidableEq, Repr

inductive Expression
  | number (n : Int)
  | parameter (name : String)
  | negative (e : Expression)
  /-- One for zero, and zero for anything else. -/
  | negation (e : Expression)
  | complement (e : Expression)
  | binary (op : Operator) (first second : Expression)
  | both (first second : Expression)
  | either (first second : Expression)
  | choice (condition consequent alternative : Expression)
  /-- The operator joins the old value with the new one. -/
  | assign (name : String) (op : Option Operator) (e : Expression)

/-- The integer of 64 bits that ends with the same bits. -/
def wrap (n : Int) : Int :=
  Int.bmod n UInt64.size

/-- Whether an integer has 64 bits. -/
def isShort (n : Int) : Bool :=
  wrap n == n

/-- The integer nearest to `n` that has 64 bits. -/
def saturated (n : Int) : Int :=
  max Int64.minValue.toInt (min n Int64.maxValue.toInt)

namespace Operator

/-- Binding strength; operators of a lower level bind more tightly. -/
def level : Operator → Nat
  | times => 0
  | quotient => 0
  | remainder => 0
  | plus => 1
  | minus => 1
  | shiftLeft => 2
  | shiftRight => 2
  | lt => 3
  | le => 3
  | gt => 3
  | ge => 3
  | eq => 4
  | ne => 4
  | bitAnd => 5
  | bitXor => 6
  | bitOr => 7

def highestLevel : Nat := 7

/-- The bits of an integer as a natural number. -/
def bits (n : Int) : Nat :=
  (n % UInt64.size).toNat

/-- The result for two integers; none where there is a division by zero. -/
def apply (op : Operator) (a b : Int) : Option Int :=
  let truth (p : Bool) : Option Int := some (if p then 1 else 0)
  match op with
  | times => some (wrap (a * b))
  | quotient => if b = 0 then none else some (wrap (a.tdiv b))
  | remainder => if b = 0 then none else some (wrap (a.tmod b))
  | plus => some (wrap (a + b))
  | minus => some (wrap (a - b))
  | shiftLeft => some (wrap (a * Nat.pow 2 (bits b % 64)))
  | shiftRight => some (a / Nat.pow 2 (bits b % 64))
  | lt => truth (a < b)
  | le => truth (a ≤ b)
  | gt => truth (a > b)
  | ge => truth (a ≥ b)
  | eq => truth (a == b)
  | ne => truth (a != b)
  | bitAnd => some (wrap (Nat.land (bits a) (bits b)))
  | bitXor => some (wrap (Nat.xor (bits a) (bits b)))
  | bitOr => some (wrap (Nat.lor (bits a) (bits b)))

/-- How operators are written. -/
def ofText? : String → Option Operator
  | "*" => some times
  | "/" => some quotient
  | "%" => some remainder
  | "+" => some plus
  | "-" => some minus
  | "<<" => some shiftLeft
  | ">>" => some shiftRight
  | "<" => some lt
  | "<=" => some le
  | ">" => some gt
  | ">=" => some ge
  | "==" => some eq
  | "!=" => some ne
  | "&" => some bitAnd
  | "^" => some bitXor
  | "|" => some bitOr
  | _ => none

/-- The operator of an assignment that joins two values. -/
def ofAssignment? : String → Option Operator
  | "*=" => some times
  | "/=" => some quotient
  | "%=" => some remainder
  | "+=" => some plus
  | "-=" => some minus
  | "<<=" => some shiftLeft
  | ">>=" => some shiftRight
  | "&=" => some bitAnd
  | "^=" => some bitXor
  | "|=" => some bitOr
  | _ => none

end Operator

namespace Expression

/-- The pieces of an expression's text. -/
inductive Piece
  | number (n : Int)
  | name (s : String)
  | sign (s : String)
  /-- A character that means nothing. -/
  | bad
  deriving DecidableEq

/-- The signs of more than one character, longer ones first. -/
def longSigns : List String :=
  ["<<=", ">>=", "<<", ">>", "<=", ">=", "==", "!=", "&&", "||", "*=", "/=", "%=", "+=", "-=", "&=",
    "^=", "|="]

/-- The signs of one character. -/
def shortSigns : List Char := "*/%+-<>=!&|^~?:()".toList

/-- The pieces of a text. -/
def piecesOf : (fuel : Nat) → List Char → List Piece
  | 0, _ => []
  | _, [] => []
  | fuel + 1, c :: rest =>
    if c == ' ' || c == '\t' || c == '\n' then piecesOf fuel rest
    else if c.isDigit then
      match Text.leadingInteger? true (c :: rest) with
      | some (n, rest) => .number (saturated n) :: piecesOf fuel rest
      | none => [.bad]
    else if c.isAlpha || c == '_' then
      let name := (c :: rest).takeWhile fun c => c.isAlphanum || c == '_'
      .name (String.ofList name) :: piecesOf fuel ((c :: rest).drop name.length)
    else
      match longSigns.find? fun s => s.toList.isPrefixOf (c :: rest) with
      | some s => .sign s :: piecesOf fuel ((c :: rest).drop s.length)
      | none =>
        if shortSigns.contains c then .sign (String.singleton c) :: piecesOf fuel rest
        else .bad :: piecesOf fuel rest

abbrev Found := Except String (Expression × List Piece)

mutual

/-- The expression at the start of the pieces, with an assignment if there is one. -/
def assignment : (fuel : Nat) → List Piece → Found
  | 0, _ => .error "expecting primary"
  | fuel + 1, pieces =>
    match pieces with
    | .name name :: .sign s :: rest =>
      match s, Operator.ofAssignment? s with
      | "=", _ => (assignment fuel rest).map fun (e, rest) => (.assign name none e, rest)
      | _, some op => (assignment fuel rest).map fun (e, rest) => (.assign name (some op) e, rest)
      | _, none => choiceOf fuel pieces
    | pieces => choiceOf fuel pieces

/-- An expression without assignments outside of parentheses and choices. -/
def choiceOf : (fuel : Nat) → List Piece → Found
  | 0, _ => .error "expecting primary"
  | fuel + 1, pieces => do
    let (condition, pieces) ← disjunction fuel pieces
    match pieces with
    | .sign "?" :: rest =>
      let (consequent, rest) ← assignment fuel rest
      match rest with
      | .sign ":" :: rest =>
        let (alternative, rest) ← choiceOf fuel rest
        return (.choice condition consequent alternative, rest)
      | _ => throw "expecting ':'"
    | pieces => return (condition, pieces)

/-- Conditions of which one has to hold. -/
def disjunction : (fuel : Nat) → List Piece → Found
  | 0, _ => .error "expecting primary"
  | fuel + 1, pieces => do
    let (first, pieces) ← conjunction fuel pieces
    match pieces with
    | .sign "||" :: rest =>
      let (second, rest) ← disjunction fuel rest
      return (.either first second, rest)
    | pieces => return (first, pieces)

/-- Conditions that all have to hold. -/
def conjunction : (fuel : Nat) → List Piece → Found
  | 0, _ => .error "expecting primary"
  | fuel + 1, pieces => do
    let (first, pieces) ← operands fuel Operator.highestLevel pieces
    match pieces with
    | .sign "&&" :: rest =>
      let (second, rest) ← conjunction fuel rest
      return (.both first second, rest)
    | pieces => return (first, pieces)

/-- Operands that operators up to a level join. -/
def operands : (fuel : Nat) → (level : Nat) → List Piece → Found
  | 0, _, _ => .error "expecting primary"
  | fuel + 1, level, pieces => do
    let (first, pieces) ←
      if level = 0 then primary fuel pieces else operands fuel (level - 1) pieces
    moreOperands fuel level first pieces

/-- Further operands that operators of a level join to a first one. -/
def moreOperands : (fuel : Nat) → (level : Nat) → Expression → List Piece → Found
  | 0, _, _, _ => .error "expecting primary"
  | fuel + 1, level, first, pieces =>
    match pieces with
    | .sign s :: rest =>
      match Operator.ofText? s with
      | some op =>
        if op.level = level then do
          let (second, rest) ←
            if level = 0 then primary fuel rest else operands fuel (level - 1) rest
          moreOperands fuel level (.binary op first second) rest
        else .ok (first, pieces)
      | none => .ok (first, pieces)
    | pieces => .ok (first, pieces)

/-- A number, a parameter, an expression in parentheses, or one of them after a sign. -/
def primary : (fuel : Nat) → List Piece → Found
  | 0, _ => .error "expecting primary"
  | fuel + 1, pieces =>
    match pieces with
    | .number n :: rest => .ok (.number n, rest)
    | .name name :: rest => .ok (.parameter name, rest)
    | .sign "(" :: rest => do
      let (e, rest) ← assignment fuel rest
      match rest with
      | .sign ")" :: rest => return (e, rest)
      | _ => throw "expecting ')'"
    | .sign "+" :: rest => primary fuel rest
    | .sign "-" :: rest => (primary fuel rest).map fun (e, rest) => (.negative e, rest)
    | .sign "!" :: rest => (primary fuel rest).map fun (e, rest) => (.negation e, rest)
    | .sign "~" :: rest => (primary fuel rest).map fun (e, rest) => (.complement e, rest)
    | _ => .error "expecting primary"

end

/-- The expression that is written in a text, or what was expected instead. -/
def ofText (cs : List Char) : Except String Expression := do
  let pieces := piecesOf (cs.length + 1) cs
  match ← assignment (16 * (pieces.length + 1)) pieces with
  | (e, []) => return e
  | _ => throw "expecting EOF"

/-- How the value of an expression depends on the values of parameters. -/
structure Evaluator (m : Type → Type) where
  read : String → m Int
  write : String → Int → m Unit
  /-- There was a division by zero. -/
  fault : m Int

/-- The value of an expression. -/
def eval {m : Type → Type} [Monad m] (v : Evaluator m) : Expression → m Int
  | number n => return n
  | parameter name => v.read name
  | negative e => return wrap (-(← e.eval v))
  | negation e => return if (← e.eval v) = 0 then 1 else 0
  | complement e => return -(← e.eval v) - 1
  | binary op first second => do
    let a ← first.eval v
    let b ← second.eval v
    match op.apply a b with
    | some n => return n
    | none => v.fault
  | both first second => do
    if (← first.eval v) = 0 then return 0
    return if (← second.eval v) = 0 then 0 else 1
  | either first second => do
    if (← first.eval v) ≠ 0 then return 1
    return if (← second.eval v) = 0 then 0 else 1
  | choice condition consequent alternative => do
    if (← condition.eval v) ≠ 0 then consequent.eval v else alternative.eval v
  | assign name op e => do
    let b ← e.eval v
    let n ← match op with
      | none => pure b
      | some op =>
        match op.apply (← v.read name) b with
        | some n => pure n
        | none => v.fault
    v.write name n
    return n

end Expression

end LintGate.Shell
