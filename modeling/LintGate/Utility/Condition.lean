import LintGate.Utility.Effect

/-!
Conditions on texts, numbers and files, written as a list of words. A word that could be an operator
is an operand where nothing follows it that an operator needs.
-/

namespace LintGate.Condition

/-- What an operator takes. -/
inductive OperatorKind
  | unary
  | binary
  | negation
  | conjunction
  | disjunction
  | opening
  | closing
  deriving DecidableEq

/-- What kind of operator a word is, if it is one. -/
def operatorKind? (s : String) : Option OperatorKind :=
  if ["-r", "-w", "-x", "-e", "-f", "-d", "-c", "-b", "-p", "-u", "-g", "-k", "-s", "-t", "-z",
    "-n", "-h", "-L", "-O", "-G", "-S"].contains s then some .unary
  else if ["=", "!=", "<", ">", "-eq", "-ne", "-ge", "-gt", "-le", "-lt", "-nt", "-ot",
    "-ef"].contains s then some .binary
  else match s with
    | "!" => some .negation
    | "-a" => some .conjunction
    | "-o" => some .disjunction
    | "(" => some .opening
    | ")" => some .closing
    | _ => none

/-- What a condition starts with. -/
inductive Head
  | nothing
  | operand
  | operator (kind : OperatorKind)
  deriving DecidableEq

/-- Whether a unary operator at the start of these words is an operand: nothing follows it, or a
binary operator and its second operand do. -/
def isOperand : List String → Bool
  | [] => true
  | [_] => true
  | [_, _] => false
  | _ :: next :: _ => operatorKind? next == some .binary

/-- What the words start with. -/
def head (words : List String) : Head :=
  match words with
  | [] => .nothing
  | word :: rest =>
    match operatorKind? word with
    | none => .operand
    | some .unary => if isOperand words then .operand else .operator .unary
    | some .opening => if rest.isEmpty then .operand else .operator .opening
    | some kind => .operator kind

/-- The integer that a word is. -/
def integer (s : String) : Except String Int :=
  match Text.leadingInteger? false s.toList with
  | some (n, rest) =>
    let fits := Int64.minValue.toInt ≤ n && n ≤ Int64.maxValue.toInt
    if rest.all Text.isNumberSpace && fits then .ok n
    else .error s!"Illegal number: {s}"
  | none => .error s!"Illegal number: {s}"

/-- Whether a file is as a unary operator asks. -/
def fileHolds (c : Call) (operator word : String) : Bool :=
  if (Device.ofName? word).isSome then ["-e", "-r", "-w", "-c"].contains operator
  else
    match c.find word with
    | .error _ => false
    | .ok t =>
      match operator with
      | "-d" => t.isDirectory
      | "-f" => t.isFile
      | "-x" =>
        match t with
        | .file _ executable => executable
        | _ => true
      | "-s" =>
        match t with
        | .file content _ => !content.isEmpty
        | _ => true
      | operator => ["-e", "-r", "-w", "-O", "-G"].contains operator

/-- Whether a unary operator holds of a word. -/
def unaryHolds (c : Call) (operator word : String) : Except String Bool :=
  match operator with
  | "-z" => .ok word.isEmpty
  | "-n" => .ok !word.isEmpty
  | "-t" => (integer word).map fun _ => false
  | operator => .ok (fileHolds c operator word)

/-- Whether two words name one file. -/
def sameFile (c : Call) (first second : String) : Bool :=
  let names (word : String) : Option (List String) :=
    (FileTree.place c.files c.directory (Call.path word)).toOption.map (·.names)
  (names first).isSome && names first == names second

/-- Whether a binary operator holds of two words. -/
def binaryHolds (c : Call) (first operator second : String) : Except String Bool := do
  let numbers (holds : Int → Int → Bool) : Except String Bool := do
    let a ← integer first
    let b ← integer second
    return holds a b
  match operator with
  | "=" => return first == second
  | "!=" => return first != second
  | "<" => return first < second
  | ">" => return second < first
  | "-eq" => numbers (· == ·)
  | "-ne" => numbers (· != ·)
  | "-lt" => numbers (· < ·)
  | "-le" => numbers (· ≤ ·)
  | "-gt" => numbers (· > ·)
  | "-ge" => numbers (· ≥ ·)
  | "-ef" => return sameFile c first second
  | "-nt" => return (c.find first).isOk && !(c.find second).isOk
  | _ => return !(c.find first).isOk && (c.find second).isOk

mutual
/-- Whether a disjunction holds, and the words from its last one on. -/
def disjunction (c : Call) : (fuel : Nat) → List String → Except String (Bool × List String)
  | 0, words => .ok (false, words)
  | fuel + 1, words => do
    let (first, left) ← conjunction c fuel words
    match head left.tail with
    | .operator .disjunction =>
      let (second, left) ← disjunction c fuel (left.drop 2)
      return (first || second, left)
    | _ => return (first, left)

/-- Whether a conjunction holds. -/
def conjunction (c : Call) : (fuel : Nat) → List String → Except String (Bool × List String)
  | 0, words => .ok (false, words)
  | fuel + 1, words => do
    let (first, left) ← negation c fuel words
    match head left.tail with
    | .operator .conjunction =>
      let (second, left) ← conjunction c fuel (left.drop 2)
      return (first && second, left)
    | _ => return (first, left)

/-- Whether a condition holds that may be negated. -/
def negation (c : Call) : (fuel : Nat) → List String → Except String (Bool × List String)
  | 0, words => .ok (false, words)
  | fuel + 1, words =>
    match head words with
    | .operator .negation =>
      if words.tail.isEmpty then .ok (true, words)
      else do
        let (found, left) ← negation c fuel words.tail
        return (!found, left)
    | _ => primary c fuel words

/-- Whether a condition without connectives holds. -/
def primary (c : Call) : (fuel : Nat) → List String → Except String (Bool × List String)
  | 0, words => .ok (false, words)
  | fuel + 1, words =>
    match head words, words with
    | .nothing, _ => .ok (false, words)
    | .operator .opening, _ :: rest =>
      if head rest == .operator .closing then .ok (false, rest)
      else do
        let (found, left) ← disjunction c fuel rest
        if head left.tail == .operator .closing then return (found, left.tail)
        else throw "closing paren expected"
    | .operator .unary, operator :: rest =>
      match rest with
      | word :: _ => do return (← unaryHolds c operator word, rest)
      | [] => .error s!"{operator}: argument expected"
    | _, first :: rest =>
      match head rest, rest with
      | .operator .binary, operator :: after =>
        match after with
        | second :: _ => do return (← binaryHolds c first operator second, after)
        | [] => .error s!"{operator}: argument expected"
      | _, _ => .ok (!first.isEmpty, words)
    | _, [] => .ok (false, words)
end

/-- Whether all of the words are a condition that holds. -/
def whole (c : Call) (words : List String) : Except String Bool := do
  let (found, left) ← disjunction c (4 * words.length + 4) words
  match left with
  | word :: _ :: _ => throw s!"{word}: unexpected operator"
  | _ => return found

/-- Whether the words are a condition that holds. Parentheses around all of them and a negation in
front of three or four are taken first. -/
def holds (c : Call) : (fuel : Nat) → List String → Except String Bool
  | 0, _ => .ok false
  | fuel + 1, words =>
    match words with
    | [] => .ok false
    | first :: rest =>
      let isBinary := words.length == 3 && (rest.head?.bind operatorKind?) == some .binary
      if isBinary || (words.length != 3 && words.length != 4) then whole c words
      else if first == "(" && rest.getLast? == some ")" then whole c rest.dropLast
      else if first == "!" then (holds c fuel rest).map (!·)
      else whole c words

/-- The exit status of a condition: 2 where it is none. -/
def effect (c : Call) (prefixed : String → String) : Effect :=
  let words :=
    if c.name != "[" then some c.arguments
    else if c.arguments.getLast? == some "]" then some c.arguments.dropLast
    else none
  match words with
  | none => .failing 2 (prefixed "missing ]")
  | some words =>
    match holds c (words.length + 1) words with
    | .ok found => .exit (if found then 0 else 1)
    | .error message => .failing 2 (prefixed message)

end LintGate.Condition
