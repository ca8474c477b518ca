import LintGate.Shell.Source
import LintGate.Text.Digits

/-!
How words and other tokens are taken from a script.
-/

namespace LintGate.Shell

/-- In which surroundings the characters of a word stand. -/
inductive Quoting
  | none
  /-- Between braces. -/
  | braces
  /-- Between double quotes. -/
  | double
  /-- Between braces that stand between double quotes, in a document or in an expression. -/
  | doubleBraces
  | document
  /-- In an arithmetic expression, in so many parentheses. -/
  | expression (depth : Nat)
  deriving DecidableEq

namespace Quoting

/-- Whether what stands there is quoted. -/
def isQuoted : Quoting → Bool
  | none => false
  | braces => false
  | _ => true

/-- Whether a backslash takes its meaning from a character. -/
def escapes (q : Quoting) (c : Char) : Bool :=
  match q with
  | none => true
  | braces => true
  | double => "$\x60\\\"".toList.contains c
  | doubleBraces => "$\x60\\\"\x7d".toList.contains c
  | document => "$\x60\\".toList.contains c
  | expression _ => "$\x60\\\"".toList.contains c

/-- What is said of a text that ends there; in some surroundings it may. -/
def fault? : Quoting → Option String
  | none => .none
  | document => .none
  | braces => "Missing '\x7d'"
  | expression _ => "Missing '))'"
  | _ => "Unterminated quoted string"

end Quoting

/-- How statements are taken from a script, inside of others. -/
structure Grammar where
  /-- More than the number of characters of the script. -/
  size : Nat
  /-- A list of statements, and whether it may be empty. -/
  list : (mayBeEmpty : Bool) → Parser Statement
  command : Parser Statement

/-- A character that ends a word. -/
def isBreak (c : Char) : Bool :=
  " \t\n;&|()<>".toList.contains c

/-- A parameter whose name is no letter. -/
def isSpecial (c : Char) : Bool :=
  c.isDigit || "#?$!@*-".toList.contains c

namespace Parser

/-- Runs a parser on another text. -/
def within (text : List Char) (line : Nat) (p : Parser α) : Parser α := do
  let outer ← get
  set ({ left := text, line := line } : Source)
  let found ← p
  set outer
  return found

/-- The characters up to a single quote, which goes too. -/
def singleQuoted : (fuel : Nat) → WordDraft → Parser WordDraft
  | 0, d => return d
  | fuel + 1, d => do
    match ← next? with
    | none => fail "Unterminated quoted string"
    | some '\'' => return d
    | some c => singleQuoted fuel (d.push true c)

/-- The characters up to a backquote, which goes too; backslashes before some go away. -/
def backquoted (quoted : Bool) : (fuel : Nat) → Parser (List Char)
  | 0 => return []
  | fuel + 1 => do
    match ← next? with
    | none => fail "EOF in backquote substitution"
    | some '\x60' => return []
    | some '\\' =>
      match ← next? with
      | none => fail "EOF in backquote substitution"
      | some '\n' => backquoted quoted fuel
      | some c =>
        let isFree := c == '\\' || c == '\x60' || c == '$' || (quoted && c == '"')
        return (if isFree then [c] else ['\\', c]) ++ (← backquoted quoted fuel)
    | some c => return c :: (← backquoted quoted fuel)

/-- The statements up to a closing parenthesis, which goes too. -/
def substitution (g : Grammar) : Parser Statement := do
  let body ← g.list true
  let s ← get
  match s.ahead with
  | some t =>
    if !t.isA ")" then unexpected t ")"
    set { s with ahead := none }
    return body
  | none => fail "end of file unexpected (expecting \")\")"

/-- What stands in the braces after the name of a parameter. -/
def use (q : Quoting) (inner : Quoting → WordDraft → Parser WordDraft) : Parser Use := do
  let outer := if q.isQuoted then Quoting.doubleBraces else .braces
  let word (q : Quoting) : Parser Word := return (← inner q {}).word
  if ← skip '\x7d' then return .plain
  let orEmpty ← skip ':'
  if ← skip '-' then return .onLack .fallback orEmpty (← word outer)
  if ← skip '=' then return .onLack .assign orEmpty (← word outer)
  if ← skip '?' then return .onLack .demand orEmpty (← word outer)
  if ← skip '+' then return .onLack .replace orEmpty (← word outer)
  if !orEmpty then
    if ← skip '#' then
      let longest ← skip '#'
      return .dropStart longest (← word .braces)
    if ← skip '%' then
      let longest ← skip '%'
      return .dropEnd longest (← word .braces)
  let _ ← word outer
  return .bad

/-- A parameter in braces, after the first of them. -/
def braced (size : Nat) (q : Quoting) (inner : Quoting → WordDraft → Parser WordDraft) :
    Parser WordPart := do
  let bad : Parser WordPart := do
    let _ ← inner (if q.isQuoted then .doubleBraces else .braces) {}
    return .parameter "" .bad q.isQuoted
  let named (name : List Char) : Parser WordPart :=
    return .parameter (String.ofList name) (← use q inner) q.isQuoted
  let measured (name : List Char) : Parser WordPart := do
    if ← skip '\x7d' then return .parameter (String.ofList name) .length q.isQuoted else bad
  match ← peek? with
  | none => bad
  | some c =>
    if c.isDigit then named (← takeWhile Char.isDigit size)
    else if isNameChar c then named (← takeWhile isNameChar size)
    else if c == '#' then
      let _ ← next?
      match (← get).left with
      | d :: left =>
        if isNameChar d then
          measured (← takeWhile (if d.isDigit then Char.isDigit else isNameChar) size)
        else if d != '\x7d' && left.head? == some '\x7d' then
          if !isSpecial d then bad
          else
            let _ ← next?
            measured [d]
        else named ['#']
      | [] => bad
    else if isSpecial c then
      let _ ← next?
      named [c]
    else bad

/-- What a dollar sign begins; before most characters it begins nothing. -/
def dollar (g : Grammar) (q : Quoting) (inner : Quoting → WordDraft → Parser WordDraft)
    (d : WordDraft) : Parser WordDraft := do
  let named (name : List Char) := d.add (.parameter (String.ofList name) .plain q.isQuoted)
  match ← peek? with
  | some '(' =>
    let _ ← next?
    if ← skip '(' then
      let expression ← inner (.expression 0) {}
      return d.add (.value expression.word q.isQuoted)
    else return d.add (.output (← substitution g) q.isQuoted)
  | some '\x7b' =>
    let _ ← next?
    return d.add (← braced g.size q inner)
  | some c =>
    if isSpecial c then
      let _ ← next?
      return named [c]
    else if isNameChar c then return named (← takeWhile isNameChar g.size)
    else return d.push q.isQuoted '$'
  | none => return d.push q.isQuoted '$'

/-- The pieces of a word up to the end of its surroundings. -/
def pieces (g : Grammar) : (fuel : Nat) → Quoting → WordDraft → Parser WordDraft
  | 0, _, d => return d
  | fuel + 1, q, d => do
    let more (d : WordDraft) : Parser WordDraft := pieces g fuel q d
    match ← peek? with
    | none =>
      match q.fault? with
      | some message => fail message
      | none => return d
    | some c =>
      if q == .none && isBreak c then return d
      let _ ← next?
      match c with
      | '\\' =>
        match ← next? with
        | none => more (d.push true '\\')
        | some e =>
          if q.escapes e then more (d.push true e) else more ((d.push true '\\').push true e)
      | '\'' =>
        if q.isQuoted then more (d.push true c)
        else more (← singleQuoted g.size (d.add (.text [] true)))
      | '"' =>
        match q with
        | .double => return d
        | .document => more (d.push true c)
        | .doubleBraces => more d
        | .expression _ => more d
        | _ =>
          match (← pieces g fuel .double {}).word with
          | [.parameter "@" .plain quoted] => more (d.add (.parameter "@" .plain quoted))
          | inner => more (d.append (.text [] true :: inner))
      | '\x7d' =>
        match q with
        | .braces => return d
        | .doubleBraces => return d
        | _ => more (d.push q.isQuoted c)
      | '$' => more (← dollar g q (pieces g fuel) d)
      | '\x60' =>
        let text ← backquoted q.isQuoted g.size
        let body ← within text 1 (g.list true)
        more (d.add (.output body q.isQuoted))
      | '(' =>
        match q with
        | .expression depth => pieces g fuel (.expression (depth + 1)) (d.push true c)
        | _ => more (d.push q.isQuoted c)
      | ')' =>
        match q with
        | .expression 0 => if ← skip ')' then return d else more (d.push true c)
        | .expression (depth + 1) => pieces g fuel (.expression depth) (d.push true c)
        | _ => more (d.push q.isQuoted c)
      | c => more (d.push q.isQuoted c)

/-- The rest of a redirection's sign, after its first character. -/
def redirection (fd : Option Nat) (first : Char) : Parser Token := do
  if first == '>' then
    let fd := fd.getD 1
    if ← skip '>' then return .redirect fd (.file .append)
    if ← skip '|' then return .redirect fd (.file .overwrite)
    if ← skip '&' then return .redirect fd .duplicate
    return .redirect fd (.file .write)
  else
    let fd := fd.getD 0
    if ← skip '<' then return .redirect fd (.document (← skip '-'))
    if ← skip '&' then return .redirect fd .duplicate
    if ← skip '>' then return .redirect fd (.file .update)
    return .redirect fd (.file .read)

/-- A word, or a redirection of the descriptor that it names. -/
def wordOrRedirection (g : Grammar) : Parser Token := do
  let w := (← pieces g g.size .none {}).word
  match w, ← peek? with
  | [.text [digit] false], some c =>
    if digit.isDigit && (c == '<' || c == '>') then
      let _ ← next?
      redirection (some (Text.digitValue digit)) c
    else return .word w
  | _, _ => return .word w

/-- The next token. -/
def token (g : Grammar) : Parser Token := do
  let s ← get
  match s.ahead with
  | some t =>
    set { s with ahead := none }
    return t
  | none =>
    let _ ← takeWhile (fun c => c == ' ' || c == '\t') g.size
    if (← peek?) == some '#' then
      modify fun s => { s with left := s.left.dropWhile (· != '\n') }
    match (← get).left with
    | [] => return .finish
    | c :: _ =>
      let doubled (single double : String) : Parser Token := do
        let _ ← next?
        return .operator (if ← skip c then double else single)
      match c with
      | '\n' =>
        let _ ← next?
        return .newline
      | '&' => doubled "&" "&&"
      | '|' => doubled "|" "||"
      | ';' => doubled ";" ";;"
      | '(' =>
        let _ ← next?
        return .operator "("
      | ')' =>
        let _ ← next?
        return .operator ")"
      | c =>
        if c == '<' || c == '>' then
          let _ ← next?
          redirection none c
        else wordOrRedirection g

/-- Gives a token back. -/
def putBack (t : Token) : Parser Unit :=
  modify fun s => { s with ahead := some t }

/-- The next token that is no end of a line. -/
def tokenBelow (g : Grammar) : (fuel : Nat) → Parser Token
  | 0 => return .finish
  | fuel + 1 => do
    match ← token g with
    | .newline => tokenBelow g fuel
    | t => return t

/-- The lines up to the one that is `mark`, those after it, and the number of lines that go. -/
def documentLines (mark : List Char) (tabs : Bool) :
    List (List Char) → List Char × List (List Char) × Nat
  | [] => ([], [], 0)
  | line :: rest =>
    let line := if tabs then line.dropWhile (· == '\t') else line
    if line = mark then ([], rest, 1)
    else
      let (body, after, count) := documentLines mark tabs rest
      (line ++ (if rest.isEmpty then [] else '\n' :: body), after, count + 1)

/-- A document, which begins on the next line and ends with the mark. Its lines are taken out. -/
def document (g : Grammar) (tabs : Bool) (mark : Word) : Parser Word := do
  let s ← get
  let here := s.left.takeWhile (· != '\n')
  match s.left.drop here.length with
  | [] => return []
  | _ :: below =>
    let (text, after, count) := documentLines mark.chars tabs (below.splitOn '\n')
    let left := if after.isEmpty then here ++ ['\n'] else here ++ '\n' :: ['\n'].intercalate after
    set { s with left := left, removed := s.removed + count }
    if mark.isQuoted then return [.text text true]
    else return (← within text (s.line + 1) (pieces g g.size .document {})).word

/-- The redirection that a token begins. -/
def redirectOf (g : Grammar) (fd : Nat) (kind : RedirectKind) : Parser Redirect := do
  match ← token g with
  | .word w =>
    match kind with
    | .file opening => return .file fd opening w
    | .duplicate => return .duplicate fd w
    | .document tabs => return .document fd (← document g tabs w)
  | t => unexpected t

end Parser

end LintGate.Shell
