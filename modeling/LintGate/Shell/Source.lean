import LintGate.Shell.Statement

/-!
The text of a script while it is parsed: what is left of it, the line that has been reached, and a
token that was looked at but not taken.
-/

namespace LintGate.Shell

/-- What a redirection does with the word after it. -/
inductive RedirectKind
  | file (opening : Opening)
  | duplicate
  /-- The word ends a document; leading tabs may be stripped from its lines. -/
  | document (tabs : Bool)

inductive Token
  | word (w : Word)
  | operator (s : String)
  | newline
  | redirect (fd : Nat) (kind : RedirectKind)
  | finish

/-- Words that begin, end or divide statements. -/
def keywords : List String :=
  ["!", "case", "do", "done", "elif", "else", "esac", "fi", "for", "if", "in", "then", "until",
    "while", "\x7b", "\x7d"]

/-- Commands of the shell that no function can replace, and that a script does not survive if they
are misused. -/
def specialCommands : List String :=
  [".", ":", "break", "continue", "eval", "exec", "exit", "export", "local", "readonly", "return",
    "set", "shift", "times", "trap", "unset"]

namespace Token

/-- The keyword that a token is where keywords can stand. -/
def keyword? : Token → Option String
  | .word w => w.plain?.filter keywords.contains
  | _ => none

/-- Whether a token is this keyword or operator. -/
def isA (t : Token) (s : String) : Bool :=
  match t with
  | .operator o => o == s
  | t => t.keyword? == some s

/-- Whether a list of statements ends before the token. -/
def closesList (t : Token) : Bool :=
  match t with
  | .finish => true
  | .operator o => o == ")" || o == ";;"
  | t => (t.keyword?.map
      ["do", "done", "elif", "else", "esac", "fi", "then", "\x7d"].contains).getD false

/-- How a token is called in messages. -/
def title (t : Token) : String :=
  match t with
  | .finish => "end of file"
  | .newline => "newline"
  | .redirect _ _ => "redirection"
  | .operator o => s!"\"{o}\""
  | t => (t.keyword?.map fun k => s!"\"{k}\"").getD "word"

end Token

/-- A text that is no script, and the line up to which it could be parsed. -/
structure SyntaxError where
  line : Nat
  message : String

structure Source where
  left : List Char
  line : Nat := 1
  /-- Lines of documents that were taken out below the line that is being parsed. -/
  removed : Nat := 0
  ahead : Option Token := none

abbrev Parser := StateT Source (Except SyntaxError)

namespace Parser

/-- Gives up. -/
def fail (message : String) : Parser α := do
  throw ⟨(← get).line, message⟩

/-- Gives up because of a token; another one may have been expected. -/
def unexpected (t : Token) (wanted : Option String := none) : Parser α :=
  fail <| s!"{t.title} unexpected" ++
    match wanted with
    | some wanted => s!" (expecting \"{wanted}\")"
    | none => ""

/-- Takes one character. -/
def next? : Parser (Option Char) := do
  let s ← get
  match s.left with
  | [] => return none
  | '\n' :: left =>
    set { s with left := left, line := s.line + 1 + s.removed, removed := 0 }
    return some '\n'
  | c :: left =>
    set { s with left := left }
    return some c

/-- What is left, without line ends that a backslash hides. -/
def joined : List Char → Nat → List Char × Nat
  | '\\' :: '\n' :: left, hidden => joined left (hidden + 1)
  | left, hidden => (left, hidden)

/-- Passes over line ends that a backslash hides. -/
def joinLines : Parser Unit :=
  modify fun s =>
    let (left, hidden) := joined s.left 0
    if hidden = 0 then s
    else { s with left := left, line := s.line + hidden + s.removed, removed := 0 }

/-- The character that comes next. -/
def peek? : Parser (Option Char) := do
  joinLines
  return (← get).left.head?

/-- Takes the character `c` if it comes next. -/
def skip (c : Char) : Parser Bool := do
  if (← peek?) == some c then
    let _ ← next?
    return true
  else return false

/-- Takes as many characters as fulfil a condition, at most `count`. -/
def takeWhile (p : Char → Bool) : (count : Nat) → Parser (List Char)
  | 0 => return []
  | count + 1 => do
    match ← peek? with
    | some c =>
      if p c then
        let _ ← next?
        return c :: (← takeWhile p count)
      else return []
    | none => return []

/-- More than the number of characters that are left. -/
def size : Parser Nat :=
  return (← get).left.length + 1

end Parser

/-- A word while its characters are taken. -/
structure WordDraft where
  /-- The pieces that are complete, the last one first. -/
  pieces : List WordPart := []
  /-- The characters of the piece that is not, the last one first. -/
  chars : List Char := []
  quoted : Bool := false

namespace WordDraft

/-- The pieces with the text that has been taken, the last one first. -/
def flushed (d : WordDraft) : List WordPart :=
  if d.chars.isEmpty then d.pieces else .text d.chars.reverse d.quoted :: d.pieces

/-- The draft with one more character. -/
def push (d : WordDraft) (quoted : Bool) (c : Char) : WordDraft :=
  if d.quoted == quoted then { d with chars := c :: d.chars } else ⟨d.flushed, [c], quoted⟩

/-- The draft with one more piece. -/
def add (d : WordDraft) (p : WordPart) : WordDraft :=
  ⟨p :: d.flushed, [], d.quoted⟩

/-- The draft with a word after it. -/
def append (d : WordDraft) (w : Word) : WordDraft :=
  ⟨w.reverse ++ d.flushed, [], d.quoted⟩

def word (d : WordDraft) : Word :=
  d.flushed.reverse

end WordDraft

end LintGate.Shell
