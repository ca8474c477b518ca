/-!
Statements of a shell script, and the words that they are made of. All texts are octets.
-/

namespace LintGate.Shell

/-- What to do about a parameter that is unset, or empty if that counts as unset. -/
inductive Lack
  /-- Another text stands in. -/
  | fallback
  /-- Another text stands in and becomes the value. -/
  | assign
  /-- The script ends with a message. -/
  | demand
  /-- A parameter that does not lack a value has another text stand in. -/
  | replace
  deriving DecidableEq, Repr

/-- How a redirection to or from a file opens it. -/
inductive Opening
  | read
  | write
  /-- As `write`, even where existing files are protected. -/
  | overwrite
  | append
  | update
  deriving DecidableEq, Repr

mutual

/-- A piece of a word. What is quoted is neither split into fields nor a pattern. -/
inductive WordPart
  | text (chars : List Char) (quoted : Bool)
  | parameter (name : String) (use : Use) (quoted : Bool)
  /-- What statements print. -/
  | output (body : Statement) (quoted : Bool)
  /-- The value of an expression. -/
  | value (expression : List WordPart) (quoted : Bool)

/-- What becomes of a parameter. -/
inductive Use
  | plain
  | length
  | onLack (lack : Lack) (orEmpty : Bool) (word : List WordPart)
  /-- A match of the pattern at the start is taken off. -/
  | dropStart (longest : Bool) (pattern : List WordPart)
  /-- A match of the pattern at the end is taken off. -/
  | dropEnd (longest : Bool) (pattern : List WordPart)
  /-- Something that cannot be carried out. -/
  | bad

/-- A change of what a descriptor leads to. -/
inductive Redirect
  | file (fd : Nat) (opening : Opening) (name : List WordPart)
  /-- To what another descriptor leads, or nowhere. -/
  | duplicate (fd : Nat) (source : List WordPart)
  /-- To a text in the script. -/
  | document (fd : Nat) (body : List WordPart)

/-- Lines are those on which a statement begins; they appear in messages. -/
inductive Statement
  | command (line : Nat) (assignments : List (String × List WordPart))
      (words : List (List WordPart)) (redirects : List Redirect)
  | redirected (line : Nat) (body : Statement) (redirects : List Redirect)
  | sequence (body : List Statement)
  | pipeline (stages : List Statement)
  | both (first second : Statement)
  | either (first second : Statement)
  | negation (body : Statement)
  | background (body : Statement)
  | subshell (body : Statement)
  | choice (condition consequent alternative : Statement)
  /-- The body runs as long as the condition succeeds, or as long as it fails. -/
  | loop (wanted : Bool) (condition body : Statement)
  /-- The body runs once for each field of the words; without words, for each argument. -/
  | each (line : Nat) (name : String) (words : Option (List (List WordPart))) (body : Statement)
  /-- The first branch of which a pattern matches runs. -/
  | select (line : Nat) (word : List WordPart)
      (branches : List (List (List WordPart) × Statement))
  | define (name : String) (body : Statement)

end

instance : Inhabited Statement := ⟨.sequence []⟩

abbrev Word := List WordPart

namespace Word

/-- The text of a word without quotes and expansions. -/
def plain? : Word → Option String
  | [.text chars false] => some (String.ofList chars)
  | _ => none

/-- The characters in a word without expansions. -/
def chars (w : Word) : List Char :=
  w.flatMap fun
    | .text chars _ => chars
    | _ => []

/-- Whether a part of the word is in quotes. -/
def isQuoted (w : Word) : Bool :=
  w.any fun
    | .text _ quoted => quoted
    | _ => false

end Word

/-- A character of a name. -/
def isNameChar (c : Char) : Bool :=
  c.isAlphanum || c == '_'

/-- Whether a text is the name of a variable. -/
def isName (cs : List Char) : Bool :=
  cs.all isNameChar && cs.head?.any fun c => !c.isDigit

/-- The name and value of an assignment. -/
def Word.assignment? (w : Word) : Option (String × Word) :=
  match w with
  | .text chars false :: rest =>
    let name := chars.takeWhile isNameChar
    match chars.drop name.length with
    | '=' :: value =>
      if !isName name then none
      else some (String.ofList name, if value.isEmpty then rest else .text value false :: rest)
    | _ => none
  | _ => none

end LintGate.Shell
