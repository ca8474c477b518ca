import LintGate.Shell.Words

/-!
How statements are taken from a script.
-/

namespace LintGate.Shell.Parser

/-- The redirections that come next. -/
def redirects (g : Grammar) : (fuel : Nat) → Parser (List Redirect)
  | 0 => return []
  | fuel + 1 => do
    match ← token g with
    | .redirect fd kind => return (← redirectOf g fd kind) :: (← redirects g fuel)
    | t =>
      putBack t
      return []

/-- Takes a keyword or operator that has to come next. -/
def expect (g : Grammar) (s : String) : Parser Unit := do
  let t ← token g
  if !t.isA s then unexpected t s

/-- What a command consists of, the last first. -/
structure CommandDraft where
  assignments : List (String × Word) := []
  words : List Word := []
  redirects : List Redirect := []

/-- A command, or the definition of a function. -/
def simple (g : Grammar) (line : Nat) : (fuel : Nat) → CommandDraft → Parser Statement
  | 0, _ => fail "word unexpected"
  | fuel + 1, d => do
    match ← token g with
    | .redirect fd kind =>
      simple g line fuel { d with redirects := (← redirectOf g fd kind) :: d.redirects }
    | .word w =>
      match d.words, w.assignment? with
      | [], some a => simple g line fuel { d with assignments := a :: d.assignments }
      | _, _ => simple g line fuel { d with words := w :: d.words }
    | t =>
      match t, d with
      | .operator "(", ⟨[], [w], []⟩ =>
        expect g ")"
        let name := (w.plain?).filter fun s => isName s.toList && !specialCommands.contains s
        match name with
        | none => fail "Bad function name"
        | some name =>
          putBack (← tokenBelow g g.size)
          return .define name (← g.command)
      | t, d =>
        putBack t
        return .command line d.assignments.reverse d.words.reverse d.redirects.reverse

/-- The words up to a token that is none. -/
def words (g : Grammar) : (fuel : Nat) → Parser (List Word)
  | 0 => return []
  | fuel + 1 => do
    match ← token g with
    | .word w => return w :: (← words g fuel)
    | t =>
      putBack t
      return []

/-- What follows the first condition of a choice. -/
def choice (g : Grammar) (condition : Statement) : (fuel : Nat) → Parser Statement
  | 0 => return condition
  | fuel + 1 => do
    expect g "then"
    let consequent ← g.list false
    let t ← token g
    if t.isA "elif" then
      return .choice condition consequent (← choice g (← g.list false) fuel)
    else if t.isA "else" then return .choice condition consequent (← g.list false)
    else
      putBack t
      return .choice condition consequent (.sequence [])

/-- What follows the word `for`. -/
def each (g : Grammar) (line : Nat) : Parser Statement := do
  let name ← token g
  match name with
  | .word w =>
    match w.plain?.filter fun s => isName s.toList with
    | none => fail "Bad for loop variable"
    | some name =>
      let t ← tokenBelow g g.size
      let found ←
        if t.isA "in" then
          let ws ← words g g.size
          match ← token g with
          | .newline => pure ()
          | t => if !t.isA ";" then unexpected t
          pure (some ws)
        else
          if !t.isA ";" then putBack t
          pure none
      let t ← tokenBelow g g.size
      if !t.isA "do" then unexpected t "do"
      return .each line name found (← g.list false)
  | _ => fail "Bad for loop variable"

/-- The patterns of a branch, of which the first has been taken. -/
def patterns (g : Grammar) (first : Token) : (fuel : Nat) → Parser (List Word)
  | 0 => return []
  | fuel + 1 => do
    match first with
    | .word w =>
      let t ← token g
      if t.isA "|" then return w :: (← patterns g (← token g) fuel)
      if !t.isA ")" then unexpected t ")"
      return [w]
    | t => unexpected t ")"

/-- The branches of a selection, up to its end. -/
def branches (g : Grammar) : (fuel : Nat) → Parser (List (List Word × Statement))
  | 0 => return []
  | fuel + 1 => do
    let t ← tokenBelow g g.size
    if t.isA "esac" then return []
    let first ← if t.isA "(" then token g else pure t
    let ps ← patterns g first g.size
    let body ← g.list true
    let t ← tokenBelow g g.size
    if t.isA "esac" then return [(ps, body)]
    if !t.isA ";;" then unexpected t ";;"
    return (ps, body) :: (← branches g fuel)

/-- The kinds of statements that begin with a keyword or a parenthesis. -/
def compound? (g : Grammar) (line : Nat) (t : Token) : Option (Parser Statement) :=
  if t.isA "if" then some do
    let s ← choice g (← g.list false) g.size
    expect g "fi"
    return s
  else if t.isA "while" || t.isA "until" then some do
    let condition ← g.list false
    expect g "do"
    let body ← g.list false
    expect g "done"
    return .loop (t.isA "while") condition body
  else if t.isA "for" then some do
    let s ← each g line
    expect g "done"
    return s
  else if t.isA "case" then some do
    match ← token g with
    | .word w =>
      let t ← tokenBelow g g.size
      if !t.isA "in" then unexpected t "in"
      return .select line w (← branches g g.size)
    | t => fail s!"{t.title} unexpected (expecting word)"
  else if t.isA "(" then some do
    let body ← g.list false
    expect g ")"
    return .subshell body
  else if t.isA "\x7b" then some do
    let body ← g.list false
    expect g "\x7d"
    return body
  else none

/-- One statement and its redirections. -/
def command (g : Grammar) : Parser Statement := do
  let line := (← get).line
  let t ← token g
  match compound? g line t with
  | some body =>
    let s ← body
    match ← redirects g g.size with
    | [] => return s
    | redirects => return .redirected line s redirects
  | none =>
    match t with
    | .word _ =>
      if t.keyword?.isSome then unexpected t
      putBack t
      simple g (← get).line g.size {}
    | .redirect _ _ =>
      putBack t
      simple g (← get).line g.size {}
    | t => unexpected t

/-- The stages of a pipeline. -/
def stages (g : Grammar) : (fuel : Nat) → Parser (List Statement)
  | 0 => return []
  | fuel + 1 => do
    let s ← command g
    let t ← token g
    if t.isA "|" then
      putBack (← tokenBelow g g.size)
      return s :: (← stages g fuel)
    else
      putBack t
      return [s]

/-- A pipeline, perhaps negated. -/
def pipeline (g : Grammar) : Parser Statement := do
  let t ← token g
  let isNegated := t.isA "!"
  if !isNegated then putBack t
  let s ← match ← stages g g.size with
    | [s] => pure s
    | ss => pure (.pipeline ss)
  return if isNegated then .negation s else s

/-- What follows a pipeline on which it depends whether more is run. -/
def junctions (g : Grammar) (first : Statement) : (fuel : Nat) → Parser Statement
  | 0 => return first
  | fuel + 1 => do
    let t ← token g
    if t.isA "&&" || t.isA "||" then
      putBack (← tokenBelow g g.size)
      let second ← pipeline g
      junctions g (if t.isA "&&" then .both first second else .either first second) fuel
    else
      putBack t
      return first

/-- Pipelines joined by conditions. -/
def junction (g : Grammar) : Parser Statement := do
  junctions g (← pipeline g) g.size

/-- The statements up to a token that closes their list; `found` are those before, the last
first. -/
def listFrom (g : Grammar) : (fuel : Nat) → (mayEnd : Bool) → (found : List Statement) →
    Parser (List Statement)
  | 0, _, found => return found
  | fuel + 1, mayEnd, found => do
    let t ← tokenBelow g g.size
    putBack t
    let isFinish := match t with
      | .finish => true
      | _ => false
    if isFinish || (mayEnd && t.closesList) then return found
    let s ← junction g
    let t ← token g
    if t.isA "&" then listFrom g fuel true (.background s :: found)
    else if t.isA ";" then listFrom g fuel true (s :: found)
    else
      match t with
      | .newline => listFrom g fuel true (s :: found)
      | t =>
        putBack t
        return s :: found

/-- The statements of one line; whether there are no more comes with them. -/
def lineFrom (g : Grammar) :
    (fuel : Nat) → (found : List Statement) → Parser (List Statement × Bool)
  | 0, found => return (found, true)
  | fuel + 1, found => do
    let t ← token g
    match t with
    | .newline => return (found, false)
    | .finish =>
      putBack t
      return (found, true)
    | t =>
      putBack t
      let s ← junction g
      let t ← token g
      if t.isA "&" then lineFrom g fuel (.background s :: found)
      else if t.isA ";" then lineFrom g fuel (s :: found)
      else
        match t with
        | .newline => return (s :: found, false)
        | .finish =>
          putBack t
          return (s :: found, true)
        | t => unexpected t

/-- A list as one statement. -/
def sequence : List Statement → Statement
  | [s] => s
  | ss => .sequence ss

/-- The grammar of scripts with fewer than `size` characters, statements standing in each other at
most so deep. -/
def grammar (size : Nat) : (depth : Nat) → Grammar
  | 0 => ⟨size, fun _ => fail "Nesting too deep", fail "Nesting too deep"⟩
  | depth + 1 =>
    { size := size
      list := fun mayBeEmpty => do
        let g := grammar size depth
        return sequence (← listFrom g g.size mayBeEmpty []).reverse
      command := fun s => Parser.command (grammar size depth) s }

/-- How deep statements can stand in each other. -/
def maxDepth : Nat := 2000

/-- The statements of the next line, and whether they are the last. -/
def line : Parser (Statement × Bool) := do
  let size := (← get).left.length + 2
  let g := grammar size maxDepth
  let (found, isLast) ← lineFrom g size []
  return (sequence found.reverse, isLast)

end LintGate.Shell.Parser
