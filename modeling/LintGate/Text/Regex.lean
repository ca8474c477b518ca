import LintGate.Text.Digits

/-!
Regular expressions in their basic and extended spellings. `Regex.search?` finds the leftmost match
and, of those that start there, the longest.
-/

namespace LintGate.Text

inductive Regex
  | empty
  | any
  | char (c : Char)
  | set (isNegated : Bool) (ranges : List (Char × Char))
  | both (first second : Regex)
  | either (first second : Regex)
  /-- At least `low` times, and at most `high` times if there is a limit. -/
  | repeated (r : Regex) (low : Nat) (high : Option Nat)
  | group (number : Nat) (r : Regex)
  | back (number : Nat)
  | lineStart
  | lineEnd
  | wordStart
  | wordEnd
  | wordEdge
  deriving Repr, DecidableEq

namespace Regex

/-- The characters of a class by its name. -/
def classRanges : String → List (Char × Char)
  | "digit" => [('0', '9')]
  | "alpha" => [('a', 'z'), ('A', 'Z')]
  | "alnum" => [('a', 'z'), ('A', 'Z'), ('0', '9')]
  | "upper" => [('A', 'Z')]
  | "lower" => [('a', 'z')]
  | "space" => [(' ', ' '), ('\t', '\x0d')]
  | "blank" => [(' ', ' '), ('\t', '\t')]
  | "punct" => [('!', '/'), (':', '@'), ('[', '\x60'), ('\x7b', '~')]
  | "print" => [(' ', '~')]
  | "graph" => [('!', '~')]
  | "cntrl" => [('\x00', '\x1f'), ('\x7f', '\x7f')]
  | "xdigit" => [('0', '9'), ('a', 'f'), ('A', 'F')]
  | _ => []

/-- The ranges of a set from after its opening, and what follows it. -/
def setItems : (fuel : Nat) → (isFirst : Bool) → List Char →
    Option (List (Char × Char) × List Char)
  | 0, _, _ => none
  | _, _, [] => none
  | fuel + 1, isFirst, '[' :: ':' :: rest =>
    let name := rest.takeWhile Char.isAlpha
    match rest.drop name.length with
    | ':' :: ']' :: after =>
      (setItems fuel false after).map fun (found, after) =>
        (classRanges (String.ofList name) ++ found, after)
    | _ =>
      (setItems fuel isFirst (':' :: rest)).map fun (found, after) => (('[', '[') :: found, after)
  | fuel + 1, isFirst, c :: rest =>
    if c = ']' && !isFirst then some ([], rest)
    else
      match rest with
      | '-' :: d :: after =>
        if d = ']' then
          (setItems fuel false rest).map fun (found, after) => ((c, c) :: found, after)
        else (setItems fuel false after).map fun (found, after) => ((c, d) :: found, after)
      | rest => (setItems fuel false rest).map fun (found, after) => ((c, c) :: found, after)

/-- A set from after its opening bracket, and what follows it. -/
def set? (cs : List Char) : Option (Regex × List Char) :=
  match cs with
  | '^' :: rest =>
    (setItems (cs.length + 1) true rest).map fun (found, after) => (.set true found, after)
  | rest => (setItems (cs.length + 1) true rest).map fun (found, after) => (.set false found, after)

/-- A mark of the expression. -/
inductive Mark
  | atom (r : Regex)
  | opening
  | closing
  | bar
  | times (low : Nat) (high : Option Nat)
  deriving DecidableEq

/-- The bounds of a repetition from after its brace, up to `close`. -/
def bounds? (close : List Char) (cs : List Char) : Option (Nat × Option Nat × List Char) :=
  let low := cs.takeWhile Char.isDigit
  let rest := cs.drop low.length
  let (high, rest) : Option Nat × List Char := match rest with
    | ',' :: rest =>
      let high := rest.takeWhile Char.isDigit
      (if high.isEmpty then none else some (ofDigits high), rest.drop high.length)
    | rest => (some (ofDigits low), rest)
  if close.isPrefixOf rest then some (ofDigits low, high, rest.drop close.length) else none

/-- What a letter after a backslash stands for in either spelling. -/
def escape? (c : Char) : Option Regex :=
  let word := [('a', 'z'), ('A', 'Z'), ('0', '9'), ('_', '_')]
  match c with
  | 'w' => some (.set false word)
  | 'W' => some (.set true word)
  | 's' => some (.set false (classRanges "space"))
  | 'S' => some (.set true (classRanges "space"))
  | 'b' => some .wordEdge
  | '<' => some .wordStart
  | '>' => some .wordEnd
  | c => if '1' ≤ c && c ≤ '9' then some (.back (digitValue c)) else none

/-- The marks of an expression; `before` is the mark before the text. -/
def marks (isExtended : Bool) :
    (fuel : Nat) → (before : Option Mark) → List Char → Option (List Mark)
  | 0, _, _ => none
  | _, _, [] => some []
  | fuel + 1, before, c :: rest =>
    let go (m : Mark) (rest : List Char) := (marks isExtended fuel (some m) rest).map (m :: ·)
    let atStart := before == none || before == some .opening || before == some .bar
    let special (c : Char) (rest : List Char) : Option (List Mark) :=
      match c with
      | '(' => go .opening rest
      | ')' => go .closing rest
      | '|' => go .bar rest
      | '+' => if atStart then go (.atom (.char c)) rest else go (.times 1 none) rest
      | '?' => if atStart then go (.atom (.char c)) rest else go (.times 0 (some 1)) rest
      | '\x7b' =>
        match bounds? (if isExtended then ['\x7d'] else ['\\', '\x7d']) rest with
        | some (low, high, after) => go (.times low high) after
        | none => if isExtended then go (.atom (.char c)) rest else none
      | c => go (.atom (.char c)) rest
    let isSpecial (c : Char) : Bool := "()|+?\x7b".toList.contains c
    if c = '\\' then
      match rest with
      | [] => none
      | d :: rest =>
        if isSpecial d && !isExtended then special d rest
        else
          match escape? d with
          | some r => go (.atom r) rest
          | none => go (.atom (.char (if d == 'n' then '\n' else d))) rest
    else if c = '[' then
      match set? rest with
      | some (r, rest) => go (.atom r) rest
      | none => none
    else if c = '.' then go (.atom .any) rest
    else if c = '*' then
      if atStart || before == some (.atom .lineStart) then go (.atom (.char '*')) rest
      else go (.times 0 none) rest
    else if c = '^' && (atStart || isExtended) then go (.atom .lineStart) rest
    else if c = '$' && (rest.isEmpty || isExtended || "\\)".toList.isPrefixOf rest ||
        "\\|".toList.isPrefixOf rest) then go (.atom .lineEnd) rest
    else if isSpecial c && isExtended then special c rest
    else go (.atom (.char c)) rest

mutual
/-- The alternatives from here on, the number of groups so far, and what follows. -/
def alternatives : (fuel : Nat) → Nat → List Mark → Option (Regex × Nat × List Mark)
  | 0, _, _ => none
  | fuel + 1, groups, ms => do
    let (first, groups, rest) ← sequence fuel groups .empty ms
    match rest with
    | .bar :: rest =>
      let (second, groups, rest) ← alternatives fuel groups rest
      return (.either first second, groups, rest)
    | rest => return (first, groups, rest)

/-- The sequence from here on, after `done`. -/
def sequence : (fuel : Nat) → Nat → (done : Regex) → List Mark → Option (Regex × Nat × List Mark)
  | 0, _, _, _ => none
  | fuel + 1, groups, done, ms =>
    match ms with
    | .atom r :: rest => repetition fuel groups done r rest
    | .opening :: rest => do
      let number := groups + 1
      let (inner, groups, rest) ← alternatives fuel number rest
      match rest with
      | .closing :: rest => repetition fuel groups done (.group number inner) rest
      | _ => none
    | .times _ _ :: rest => sequence fuel groups done rest
    | ms => some (done, groups, ms)

/-- The sequence after an item that may be repeated. -/
def repetition : (fuel : Nat) → Nat → (done item : Regex) → List Mark →
    Option (Regex × Nat × List Mark)
  | 0, _, _, _, _ => none
  | fuel + 1, groups, done, item, ms =>
    match ms with
    | .times low high :: rest => repetition fuel groups done (.repeated item low high) rest
    | ms => sequence fuel groups (.both done item) ms
end

/-- The expression that a text spells. -/
def ofText? (isExtended : Bool) (cs : List Char) : Option Regex := do
  let ms ← marks isExtended (cs.length + 1) none cs
  match ← alternatives (4 * ms.length + 4) 0 ms with
  | (r, _, []) => some r
  | _ => none

/-- The expression that matches a text as it stands. -/
def ofLiteral (cs : List Char) : Regex :=
  cs.foldl (fun r c => .both r (.char c)) .empty

/-- A part of a text: where it starts, and where it ends. -/
structure Match where
  start : Nat
  stop : Nat
  /-- The parts that groups matched, the last one first. -/
  groups : List (Nat × Nat × Nat)
  deriving DecidableEq, Repr

/-- The part that a group matched last. -/
def Match.group? (m : Match) (number : Nat) : Option (Nat × Nat) :=
  if number = 0 then some (m.start, m.stop)
  else (m.groups.find? (·.1 == number)).map (·.2)

/-- A character of a word. -/
def isWordChar (c : Char) : Bool :=
  c.isAlphanum || c == '_'

/-- The first of the matches for each place where one ends. -/
def byEnd (ms : List Match) : List Match :=
  ms.foldl (fun kept m => if kept.any (·.stop == m.stop) then kept else kept ++ [m]) []

/-- Further repetitions of a step from the places in `front`, each with the first match that leads
there. -/
def closure (step : Match → List Match) : (fuel : Nat) → (found front : List Match) → List Match
  | 0, found, _ => found
  | fuel + 1, found, front =>
    let next := byEnd (front.flatMap step)
    let fresh := next.filter fun m => !found.any (·.stop == m.stop)
    if fresh.isEmpty then found else closure step fuel (found ++ fresh) fresh

/-- The places after exactly so many repetitions. -/
def power (step : Match → List Match) : Nat → List Match → List Match
  | 0, front => front
  | n + 1, front => power step n (byEnd (front.flatMap step))

/-- The matches of an expression that go on from a match, one for each place where one ends. -/
def extend (text : Array Char) (ignoresCase : Bool) : Regex → Match → List Match
  | .empty, m => [m]
  | .any, m => if m.stop < text.size then [{ m with stop := m.stop + 1 }] else []
  | .char c, m =>
    match text[m.stop]? with
    | some d =>
      if c == d || ignoresCase && c.toLower == d.toLower then [{ m with stop := m.stop + 1 }]
      else []
    | none => []
  | .set isNegated ranges, m =>
    match text[m.stop]? with
    | some d =>
      let holds (d : Char) : Bool := ranges.any fun r => r.1 ≤ d && d ≤ r.2
      let isIn := holds d || ignoresCase && (holds d.toLower || holds d.toUpper)
      if isIn != isNegated then [{ m with stop := m.stop + 1 }] else []
    | none => []
  | .both a b, m => byEnd ((extend text ignoresCase a m).flatMap (extend text ignoresCase b))
  | .either a b, m => byEnd (extend text ignoresCase a m ++ extend text ignoresCase b m)
  | .repeated r low high, m =>
    let step := extend text ignoresCase r
    let front := power step low [m]
    match high with
    | none => closure step (text.size + 1) front front
    | some high => closure step (high - low) front front
  | .group number r, m =>
    (extend text ignoresCase r m).map fun found =>
      { found with groups := (number, m.stop, found.stop) :: found.groups }
  | .back number, m =>
    match m.group? number with
    | some (start, stop) =>
      let length := stop - start
      if (text.extract start stop) == text.extract m.stop (m.stop + length) &&
          m.stop + length ≤ text.size then [{ m with stop := m.stop + length }] else []
    | none => []
  | .lineStart, m => if m.stop = 0 then [m] else []
  | .lineEnd, m => if m.stop = text.size then [m] else []
  | .wordStart, m =>
    let before := 0 < m.stop && (text[m.stop - 1]?).any isWordChar
    if !before && (text[m.stop]?).any isWordChar then [m] else []
  | .wordEnd, m =>
    let before := 0 < m.stop && (text[m.stop - 1]?).any isWordChar
    if before && !(text[m.stop]?).any isWordChar then [m] else []
  | .wordEdge, m =>
    let before := 0 < m.stop && (text[m.stop - 1]?).any isWordChar
    if before != (text[m.stop]?).any isWordChar then [m] else []

/-- The longest of the matches, the first of those that are. -/
def longest? (ms : List Match) : Option Match :=
  ms.foldl (fun best m => match best with
    | some b => if b.stop < m.stop then some m else best
    | none => some m) none

/-- The longest match that starts at a place. -/
def matchAt? (r : Regex) (text : Array Char) (ignoresCase : Bool) (start : Nat) : Option Match :=
  longest? (extend text ignoresCase r ⟨start, start, []⟩)

/-- The leftmost match that starts at this place or later. -/
def search? (r : Regex) (text : Array Char) (ignoresCase : Bool) (start : Nat) : Option Match :=
  (List.range (text.size + 1 - start)).findSome? fun i => matchAt? r text ignoresCase (start + i)

end Regex

end LintGate.Text
