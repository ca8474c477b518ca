import LintGate.Text.Utf8

/-!
File name patterns: `*` and `?`, classes in brackets, alternatives in braces, and `**` for any
number of directories. A backslash takes the next character as it stands, except inside a class.
-/

namespace LintGate.Glob

/-- One part of a pattern. -/
inductive Token
  | literal (c : Char)
  /-- One byte. -/
  | any
  /-- Any number of bytes. -/
  | star
  /-- `**/` at the start: nothing, or everything up to a slash. -/
  | anyDirectories
  /-- `/**` at the end: a slash and anything. -/
  | anyBelow
  /-- `/**/`: a slash, or two with anything between them. -/
  | anyBetween
  | oneOf (negated : Bool) (ranges : List (Char × Char))
  | alternatives (branches : List (List Token))

/-- A pattern as it has been read so far. Inside open braces every branch is kept, the innermost and
last one first; the tokens of a branch are kept the last one first. -/
structure Draft where
  branches : List (List Token) := [[]]
  /-- For each open brace, the innermost one first, how many branches there were before it. -/
  opened : List Nat := []

namespace Draft

/-- The draft with one more token. -/
def push (d : Draft) (t : Token) : Draft :=
  match d.branches with
  | [] => d
  | branch :: rest => { d with branches := (t :: branch) :: rest }

/-- The tokens of the branch that is being read, the last one first. -/
def current (d : Draft) : List Token := d.branches.headD []

/-- The draft with `t` in the place of the last token. -/
def replaceLast (d : Draft) (t : Token) : Draft :=
  match d.branches with
  | [] => d
  | branch :: rest => { d with branches := (t :: branch.tail) :: rest }

/-- A brace opens. -/
def openGroup (d : Draft) : Draft :=
  ⟨[] :: d.branches, d.branches.length :: d.opened⟩

/-- A brace closes, if one is open. -/
def closeGroup? (d : Draft) : Option Draft :=
  match d.opened with
  | [] => none
  | below :: opened =>
    let count := d.branches.length - below
    let group := (d.branches.take count).reverse.map List.reverse
    some (push ⟨d.branches.drop count, opened⟩ (.alternatives group))

/-- A comma: the next branch inside braces, else a character. -/
def comma (d : Draft) : Draft :=
  if d.opened.isEmpty then d.push (.literal ',') else { d with branches := [] :: d.branches }

/-- Two stars that mean no more than one. -/
def twoStars (d : Draft) : Draft := (d.push .star).push .star

/-- Two stars with `prev` before them and `rest` after them, and what is left to be read. They stand
for directories where slashes, braces or the ends of the pattern are next to them. -/
def doubleStar (d : Draft) (prev : Option Char) (rest : List Char) : Draft × List Char :=
  let inGroup := 2 ≤ d.branches.length
  if d.current.isEmpty then
    match rest with
    | [] => (d.push .anyDirectories, [])
    | '/' :: rest => (d.push .anyDirectories, rest)
    | rest => (d.twoStars, rest)
  else if prev ≠ some '/' ∧ ¬(inGroup ∧ (prev = some ',' ∨ prev = some '\x7b')) then
    (d.twoStars, rest)
  else
    let joined (t : Token) : Draft :=
      match d.current.head? with
      | some .anyDirectories => d
      | some .anyBelow => d
      | _ => d.replaceLast t
    match rest with
    | [] => (joined .anyBelow, [])
    | '/' :: rest => (joined .anyBetween, rest)
    | c :: rest =>
      if inGroup ∧ (c = ',' ∨ c = '\x7d') then (joined .anyBelow, c :: rest)
      else (d.twoStars, c :: rest)

end Draft

/-- The ranges of a class up to its closing bracket, the last one first, and what follows it. A
hyphen between two characters makes a range; one that stands first or last is a character. None when
the class does not end (`some none`) or a range is empty (`none`). -/
def classRanges? (first pending : Bool) (ranges : List (Char × Char)) :
    List Char → Option (Option (List (Char × Char) × List Char))
  | [] => some none
  | c :: rest =>
    if c = ']' ∧ !first then
      some (some (if pending then ('-', '-') :: ranges else ranges, rest))
    else if c = '-' ∧ !first ∧ !pending then classRanges? false true ranges rest
    else if pending then
      match ranges with
      | (low, _) :: before =>
        if c < low then none else classRanges? false false ((low, c) :: before) rest
      | [] => none
    else classRanges? false false ((c, c) :: ranges) rest

/-- A class from after its opening bracket, as in `classRanges?`. -/
def class? (cs : List Char) : Option (Option (Token × List Char)) :=
  let (negated, body) := match cs with
    | '!' :: rest => (true, rest)
    | '^' :: rest => (true, rest)
    | rest => (false, rest)
  (classRanges? true false [] body).map fun found =>
    found.map fun (ranges, rest) => (.oneOf negated ranges.reverse, rest)

/-- The tokens of a pattern from here on. `prev` is the character before; `brackets` says whether a
bracket still opens a class. Where `lenient`, a bracket without an end is a character, and so is
every later one. -/
def parseFrom (lenient : Bool) :
    (fuel : Nat) → (brackets : Bool) → Draft → Option Char → List Char → Option Draft
  | _, _, d, _, [] => some d
  | 0, _, _, _, _ => none
  | fuel + 1, brackets, d, prev, c :: rest =>
    match c with
    | '?' => parseFrom lenient fuel brackets (d.push .any) c rest
    | '*' =>
      match rest with
      | '*' :: rest =>
        let (d, left) := d.doubleStar prev rest
        let last := if left.length < rest.length then rest.head? else some '*'
        parseFrom lenient fuel brackets d last left
      | rest => parseFrom lenient fuel brackets (d.push .star) c rest
    | '[' =>
      if !brackets then parseFrom lenient fuel brackets (d.push (.literal c)) c rest
      else
        match class? rest with
        | some (some (t, left)) => parseFrom lenient fuel brackets (d.push t) (some ']') left
        | some none =>
          if lenient then parseFrom lenient fuel false (d.push (.literal c)) c rest else none
        | none => none
    | '\x7b' => parseFrom lenient fuel brackets d.openGroup c rest
    | '\x7d' =>
      match d.closeGroup? with
      | some d => parseFrom lenient fuel brackets d c rest
      | none => none
    | ',' => parseFrom lenient fuel brackets d.comma c rest
    | '\\' =>
      match rest with
      | [] => none
      | e :: rest => parseFrom lenient fuel brackets (d.push (.literal e)) e rest
    | c => parseFrom lenient fuel brackets (d.push (.literal c)) c rest

/-- The tokens of a pattern, all of its braces closed. -/
def parse? (lenient : Bool) (pattern : String) : Option (List Token) := do
  let cs := pattern.toList
  let d ← parseFrom lenient cs.length true {} none cs
  match d.branches with
  | [tokens] => some tokens.reverse
  | _ => none

end LintGate.Glob
