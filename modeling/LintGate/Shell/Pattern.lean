import LintGate.File.Tree
import LintGate.Text.Octets

/-!
Patterns of a shell. They match octets; what is quoted in them stands for itself.
-/

namespace LintGate.Shell

/-- Octets, each with whether it is quoted. -/
abbrev Marked := List (Char × Bool)

/-- What one octet is matched with. -/
inductive SetItem
  | range (first last : Char)
  | kind (p : Char → Bool)

inductive PatternItem
  | literal (c : Char)
  | any
  /-- One of the octets, or, where it is negated, none of them. -/
  | set (negated : Bool) (items : List SetItem)
  | star

abbrev Pattern := List PatternItem

namespace Pattern

/-- The octets of a kind. -/
def kind? (name : String) : Option (Char → Bool) :=
  match name with
  | "alnum" => some Char.isAlphanum
  | "alpha" => some Char.isAlpha
  | "blank" => some fun c => c == ' ' || c == '\t'
  | "cntrl" => some fun c => c.toNat < 32 || c.toNat == 127
  | "digit" => some Char.isDigit
  | "graph" => some fun c => 32 < c.toNat && c.toNat < 127
  | "lower" => some Char.isLower
  | "print" => some fun c => 32 ≤ c.toNat && c.toNat < 127
  | "punct" => some fun c => 32 < c.toNat && c.toNat < 127 && !c.isAlphanum
  | "space" => some fun c => c == ' ' || (9 ≤ c.toNat && c.toNat ≤ 13)
  | "upper" => some Char.isUpper
  | "xdigit" => some fun c => "0123456789abcdefABCDEF".toList.contains c
  | _ => none

/-- A kind of octets in brackets and colons, after the bracket, and what follows it. -/
def kindAt? (m : Marked) : Option ((Char → Bool) × Marked) :=
  match m with
  | (':', false) :: rest =>
    let name := (rest.takeWhile fun c => c.1.isAlpha).map (·.1)
    match rest.drop name.length with
    | (':', false) :: (']', false) :: rest => (kind? (String.ofList name)).map (·, rest)
    | _ => none
  | _ => none

/-- The octet that comes next, a backslash taking the meaning of the one after it. -/
def octetAt? : Marked → Option (Char × Marked)
  | [] => none
  | ('\\', false) :: (c, _) :: rest => some (c, rest)
  | (c, _) :: rest => some (c, rest)

/-- The items up to a closing bracket, and what follows it. There is at least one item. -/
def setItems : (fuel : Nat) → (isFirst : Bool) → Marked → Option (List SetItem × Marked)
  | 0, _, _ => none
  | fuel + 1, isFirst, m =>
    let one : Option (List SetItem × Marked) := do
      let (first, rest) ← octetAt? m
      match rest with
      | ('-', false) :: (d, quoted) :: after =>
        if d == ']' && !quoted then
          let (items, rest) ← setItems fuel false rest
          return (.range first first :: items, rest)
        else
          let (last, after) ← octetAt? ((d, quoted) :: after)
          let (items, rest) ← setItems fuel false after
          return (.range first last :: items, rest)
      | rest =>
        let (items, rest) ← setItems fuel false rest
        return (.range first first :: items, rest)
    match m with
    | (']', false) :: rest => if isFirst then one else some ([], rest)
    | ('[', false) :: rest =>
      match kindAt? rest with
      | some (p, rest) =>
        (setItems fuel false rest).map fun (items, rest) => (.kind p :: items, rest)
      | none => one
    | _ => one

/-- The items of a pattern. A bracket that is not closed stands for itself. -/
def itemsOf : (fuel : Nat) → Marked → Pattern
  | 0, _ => []
  | _, [] => []
  | fuel + 1, (c, true) :: rest => .literal c :: itemsOf fuel rest
  | fuel + 1, (c, false) :: rest =>
    match c with
    | '*' => .star :: itemsOf fuel rest
    | '?' => .any :: itemsOf fuel rest
    | '\\' =>
      match rest with
      | (d, _) :: rest => .literal d :: itemsOf fuel rest
      | [] => [.literal '\\']
    | '[' =>
      let (negated, inner) := match rest with
        | ('!', false) :: inner => (true, inner)
        | inner => (false, inner)
      match setItems (inner.length + 1) true inner with
      | some (items, rest) => .set negated items :: itemsOf fuel rest
      | none => .literal '[' :: itemsOf fuel rest
    | c => .literal c :: itemsOf fuel rest

/-- The pattern that marked octets are. -/
def ofMarked (m : Marked) : Pattern :=
  itemsOf (m.length + 1) m

/-- Whether an item matches one octet. -/
def accepts (item : PatternItem) (c : Char) : Bool :=
  match item with
  | .literal d => c == d
  | .any => true
  | .star => true
  | .set negated items =>
    negated != items.any fun
      | .range first last => first ≤ c && c ≤ last
      | .kind p => p c

/-- For each end of the text, the whole text first, whether the pattern matches all of it. -/
def row (text : List Char) : Pattern → List Bool
  | [] => List.replicate text.length false ++ [true]
  | .star :: rest => ((row text rest).foldr (fun ok (found, any) =>
      ((ok || any) :: found, ok || any)) ([], false)).1
  | item :: rest =>
    List.zipWith (fun c ok => accepts item c && ok) text (row text rest).tail ++ [false]

/-- Whether the pattern matches the text. -/
def fits (p : Pattern) (text : List Char) : Bool :=
  (row text p).headD false

/-- The text without a start that fits. -/
def withoutStart (p : Pattern) (longest : Bool) (text : List Char) : List Char :=
  let counts := List.range (text.length + 1)
  match (if longest then counts.reverse else counts).find? fun n => fits p (text.take n) with
  | some n => text.drop n
  | none => text

/-- The text without an end that fits. -/
def withoutEnd (p : Pattern) (longest : Bool) (text : List Char) : List Char :=
  let counts := List.range (text.length + 1)
  match (if longest then counts else counts.reverse).find? fun n => fits p (text.drop n) with
  | some n => text.take n
  | none => text

/-- Whether there is something in the octets that can match more than itself. -/
def isActive (m : Marked) : Bool :=
  m.any fun (c, quoted) => !quoted && (c == '*' || c == '?' || c == '[')

/-- The octets as they are without the backslashes that quote in a pattern. -/
def plain : Marked → List Char
  | [] => []
  | ('\\', false) :: (c, _) :: rest => c :: plain rest
  | (c, _) :: rest => c :: plain rest

/-- The names of what lies in a directory. -/
def namesIn (files : FileTree) (directory : Path) (dir : List Char) : List (List Char) :=
  match FileTree.find files directory
      (Path.ofOctets (if dir.isEmpty then "." else String.ofList dir)) with
  | .ok (.directory entries) =>
    ['.'] :: ['.', '.'] :: entries.map fun e => (Text.Octets.ofText e.1).toList
  | _ => []

/-- The paths that begin with `done` and go on with names that the pieces match. -/
def pathsFrom (files : FileTree) (directory : Path) : List Char → List Marked → List (List Char)
  | done, [] => [done]
  | done, [last] =>
    if isActive last then
      (namesIn files directory done).filterMap fun name =>
        if shows last name then some (done ++ name) else none
    else
      let path := done ++ plain last
      match FileTree.find files directory (Path.ofOctets (String.ofList path)) with
      | .ok _ => [path]
      | .error _ => []
  | done, piece :: rest =>
    if isActive piece then
      (namesIn files directory done).flatMap fun name =>
        if shows piece name then pathsFrom files directory (done ++ name ++ ['/']) rest else []
    else pathsFrom files directory (done ++ plain piece ++ ['/']) rest
where
  /-- Whether a name fits; one that begins with a dot has to be asked for. -/
  shows (piece : Marked) (name : List Char) : Bool :=
    (name.head? != some '.' || (plain piece).head? == some '.') && fits (ofMarked piece) name

/-- The pieces between slashes. -/
def splitSlashes (m : Marked) : List Marked :=
  m.foldr (fun c pieces =>
    match pieces with
    | [] => [[c]]
    | piece :: rest => if c.1 == '/' then [] :: piece :: rest else (c :: piece) :: rest) [[]]

/-- The paths that a field stands for, in the order of their octets, or the field itself. -/
def paths (files : FileTree) (directory : Path) (field : Marked) : List (List Char) :=
  if !isActive field then [field.map (·.1)]
  else
    match pathsFrom files directory [] (splitSlashes field) with
    | [] => [field.map (·.1)]
    | found => found.mergeSort fun a b => String.ofList a ≤ String.ofList b

end Pattern

end LintGate.Shell
