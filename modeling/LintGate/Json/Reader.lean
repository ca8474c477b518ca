import LintGate.Json.Outline
import LintGate.Number.Numeral

/-!
Reading JSON text. `Document.read` gives the outline of any text; `Value.read?` is the value of a
text that is a JSON document.

Numbers that are no integers of 64 bits are doubles, found by scaling; `Value.readExactly?` takes
the nearest ones instead.
-/

namespace LintGate.Json

/-- White space between the tokens of a document. -/
def isSpace (c : Char) : Bool :=
  c == ' ' || c == '\n' || c == '\t' || c == '\r'

/-- The text from the next token on. -/
def skipSpace (cs : List Char) : List Char :=
  cs.dropWhile isSpace

/-- A piece of a string: a character as it stands, or the number of a `u` escape. -/
inductive StringPart
  | plain (c : Char)
  | escape (code : Nat)
  deriving DecidableEq, Repr

/-- The character of a one-letter escape. -/
def simpleEscape? : Char → Option Char
  | '"' => some '"'
  | '\\' => some '\\'
  | '/' => some '/'
  | 'b' => some '\x08'
  | 'f' => some '\x0c'
  | 'n' => some '\n'
  | 'r' => some '\r'
  | 't' => some '\t'
  | _ => none

/-- The number written with four hexadecimal digits. -/
def hex4? (a b c d : Char) : Option Nat := do
  let a ← Text.hexValue? a
  let b ← Text.hexValue? b
  let c ← Text.hexValue? c
  let d ← Text.hexValue? d
  return ((a * 16 + b) * 16 + c) * 16 + d

/-- The parts of a string from after its opening quote, and the text after its closing quote. -/
def stringParts? : List Char → Option (List StringPart × List Char)
  | [] => none
  | '"' :: rest => some ([], rest)
  | '\\' :: 'u' :: a :: b :: c :: d :: rest => do
    let code ← hex4? a b c d
    let (parts, rest) ← stringParts? rest
    return (.escape code :: parts, rest)
  | '\\' :: c :: rest => do
    let c ← simpleEscape? c
    let (parts, rest) ← stringParts? rest
    return (.plain c :: parts, rest)
  | c :: rest =>
    if c.toNat < 0x20 || c == '\\' then none
    else do
      let (parts, rest) ← stringParts? rest
      return (.plain c :: parts, rest)

/-- The characters of the parts, two surrogates making one; none where a surrogate is alone. -/
def joinParts? : List StringPart → Option (List Char)
  | [] => some []
  | .plain c :: rest => (joinParts? rest).map (c :: ·)
  | .escape high :: .escape low :: rest =>
    if 0xD800 ≤ high ∧ high < 0xDC00 then
      if 0xDC00 ≤ low ∧ low < 0xE000 then
        (joinParts? rest).map
          (Char.ofNat (0x10000 + 0x400 * (high - 0xD800) + (low - 0xDC00)) :: ·)
      else none
    else if 0xDC00 ≤ high ∧ high < 0xE000 then none
    else (joinParts? (.escape low :: rest)).map (Char.ofNat high :: ·)
  | .escape code :: rest =>
    if 0xD800 ≤ code ∧ code < 0xE000 then none
    else (joinParts? rest).map (Char.ofNat code :: ·)

/-- A string from after its opening quote. -/
def string? (cs : List Char) : Option (Option String × List Char) :=
  (stringParts? cs).map fun (parts, rest) => ((joinParts? parts).map String.ofList, rest)

/-- A non-empty run of digits and what follows it. -/
def digitRun? (cs : List Char) : Option (List Char × List Char) :=
  match cs.takeWhile Char.isDigit with
  | [] => none
  | run => some (run, cs.dropWhile Char.isDigit)

/-- The part of a numeral before the point: no zero stands before other digits. -/
def wholePart? (cs : List Char) : Option (List Char × List Char) :=
  (digitRun? cs).filter fun (run, _) => run.head? != some '0' || run.length == 1

/-- The part of a numeral after the point, if there is a point. -/
def fractionPart? : List Char → Option (Option (List Char) × List Char)
  | '.' :: rest => (digitRun? rest).map fun (run, rest) => (some run, rest)
  | rest => some (none, rest)

/-- The power of ten of a numeral, if there is one. -/
def powerPart? (cs : List Char) : Option (Option Int × List Char) :=
  let signed : List Char → Option (Option Int × List Char)
    | '-' :: rest =>
      (digitRun? rest).map fun (run, rest) => (some (-(Text.ofDigits run : Int)), rest)
    | '+' :: rest => (digitRun? rest).map fun (run, rest) => (some (Text.ofDigits run : Int), rest)
    | rest => (digitRun? rest).map fun (run, rest) => (some (Text.ofDigits run : Int), rest)
  match cs with
  | 'e' :: rest => signed rest
  | 'E' :: rest => signed rest
  | rest => some (none, rest)

/-- A numeral at the start of the text. -/
def numeral? (cs : List Char) : Option (Numeral × List Char) := do
  let (negative, cs) := match cs with
    | '-' :: rest => (true, rest)
    | rest => (false, rest)
  let (whole, cs) ← wholePart? cs
  let (fraction, cs) ← fractionPart? cs
  let (power, cs) ← powerPart? cs
  return (⟨negative, whole, fraction, power⟩, cs)

/-- The number a numeral denotes; minus zero and whatever 64 bits cannot hold is a double, found as
`real` says. -/
def Number.ofNumeral? (real : Numeral → Option Double) (n : Numeral) : Option Number :=
  let whole := Text.ofDigits n.whole
  if n.isWhole && n.negative && (0 < whole && whole ≤ UInt64.size / 2) then some (.negative whole)
  else if n.isWhole && !n.negative && whole < UInt64.size then some (.natural (UInt64.ofNat whole))
  else (real n).map .real

section

variable (real : Numeral → Option Double)

mutual
/-- The outline of the value at the start of the text, and the text after it. After a break nothing
is left. -/
def readValue : Nat → List Char → Outline × List Char
  | 0, _ => (.broken, [])
  | fuel + 1, cs =>
    match skipSpace cs with
    | 'n' :: 'u' :: 'l' :: 'l' :: rest => (.null, rest)
    | 't' :: 'r' :: 'u' :: 'e' :: rest => (.bool true, rest)
    | 'f' :: 'a' :: 'l' :: 's' :: 'e' :: rest => (.bool false, rest)
    | '"' :: rest =>
      match string? rest with
      | some (s, rest) => (.string s, rest)
      | none => (.broken, [])
    | '[' :: rest =>
      match skipSpace rest with
      | ']' :: rest => (.array .closed, rest)
      | rest =>
        let (items, rest) := readItems fuel rest
        (.array items, rest)
    | '\x7b' :: rest =>
      match skipSpace rest with
      | '\x7d' :: rest => (.object .closed, rest)
      | rest =>
        let (members, rest) := readMembers fuel rest
        (.object members, rest)
    | cs =>
      match numeral? cs with
      | some (n, rest) => (.number (Number.ofNumeral? real n), rest)
      | none => (.broken, [])

/-- The items of an array from before a value on. -/
def readItems : Nat → List Char → Items × List Char
  | 0, _ => (.broken, [])
  | fuel + 1, cs =>
    let (value, rest) := readValue fuel cs
    match skipSpace rest with
    | ']' :: rest => (.item value .closed, rest)
    | ',' :: rest =>
      let (items, rest) := readItems fuel rest
      (.item value items, rest)
    | _ => (.item value .broken, [])

/-- The members of an object from before a name on. -/
def readMembers : Nat → List Char → Members × List Char
  | 0, _ => (.broken, [])
  | fuel + 1, cs =>
    match skipSpace cs with
    | '"' :: rest =>
      match string? rest with
      | none => (.broken, [])
      | some (key, rest) =>
        match skipSpace rest with
        | ':' :: rest =>
          let (value, rest) := readValue fuel rest
          match skipSpace rest with
          | '\x7d' :: rest => (.member key value .closed, rest)
          | ',' :: rest =>
            let (members, rest) := readMembers fuel rest
            (.member key value members, rest)
          | _ => (.member key value .broken, [])
        | _ => (.member key .broken .broken, [])
    | _ => (.broken, [])
end

end

/-- The outline of a text, and whether nothing but white space follows its value. -/
structure Document where
  root : Outline
  endsAfterRoot : Bool

/-- The document a text is, its doubles found as `real` says. Every two steps of the reader take a
character. -/
def Document.readWith (real : Numeral → Option Double) (s : String) : Document :=
  let cs := s.toList
  let (root, rest) := readValue real (2 * cs.length + 2) cs
  ⟨root, (skipSpace rest).isEmpty⟩

/-- The document a text is. -/
def Document.read (s : String) : Document :=
  Document.readWith Numeral.byScaling? s

/-- The value of a document, if there is nothing wrong with it. -/
def Document.toValue? (d : Document) : Option Value :=
  if d.endsAfterRoot then d.root.toValue? depthLimit else none

/-- The value of a text that is one JSON document. -/
def Value.read? (s : String) : Option Value :=
  (Document.read s).toValue?

/-- The value of a text that is one JSON document, its doubles being the nearest ones. -/
def Value.readExactly? (s : String) : Option Value :=
  (Document.readWith Numeral.nearest? s).toValue?

end LintGate.Json
