import LintGate.Markup.Name
import LintGate.Text.Digits

/-!
The tokens of an XML document: tags with their attributes, text, and what does not count (comments
and processing instructions). `Token.scan?` is the token at the start of a text and what follows it.
-/

namespace LintGate.Markup

/-- A character of text or of a value: as it stands, or by reference. -/
inductive Piece
  | plain (c : Char)
  | reference (c : Char)
  deriving DecidableEq, Repr

/-- An attribute as it is written. -/
structure WrittenAttribute where
  name : QName
  value : List Piece
  deriving DecidableEq, Repr

inductive Token
  | opening (name : QName) (attributes : List WrittenAttribute) (selfClosing : Bool)
  | closing (name : QName)
  | text (pieces : List Piece)
  /-- Text in which nothing is markup. -/
  | verbatim (chars : List Char)
  /-- A comment or a processing instruction. -/
  | aside
  deriving DecidableEq, Repr

/-- The text from the first character on that is no white space. -/
def skipSpace (cs : List Char) : List Char :=
  cs.dropWhile isSpace

/-- What follows `start`, if the text starts with it. -/
def after? (start : List Char) (cs : List Char) : Option (List Char) :=
  if start.isPrefixOf cs then some (cs.drop start.length) else none

/-- What stands before the first `stop`, and what follows it. -/
def until? (stop : List Char) : List Char → Option (List Char × List Char)
  | [] => none
  | c :: rest =>
    if stop.isPrefixOf (c :: rest) then some ([], (c :: rest).drop stop.length)
    else (until? stop rest).map fun parts => (c :: parts.1, parts.2)

/-- The character of a code, U+FFFD where the code is none of a character; forbidden characters
have no reference. -/
def charOfCode? (code : Nat) : Option Char :=
  if UInt32.size ≤ code then none
  else
    let c :=
      if code < 0x110000 ∧ ¬(0xD800 ≤ code ∧ code < 0xE000) then Char.ofNat code else '\uFFFD'
    if isAllowed c then some c else none

/-- The number written in hexadecimal digits. -/
def ofHexDigits (cs : List Char) : Nat :=
  cs.foldl (fun value c => 16 * value + (Text.hexValue? c).getD 0) 0

/-- The character that is referred to between `&` and `;`. -/
def referent? (body : List Char) : Option Char :=
  match body with
  | '#' :: 'x' :: code =>
    if !code.isEmpty && code.all (fun c => (Text.hexValue? c).isSome) then
      charOfCode? (ofHexDigits code)
    else none
  | '#' :: code => (Text.natural? code).bind charOfCode?
  | name =>
    if name = "lt".toList then some '<'
    else if name = "gt".toList then some '>'
    else if name = "amp".toList then some '&'
    else if name = "quot".toList then some '"'
    else if name = "apos".toList then some '\''
    else none

/-- The pieces of a text from here on. Inside a reference `body` holds what was read of it, last
character first. -/
def piecesFrom? (body : Option (List Char)) : List Char → Option (List Piece)
  | [] => if body.isNone then some [] else none
  | c :: rest =>
    match body with
    | none =>
      if c = '&' then piecesFrom? (some []) rest
      else (piecesFrom? none rest).map (.plain c :: ·)
    | some body =>
      if c = ';' then do
        let referent ← referent? body.reverse
        let pieces ← piecesFrom? none rest
        return .reference referent :: pieces
      else piecesFrom? (some (c :: body)) rest

/-- The pieces of a text. -/
def pieces? (cs : List Char) : Option (List Piece) :=
  piecesFrom? none cs

/-- A name, an equals sign and a quoted value without `<`, the value as it stands. -/
def rawAttribute? (cs : List Char) : Option (QName × List Char × List Char) := do
  let (name, rest) ← qname? cs
  let rest ← after? ['='] (skipSpace rest)
  match skipSpace rest with
  | quote :: rest =>
    if quote = '"' ∨ quote = '\'' then
      let value := rest.takeWhile fun c => c != quote && c != '<'
      let rest ← after? [quote] (rest.dropWhile fun c => c != quote && c != '<')
      return (name, value, rest)
    else none
  | [] => none

/-- The attributes from here to the end of an opening tag, whether the tag closes itself, and what
follows it. -/
def attributes? : Nat → List Char → Option (List WrittenAttribute × Bool × List Char)
  | 0, _ => none
  | fuel + 1, cs =>
    match skipSpace cs with
    | '/' :: '>' :: rest => some ([], true, rest)
    | '>' :: rest => some ([], false, rest)
    | rest =>
      if cs.head?.any isSpace then do
        let (name, value, rest) ← rawAttribute? rest
        let value ← pieces? value
        let (attributes, selfClosing, rest) ← attributes? fuel rest
        return (⟨name, value⟩ :: attributes, selfClosing, rest)
      else none

namespace Token

/-- A comment from after its opening: no two hyphens inside, and none before the end. -/
def comment? (cs : List Char) : Option (List Char) := do
  let (body, rest) ← until? "-->".toList cs
  if (until? "--".toList body).isSome || body.getLast? = some '-' then none else some rest

/-- A processing instruction from after its opening. -/
def instruction? (cs : List Char) : Option (List Char) := do
  let (_, rest) ← name? cs
  let (_, rest) ← until? "?>".toList (skipSpace rest)
  return rest

/-- The token at the start of a text that is not empty, and what follows it. The text has at most
`fuel` characters. -/
def scan? (fuel : Nat) (cs : List Char) : Option (Token × List Char) :=
  match cs with
  | '<' :: '!' :: rest =>
    match after? "--".toList rest, after? "[CDATA[".toList rest with
    | some rest, _ => (comment? rest).map fun rest => (.aside, rest)
    | none, some rest => (until? "]]>".toList rest).map fun parts => (.verbatim parts.1, parts.2)
    | none, none => none
  | '<' :: '?' :: rest =>
    if (after? "xml ".toList rest).isSome then none
    else (instruction? rest).map fun rest => (.aside, rest)
  | '<' :: '/' :: rest => do
    let (name, rest) ← qname? rest
    let rest ← after? ['>'] (skipSpace rest)
    return (.closing name, rest)
  | '<' :: rest => do
    let (name, rest) ← qname? rest
    let (attributes, selfClosing, rest) ← attributes? fuel rest
    return (.opening name attributes selfClosing, rest)
  | cs => do
    let body := cs.takeWhile (· != '<')
    if (until? "]]>".toList body).isSome then none
    let pieces ← pieces? body
    return (.text pieces, cs.dropWhile (· != '<'))

/-- The tokens of a text, each of which takes at least one character. -/
def scanAll? : Nat → List Char → Option (List Token)
  | _, [] => some []
  | 0, _ => none
  | fuel + 1, cs => do
    let (token, rest) ← scan? (fuel + 1) cs
    let tokens ← scanAll? fuel rest
    return token :: tokens

/-- An attribute of the declaration, called by its first letters, and the space after it. -/
def declared? (name : String) (cs : List Char) : Option (List Char) := do
  let _ ← after? name.toList cs
  let (_, _, rest) ← rawAttribute? cs
  return rest

/-- Space, unless the declaration ends here. -/
def separation? (cs : List Char) : Option (List Char) :=
  if cs.head?.all isSpace || (after? "?>".toList cs).isSome then some (skipSpace cs) else none

/-- What follows a declaration from after its opening: a version, then an encoding or none, then
one more attribute or none. -/
def declaration? (cs : List Char) : Option (List Char) := do
  let rest ← declared? "version" (skipSpace cs)
  let rest ← separation? rest
  let rest ←
    if (after? "encoding".toList rest).isSome then (declared? "encoding" rest).bind separation?
    else some rest
  let rest ←
    if (after? "standalone".toList rest).isSome then declared? "standalone" rest else some rest
  after? "?>".toList (skipSpace rest)

/-- The tokens of a document, its declaration aside. -/
def ofDocument? (cs : List Char) : Option (List Token) := do
  if !cs.all isAllowed then none
  let body ←
    match after? "<?xml ".toList cs with
    | some rest => declaration? rest
    | none => some cs
  scanAll? body.length body

end Token

end LintGate.Markup
