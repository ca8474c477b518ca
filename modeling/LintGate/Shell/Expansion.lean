import LintGate.Shell.Arithmetic
import LintGate.Shell.Fields
import LintGate.Shell.Session

/-!
The expansion of words: parameters, output of commands and arithmetic are put in, the result is cut
into fields, and fields that are patterns become the paths that match.
-/

namespace LintGate.Shell

/-- How the statements and words in the parts of a word are run and expanded. -/
structure Engine where
  /-- What statements print, without the line ends at the end. -/
  output : Statement → Script (List Char)
  /-- Glyphs of a word, for fields if it is to be cut, and inside of braces if it stands there. -/
  glyphs : (splits inner : Bool) → Word → Script (List Glyph)

namespace Expansion

/-- The home directory that `~` and a name stand for. -/
def home? (s : Session) (user : List Char) : Option String :=
  match String.ofList user with
  | "" => s.lookup? "HOME"
  | "root" => some "/root"
  | _ => none

/-- A text with the home directory that its beginning stands for. The name of a user has to end in
it, be it with the word. -/
def withHome (s : Session) (inner isWhole : Bool) (cs : List Char) : List Glyph :=
  let plain (cs : List Char) : List Glyph :=
    if inner then Glyph.ofValue false cs else Glyph.ofText false cs
  match cs with
  | '~' :: rest =>
    let user := rest.takeWhile (· != '/')
    match home? s user, user.length < rest.length || isWhole with
    | some dir, true => Glyph.ofText true dir.toList ++ plain (rest.drop user.length)
    | _, _ => plain cs
  | cs => plain cs

/-- The beginning of a word with the home directories in it, and the rest. In the value of a
variable they may also stand after colons. -/
def homes (s : Session) (inner isValue : Bool) : Word → List Glyph × Word
  | .text cs false :: rest =>
    let pieces := if isValue then cs.splitOn ':' else [cs]
    let shown := pieces.mapIdx fun i piece =>
      withHome s inner (rest.isEmpty || i + 1 < pieces.length) piece
    ([Glyph.solid ':' false].intercalate shown, rest)
  | w => ([], w)

/-- The value of a parameter as a number. -/
def integerOf (name : String) : Script Int := do
  let value := ((← get).value? name).getD ""
  let cs := value.toList
  let found := match Text.leadingInteger? true cs with
    | some (n, rest) => if isShort n && rest.all Text.isNumberSpace then some n else none
    | none => if cs.all Text.isNumberSpace then some 0 else none
  match found with
  | some n => return n
  | none => Script.fault s!"Illegal number: {value}"

/-- The value of an expression. -/
def valueOf (text : List Char) : Script Int := do
  let fault (message : String) : Script Int :=
    Script.fault s!"arithmetic expression: {message}: \"{String.ofList text}\""
  match Expression.ofText text with
  | .error message => fault message
  | .ok e =>
    e.eval
      { read := integerOf
        write := fun name n => Script.assign name (toString n)
        fault := fault "division by zero" }

/-- Glyphs of all arguments. -/
def arguments (s : Session) (splits quoted : Bool) (name : String) : List Glyph :=
  let joined (joint : String) := (joint.intercalate s.arguments).toList
  if name == "@" && quoted && splits then
    if s.arguments.isEmpty then []
    else .edge true :: [Glyph.loose '\x00'].intercalate
      (s.arguments.map fun a => Glyph.ofText true a.toList)
  else if splits && !quoted then
    .edge false :: (joined (if (s.lookup? "IFS").isSome then "\x00" else " ")).map .loose
  else Glyph.ofValue quoted (joined s.joint)

/-- The octets of glyphs that are not cut into fields. -/
def textOf (gs : List Glyph) : String :=
  String.ofList ((Glyph.marked gs).map (·.1))

/-- The value of a parameter, empty if it has none and need not have one. -/
def valueText (name : String) : Script String := do
  let s ← get
  match s.value? name with
  | some v => return v
  | none =>
    if s.options.contains 'u' && name != "@" && name != "*" then
      Script.fault s!"{name}: parameter not set"
    return ""

/-- Glyphs of a parameter's value. -/
def value (splits quoted : Bool) (name : String) : Script (List Glyph) := do
  if name == "@" || name == "*" then return arguments (← get) splits quoted name
  else return Glyph.ofValue quoted (← valueText name).toList

/-- Glyphs of a parameter that may lack a value. -/
def filled (e : Engine) (splits quoted : Bool) (name : String) (lack : Lack) (orEmpty : Bool)
    (word : Word) : Script (List Glyph) := do
  let isLacking := match (← get).value? name with
    | some v => orEmpty && v.isEmpty
    | none => true
  match lack, isLacking with
  | .replace, true => return []
  | .replace, false => e.glyphs splits true word
  | .fallback, true => e.glyphs splits true word
  | .assign, true =>
    Script.assign name (textOf (← e.glyphs false true word))
    value splits quoted name
  | .demand, true =>
    let text := textOf (← e.glyphs false true word)
    let complaint :=
      if !text.isEmpty then text
      else if orEmpty then "parameter not set or null" else "parameter not set"
    Script.fault s!"{name}: {complaint}"
  | _, false => value splits quoted name

/-- Glyphs of a parameter, used in some way. -/
def parameter (e : Engine) (splits quoted : Bool) (name : String) (use : Use) :
    Script (List Glyph) := do
  let trimmed (trim : Pattern → List Char → List Char) (pattern : Word) : Script (List Glyph) := do
    let text ← valueText name
    let p := Pattern.ofMarked (Glyph.marked (← e.glyphs false false pattern))
    return Glyph.ofValue quoted (trim p text.toList)
  match use with
  | .bad => Script.fault "Bad substitution"
  | .plain => value splits quoted name
  | .length => return Glyph.ofValue quoted (toString (← valueText name).length).toList
  | .dropStart longest pattern => trimmed (Pattern.withoutStart · longest) pattern
  | .dropEnd longest pattern => trimmed (Pattern.withoutEnd · longest) pattern
  | .onLack lack orEmpty word => filled e splits quoted name lack orEmpty word

/-- Glyphs of a piece of a word. -/
def part (e : Engine) (splits inner : Bool) : WordPart → Script (List Glyph)
  | .text [] true => return [.mark]
  | .text cs true => return Glyph.ofText true cs
  | .text cs false => return if inner then Glyph.ofValue false cs else Glyph.ofText false cs
  | .parameter name use quoted => parameter e splits quoted name use
  | .output body quoted => return Glyph.ofValue quoted (← e.output body)
  | .value expression quoted => do
    let text := textOf (← e.glyphs false false expression)
    return Glyph.ofValue quoted (toString (← valueOf text.toList)).toList

/-- Glyphs of a word, perhaps of one that becomes the value of a variable. -/
def glyphs (e : Engine) (splits inner isValue : Bool) (w : Word) : Script (List Glyph) := do
  let (start, rest) := homes (← get) inner isValue w
  return start ++ (← rest.mapM (part e splits inner)).flatten

/-- The text of a word that is not cut into fields. -/
def text (e : Engine) (isValue : Bool) (w : Word) : Script String :=
  return textOf (← glyphs e false false isValue w)

/-- The pattern that a word is. -/
def pattern (e : Engine) (w : Word) : Script Pattern :=
  return .ofMarked (Glyph.marked (← glyphs e false false false w))

/-- What separates fields. -/
def separators (s : Session) : List Char :=
  match s.lookup? "IFS" with
  | some separators => separators.toList
  | none => " \t\n".toList

/-- The fields of a word. -/
def fields (e : Engine) (w : Word) : Script (List String) := do
  let gs ← glyphs e true false false w
  let s ← get
  let found := (fieldsOf (separators s) gs).map Glyph.marked
  let found :=
    if s.options.contains 'f' then found.map fun field => field.map (·.1)
    else found.flatMap fun field => Pattern.paths s.machine.files s.process.directory field
  return found.map String.ofList

end Expansion

end LintGate.Shell
