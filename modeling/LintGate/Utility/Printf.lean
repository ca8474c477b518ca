import LintGate.Number.Numeral
import LintGate.Utility.Effect

/-!
Formatted printing: escapes, conversions, and the formats that are used again and again until no
argument is left. A shell and the program of the system differ in a few points, which a `Style`
names. All texts are octets.
-/

namespace LintGate.Printf

/-- What the printers differ in. -/
structure Style where
  /-- More letters after a backslash that stand for a character. -/
  extraEscapes : List (Char × Char)
  /-- `\c` in a format ends the printing. -/
  stopsInFormats : Bool
  notNumber : String → String
  notAllNumber : String → String
  outOfRange : String → String
  badDirective : String → String

/-- The printer of a shell. -/
def Style.shell : Style where
  extraEscapes := [('e', '\x1b')]
  stopsInFormats := false
  notNumber s := s!"{s}: expected numeric value"
  notAllNumber s := s!"{s}: not completely converted"
  outOfRange s := s!"{s}: Numerical result out of range"
  badDirective s := s!"{s}: invalid directive"

/-- The printer of the system. -/
def Style.system : Style where
  extraEscapes := [('"', '"'), ('e', '\x1b')]
  stopsInFormats := true
  notNumber s := s!"\x27{s}\x27: expected a numeric value"
  notAllNumber s := s!"\x27{s}\x27: value not completely converted"
  outOfRange s := s!"\x27{s}\x27: Numerical result out of range"
  badDirective s := s!"{s}: invalid conversion specification"

/-- The character that a letter after a backslash stands for. -/
def Style.escape? (style : Style) (c : Char) : Option Char :=
  match c with
  | 'n' => some '\n'
  | 't' => some '\t'
  | 'r' => some '\r'
  | 'a' => some '\x07'
  | 'b' => some '\x08'
  | 'f' => some '\x0c'
  | 'v' => some '\x0b'
  | '\\' => some '\\'
  | c => (style.extraEscapes.find? (·.1 == c)).map (·.2)

/-- The octal digits at the start of a text, three at most, and what follows them. -/
def octal (cs : List Char) : Nat × List Char :=
  let found := (cs.take 3).takeWhile fun c => '0' ≤ c && c ≤ '7'
  (found.foldl (fun n c => 8 * n + Text.digitValue c) 0, cs.drop found.length)

/-- What a backslash before these characters stands for, and what follows. Where it stands for
nothing it stays. -/
def Style.escaped (style : Style) (cs : List Char) : Char × List Char :=
  match cs with
  | [] => ('\\', [])
  | c :: rest =>
    if '0' ≤ c && c ≤ '7' then
      let (value, rest) := octal cs
      (Char.ofNat (value % 256), rest)
    else
      match style.escape? c with
      | some d => (d, rest)
      | none => ('\\', cs)

/-- The text with its escapes replaced, and whether `\c` asks for nothing more. A zero may stand
before three octal digits. -/
def Style.unescape (style : Style) : (fuel : Nat) → List Char → List Char × Bool
  | 0, _ => ([], false)
  | _ + 1, [] => ([], false)
  | fuel + 1, c :: rest =>
    if c ≠ '\\' then
      let (found, stop) := style.unescape fuel rest
      (c :: found, stop)
    else
      match rest with
      | 'c' :: _ => ([], true)
      | '0' :: d :: after =>
        let (c, after) := style.escaped (if '0' ≤ d && d ≤ '7' then d :: after else rest)
        let (found, stop) := style.unescape fuel after
        (c :: found, stop)
      | rest =>
        let (c, after) := style.escaped rest
        let (found, stop) := style.unescape fuel after
        (c :: found, stop)

/-- How a conversion lays its value out. -/
structure Layout where
  flags : List Char
  width : Nat
  precision : Option Nat

namespace Layout

/-- The text widened with blanks; zeros take their place after a sign where `zeros` allows it. -/
def widen (l : Layout) (zeros : Bool) (cs : List Char) : List Char :=
  let gap := l.width - cs.length
  if l.flags.contains '-' then cs ++ List.replicate gap ' '
  else if zeros && l.flags.contains '0' then
    let sign := cs.takeWhile fun c => "+- ".toList.contains c
    sign ++ List.replicate gap '0' ++ cs.drop sign.length
  else List.replicate gap ' ' ++ cs

/-- The sign that stands before a number. -/
def sign (l : Layout) (negative : Bool) : List Char :=
  if negative then ['-']
  else if l.flags.contains '+' then ['+']
  else if l.flags.contains ' ' then [' ']
  else []

/-- The digits with zeros in front up to the precision. -/
def digits (l : Layout) (cs : List Char) : List Char :=
  List.replicate (l.precision.getD 1 - cs.length) '0' ++
    (if l.precision == some 0 && cs == ['0'] then [] else cs)

/-- A signed number. -/
def signed (l : Layout) (n : Int) : List Char :=
  l.widen l.precision.isNone (l.sign (n < 0) ++ l.digits (Nat.toDigits 10 n.natAbs))

/-- A number of 64 bits without a sign. -/
def unsigned (l : Layout) (letter : Char) (n : Int) : List Char :=
  let n := (n % UInt64.size).toNat
  let base := if letter == 'o' then 8 else if letter == 'u' then 10 else 16
  let found := l.digits (Nat.toDigits base n)
  let found := if letter == 'X' then found.map Char.toUpper else found
  let mark :=
    if !l.flags.contains '#' then []
    else if letter == 'o' then (if found.head? == some '0' then [] else ['0'])
    else if letter == 'u' || n = 0 then []
    else ['0', letter]
  l.widen l.precision.isNone (mark ++ found)

/-- A text, cut to the precision. -/
def text (l : Layout) (cs : List Char) : List Char :=
  l.widen false (match l.precision with
    | some n => cs.take n
    | none => cs)

/-- The quotient with so many places after the point. -/
def fixed (num den places : Nat) : List Char :=
  let found := Nat.toDigits 10 (Double.roundQuotient (num * Nat.pow 10 places) den)
  let found := List.replicate (places + 1 - found.length) '0' ++ found
  let whole := found.take (found.length - places)
  if places = 0 then whole else whole ++ '.' :: found.drop whole.length

/-- The power of ten of the leading digit of a quotient that is not zero. -/
def magnitude (num den : Nat) : Int :=
  (Double.digitCount (num * Nat.pow 10 400 / den) : Int) - 401

/-- The leading digits of a quotient, `places + 1` of them, and the power of ten of the first. -/
def leading (num den places : Nat) : List Char × Int :=
  if num = 0 then (List.replicate (places + 1) '0', 0)
  else
    let top := magnitude num den
    let shift : Int := places - top
    let m :=
      if 0 ≤ shift then Double.roundQuotient (num * Nat.pow 10 shift.toNat) den
      else Double.roundQuotient num (den * Nat.pow 10 (-shift).toNat)
    let found := Nat.toDigits 10 m
    if found.length = places + 2 then (found.dropLast, top + 1) else (found, top)

/-- A power of ten as it is written. -/
def power (letter : Char) (n : Int) : List Char :=
  let found := Nat.toDigits 10 n.natAbs
  letter :: (if n < 0 then '-' else '+') :: (List.replicate (2 - found.length) '0' ++ found)

/-- The quotient with one digit before the point. -/
def scientific (letter : Char) (num den places : Nat) : List Char :=
  let (found, top) := leading num den places
  let body := match found with
    | first :: rest => if rest.isEmpty then [first] else first :: '.' :: rest
    | [] => []
  body ++ power letter top

/-- The text without zeros behind the point, nor the point before nothing. -/
def shortened (cs : List Char) : List Char :=
  if cs.contains '.' then
    let kept := cs.reverse.dropWhile (· == '0')
    (if kept.head? == some '.' then kept.tail else kept).reverse
  else cs

/-- The quotient in the shorter of the two forms. -/
def general (letter : Char) (num den places : Nat) : List Char :=
  let places := max places 1
  let (_, top) := leading num den (places - 1)
  if -4 ≤ top && top < places then shortened (fixed num den (places - 1 - top).toNat)
  else
    let found := scientific letter num den (places - 1)
    let body := found.takeWhile (· != letter)
    shortened body ++ found.drop body.length

/-- A number with a fraction. -/
def real (l : Layout) (letter : Char) (d : Double) : List Char :=
  let (num, den) :=
    if 0 ≤ d.exponent then (d.significand * Nat.pow 2 d.exponent.toNat, 1)
    else (d.significand, Nat.pow 2 (-d.exponent).toNat)
  let places := l.precision.getD 6
  let body :=
    if letter == 'f' || letter == 'F' then fixed num den places
    else if letter == 'e' then scientific 'e' num den places
    else if letter == 'E' then scientific 'E' num den places
    else general (if letter == 'G' then 'E' else 'e') num den places
  l.widen true (l.sign d.isNegative ++ body)

end Layout

/-- Where a printer stands. -/
structure State where
  /-- What was printed, the last piece first. -/
  output : List (List Char) := []
  arguments : List String
  warnings : List String := []
  /-- Nothing more is to be printed. -/
  stopped : Bool := false
  /-- What ended the printing. -/
  fault : Option String := none

namespace State

def put (s : State) (cs : List Char) : State :=
  { s with output := cs :: s.output }

def warn (s : State) (message : String) : State :=
  { s with warnings := s.warnings ++ [message] }

/-- The next argument, and the state without it. -/
def next (s : State) : Option String × State :=
  (s.arguments.head?, { s with arguments := s.arguments.tail })

end State

/-- The integer that an argument stands for; a quote stands before a character. -/
def integerOf (style : Style) (argument : Option String) (s : State) : Int × State :=
  match argument with
  | none => (0, s)
  | some a =>
    match a.toList with
    | '\'' :: c :: _ => (c.toNat, s)
    | '"' :: c :: _ => (c.toNat, s)
    | cs =>
      match Text.leadingInteger? true cs with
      | none => (0, s.warn (style.notNumber a))
      | some (n, rest) =>
        let s := if rest.isEmpty then s else s.warn (style.notAllNumber a)
        if n < Int64.minValue.toInt then (Int64.minValue.toInt, s.warn (style.outOfRange a))
        else if UInt64.size ≤ n then (Int64.maxValue.toInt, s.warn (style.outOfRange a))
        else (n, s)

/-- The number with a fraction that an argument stands for. -/
def realOf (style : Style) (argument : Option String) (s : State) : Option Double × State :=
  match argument with
  | none => (Double.ofRank? false 0, s)
  | some a =>
    let cs := a.toList.dropWhile Text.isNumberSpace
    let negative := cs.head? == some '-'
    let cs := if negative || cs.head? == some '+' then cs.tail else cs
    let whole := cs.takeWhile Char.isDigit
    let rest := cs.drop whole.length
    let (fraction, rest) := match rest with
      | '.' :: rest => (some (rest.takeWhile Char.isDigit), rest.dropWhile Char.isDigit)
      | rest => (none, rest)
    let (power, rest) :=
      if rest.head? == some 'e' || rest.head? == some 'E' then
        match Text.leadingInteger? false rest.tail with
        | some (n, after) => (some n, after)
        | none => (none, rest)
      else (none, rest)
    if whole.isEmpty && (fraction.getD []).isEmpty then
      (Double.ofRank? false 0, s.warn (style.notNumber a))
    else
      ((Numeral.mk negative whole fraction power).nearest?,
        if rest.isEmpty then s else s.warn (style.notAllNumber a))

/-- A width or precision: digits, or a star that stands for the next argument. -/
def measure (style : Style) (cs : List Char) (s : State) : Option Int × List Char × State :=
  match cs with
  | '*' :: rest =>
    let (argument, s) := s.next
    let (n, s) := integerOf style argument s
    (some n, rest, s)
  | cs =>
    let found := cs.takeWhile Char.isDigit
    (if found.isEmpty then none else some (Text.ofDigits found : Int), cs.drop found.length, s)

/-- Prints the next argument as a letter says. -/
def convert (style : Style) (l : Layout) (letter : Char) (directive : List Char) (s : State) :
    State :=
  let (argument, after) := s.next
  let text := (argument.getD "").toList
  match letter with
  | 's' => after.put (l.text text)
  | 'b' =>
    let (found, stop) := style.unescape (text.length + 1) text
    { after.put (l.text found) with stopped := stop }
  | 'c' => after.put (l.text [text.head?.getD '\x00'])
  | letter =>
    if letter == 'd' || letter == 'i' then
      let (n, after) := integerOf style argument after
      after.put (l.signed n)
    else if "ouxX".toList.contains letter then
      let (n, after) := integerOf style argument after
      after.put (l.unsigned letter n)
    else if "aAeEfFgG".toList.contains letter then
      let (d, after) := realOf style argument after
      after.put ((d.map (l.real letter)).getD "inf".toList)
    else { s with stopped := true, fault := some (style.badDirective (String.ofList directive)) }

/-- Prints a format once. -/
def once (style : Style) : (fuel : Nat) → List Char → State → State
  | 0, _, s => s
  | _ + 1, [], s => s
  | fuel + 1, c :: rest, s =>
    if s.stopped then s
    else if c == '\\' then
      match rest with
      | 'c' :: _ =>
        if style.stopsInFormats then { s with stopped := true }
        else once style fuel rest (s.put ['\\'])
      | rest =>
        let (c, rest) := style.escaped rest
        once style fuel rest (s.put [c])
    else if c ≠ '%' then once style fuel rest (s.put [c])
    else if rest.head? == some '%' then once style fuel rest.tail (s.put ['%'])
    else
      let flags := rest.takeWhile fun c => "#-+ 0".toList.contains c
      let (width, after, s) := measure style (rest.drop flags.length) s
      let (precision, after, s) := match after with
        | '.' :: after =>
          let (found, after, s) := measure style after s
          (some (found.getD 0), after, s)
        | after => (none, after, s)
      match after with
      | [] => { s with stopped := true, fault := some "missing format character" }
      | letter :: after =>
        let width := width.getD 0
        let flags := if width < 0 then '-' :: flags else flags
        let l : Layout := ⟨flags, width.natAbs, (precision.filter (0 ≤ ·)).map Int.toNat⟩
        let directive := '%' :: rest.take (rest.length - after.length)
        once style fuel after (convert style l letter directive s)

/-- Prints a format again and again until no argument is left, or until none was taken. -/
def again (style : Style) (format : List Char) : (fuel : Nat) → State → State
  | 0, s => s
  | fuel + 1, s =>
    let after := once style (format.length + 1) format s
    if after.stopped || after.arguments.isEmpty || after.arguments.length == s.arguments.length then
      after
    else again style format fuel after

/-- What is printed for a format and arguments; `name` stands before each complaint. -/
def effect (style : Style) (name : String) (format : String) (arguments : List String)
    (faultCode : Nat) : Effect :=
  let s := again style format.toList (arguments.length + 1) { arguments := arguments }
  let complaints := (s.warnings ++ s.fault.toList).map fun w =>
    (Stream.stderr, Effect.line s!"{name}: {w}")
  { writes := complaints ++ [(.stdout, Text.Octets.toBytes s.output.reverse.flatten)]
    ending := .exited (if s.fault.isSome then faultCode else if s.warnings.isEmpty then 0 else 1) }

/-- The program of the system. -/
def ofCall (c : Call) : Effect :=
  match c.arguments with
  | [] => c.misused 1 "missing operand"
  | format :: arguments => effect .system c.name format arguments 1

/-- What a shell echoes: its arguments with spaces between them, escapes replaced. -/
def echo (arguments : List String) : Effect :=
  let (newline, arguments) := match arguments with
    | "-n" :: rest => (false, rest)
    | rest => (true, rest)
  let text := (" ".intercalate arguments).toList
  let (found, stop) := Style.shell.unescape (text.length + 1) text
  .printing (Text.Octets.toBytes (if newline && !stop then found ++ ['\n'] else found))

/-- The echo of the system: options ask for escapes, or for no line end. -/
def echoOfCall (c : Call) : Effect :=
  let isOption (a : String) : Bool :=
    a.startsWith "-" && 1 < a.length && (a.toList.drop 1).all fun c => "neE".toList.contains c
  let options := (c.arguments.takeWhile isOption).flatMap (·.toList)
  let text := (" ".intercalate (c.arguments.dropWhile isOption)).toList
  let escapes := (options.filter fun c => c == 'e' || c == 'E').getLast? == some 'e'
  let (found, stop) :=
    if escapes then Style.system.unescape (text.length + 1) text else (text, false)
  .printing (Text.Octets.toBytes
    (if options.contains 'n' || stop then found else found ++ ['\n']))

end LintGate.Printf
