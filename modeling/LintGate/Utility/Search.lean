import LintGate.Text.Regex
import LintGate.Utility.Effect

/-!
Programs that look for patterns in lines: `grep`, `sed` and `expr`.
-/

namespace LintGate.Utility

/-- The octets of a line. -/
def lineOctets (line : List UInt8) : Array Char :=
  (Text.Octets.ofBytes line).toArray

/-- The options of `grep` that are written as words. -/
def grepWords (options : List CallOption) : List CallOption :=
  options.map fun o =>
    match o with
    | ('-', some "ignore-case") => ('i', none)
    | ('-', some "invert-match") => ('v', none)
    | ('-', some "line-number") => ('n', none)
    | ('-', some "count") => ('c', none)
    | ('-', some "quiet") => ('q', none)
    | ('-', some "only-matching") => ('o', none)
    | ('-', some "fixed-strings") => ('F', none)
    | ('-', some "extended-regexp") => ('E', none)
    | o => o

/-- Whether what stands around a match is no part of a word. -/
def standsAlone (text : Array Char) (m : Text.Regex.Match) : Bool :=
  let isWord (c : Option Char) : Bool := c.any Text.Regex.isWordChar
  !(0 < m.start && isWord text[m.start - 1]?) && !isWord text[m.stop]?

/-- The parts of a line that a test finds, from a place on. -/
def foundParts (find : Nat → Option Text.Regex.Match) : (fuel : Nat) → Nat →
    List Text.Regex.Match
  | 0, _ => []
  | fuel + 1, start =>
    match find start with
    | none => []
    | some m =>
      let rest := foundParts find fuel (if m.start < m.stop then m.stop else m.stop + 1)
      if m.start < m.stop then m :: rest else rest

/-- The lines in which a pattern is found. -/
def grep (c : Call) : Effect :=
  let (options, operands, lacking) := splitOptions "efmABC".toList c.arguments
  let options := grepWords options
  let has := hasOption options
  let given := (options.filter (·.1 == 'e')).filterMap (·.2)
  let (patterns, operands) := match given, operands with
    | [], pattern :: rest => ([pattern], rest)
    | given, operands => (given, operands)
  let usage : Effect :=
    (Effect.failing 2 s!"Usage: {c.name} [OPTION]... PATTERNS [FILE]...").complain 2
      s!"Try '{c.name} --help' for more information."
  if patterns.isEmpty || lacking.isSome then usage
  else
    let spelled := (patterns.flatMap (·.splitOn "\n")).map fun p =>
      if has 'F' then some (Text.Regex.ofLiteral p.toList)
      else Text.Regex.ofText? (has 'E') p.toList
    match spelled.mapM id with
    | none => .failing 2 s!"{c.name}: Invalid regular expression"
    | some regexes =>
      let find (text : Array Char) (start : Nat) : Option Text.Regex.Match :=
        Text.Regex.longest? <| (regexes.filterMap fun r =>
          Text.Regex.search? r text (has 'i' || has 'y') start).filter fun m =>
            (!has 'x' || (m.start = 0 && m.stop = text.size)) && (!has 'w' || standsAlone text m)
      let limit := (optionValue? options 'm').bind fun n => Text.natural? n.toList
      let manyFiles := (1 < operands.length || has 'H') && !has 'h'
      let contents := c.contents operands
      let reads := Call.appetite operands
      let start : Effect × Bool × Bool := ({ reads := reads }, false, false)
      let (e, isFound, isBad) := contents.foldl (fun (e, isFound, isBad) (name, content) =>
        match content with
        | .error message => (if has 's' then e else e.complain 2 message, isFound, true)
        | .ok bytes =>
          let name := if name == "-" then "(standard input)" else name
          let numbered := (plainLines bytes).zipIdx 1
          let kept := numbered.filter fun (line, _) =>
            (find (lineOctets line) 0).isSome != has 'v'
          let kept := match limit with
            | some n => kept.take n
            | none => kept
          let title := if manyFiles then s!"{name}:" else ""
          let number (n : Nat) : String := if has 'n' then s!"{n}:" else ""
          let e :=
            if has 'q' then e
            else if has 'l' then if kept.isEmpty then e else e.print (Effect.line name)
            else if has 'L' then if kept.isEmpty then e.print (Effect.line name) else e
            else if has 'c' then e.print (Effect.line s!"{title}{kept.length}")
            else if has 'o' then
              e.print <| kept.flatMap fun (line, n) =>
                let text := lineOctets line
                (foundParts (find text) (text.size + 2) 0).flatMap fun m =>
                  let part := String.ofList (text.extract m.start m.stop).toList
                  Effect.line s!"{title}{number n}{part}"
            else
              e.print <| kept.flatMap fun (line, n) =>
                Text.Octets.bytes s!"{title}{number n}" ++ line ++ [10]
          (e, isFound || !kept.isEmpty, isBad)) start
      let code := if isFound && (has 'q' || !isBad) then 0 else if isBad then 2 else 1
      { e with ending := .exited code }

/-- Which lines a command of `sed` is for. -/
inductive SedAddress
  | number (n : Nat)
  | last
  | pattern (r : Text.Regex)

/-- What `sed` does to a line. -/
inductive SedAction
  | substitute (r : Text.Regex) (replacement : List Char) (flags : List Char)
  | print
  | delete
  | quit
  | number

structure SedCommand where
  first : Option SedAddress := none
  last : Option SedAddress := none
  inverted : Bool := false
  action : SedAction

/-- The text up to an unescaped delimiter, and what follows it. -/
def delimited (d : Char) : List Char → Option (List Char × List Char)
  | [] => none
  | '\\' :: c :: rest =>
    (delimited d rest).map fun (inner, after) =>
      (if c == d then c :: inner else '\\' :: c :: inner, after)
  | c :: rest =>
    if c == d then some ([], rest)
    else (delimited d rest).map fun (inner, after) => (c :: inner, after)

/-- The address with which a text begins. -/
def sedAddress? (isExtended : Bool) (cs : List Char) : Option (SedAddress × List Char) :=
  match cs with
  | '$' :: rest => some (.last, rest)
  | '/' :: rest => do
    let (inner, rest) ← delimited '/' rest
    return (.pattern (← Text.Regex.ofText? isExtended inner), rest)
  | cs =>
    let digits := cs.takeWhile Char.isDigit
    (Text.natural? digits).map fun n => (.number n, cs.drop digits.length)

/-- The action with which a text begins. -/
def sedAction? (isExtended : Bool) (cs : List Char) : Option (SedAction × List Char) :=
  match cs with
  | 'p' :: rest => some (.print, rest)
  | 'd' :: rest => some (.delete, rest)
  | 'q' :: rest => some (.quit, rest)
  | '=' :: rest => some (.number, rest)
  | 's' :: d :: rest => do
    let (pattern, rest) ← delimited d rest
    let (replacement, rest) ← delimited d rest
    let flags := rest.takeWhile fun c => c.isAlphanum
    return (.substitute (← Text.Regex.ofText? isExtended pattern) replacement flags,
      rest.drop flags.length)
  | _ => none

/-- The commands of a script for `sed`. -/
def sedCommands (isExtended : Bool) : (fuel : Nat) → List Char → Option (List SedCommand)
  | 0, _ => none
  | fuel + 1, cs =>
    let isGap (c : Char) : Bool := c == ' ' || c == ';' || c == '\n' || c == '\t'
    match cs.dropWhile isGap with
    | [] => some []
    | cs => do
      let (first, cs) := match sedAddress? isExtended cs with
        | some (a, rest) => (some a, rest)
        | none => (none, cs)
      let (last, cs) ← match cs with
        | ',' :: rest => (sedAddress? isExtended rest).map fun (a, rest) => (some a, rest)
        | cs => some (none, cs)
      let cs := cs.dropWhile (· == ' ')
      let inverted := cs.head? == some '!'
      let (action, rest) ← sedAction? isExtended (if inverted then cs.tail else cs)
      if rest.head?.any fun c => !isGap c then none
      else return ⟨first, last, inverted, action⟩ :: (← sedCommands isExtended fuel rest)

/-- A replacement with what was matched in it. -/
def sedReplacement (text : Array Char) (m : Text.Regex.Match) : List Char → List Char
  | [] => []
  | '\\' :: c :: rest =>
    let shown :=
      if c == 'n' then ['\n']
      else if c.isDigit then
        match m.group? (Text.digitValue c) with
        | some (start, stop) => (text.extract start stop).toList
        | none => []
      else [c]
    shown ++ sedReplacement text m rest
  | '&' :: rest => (text.extract m.start m.stop).toList ++ sedReplacement text m rest
  | c :: rest => c :: sedReplacement text m rest

/-- A text with the matches of an expression replaced, from the `wanted`th one on; whether there was
one comes with it. -/
def sedSubstitute (r : Text.Regex) (replacement : List Char) (all ignoresCase : Bool)
    (text : Array Char) : (fuel : Nat) → (start wanted : Nat) → List Char × Bool
  | 0, start, _ => ((text.extract start text.size).toList, false)
  | fuel + 1, start, wanted =>
    match Text.Regex.search? r text ignoresCase start with
    | none => ((text.extract start text.size).toList, false)
    | some m =>
      let before := (text.extract start m.start).toList
      let isEmpty := m.start = m.stop
      let step := if isEmpty then (text.extract m.stop (m.stop + 1)).toList else []
      let next := if isEmpty then m.stop + 1 else m.stop
      let goOn (wanted : Nat) : List Char × Bool :=
        if text.size < next || (isEmpty && text.size ≤ m.stop) then ([], false)
        else sedSubstitute r replacement all ignoresCase text fuel next wanted
      if 1 < wanted then
        let (rest, found) := goOn (wanted - 1)
        (before ++ (text.extract m.start m.stop).toList ++ step ++ rest, found)
      else
        let shown := sedReplacement text m replacement
        if all then (before ++ shown ++ step ++ (goOn 1).1, true)
        else (before ++ shown ++ (text.extract m.stop text.size).toList, true)

/-- Whether an address is for a line. -/
def SedAddress.holds (a : SedAddress) (n : Nat) (isLast : Bool) (text : Array Char) : Bool :=
  match a with
  | number m => n == m
  | last => isLast
  | pattern r => (Text.Regex.search? r text false 0).isSome

/-- What becomes of one line: it, what is printed before it, whether it goes away, whether it is the
last one, and in which commands a range goes on after it. -/
structure SedState where
  text : List Char
  printed : List (List Char) := []
  deleted : Bool := false
  quits : Bool := false
  ranges : List Bool := []

/-- The state after one command. -/
def SedCommand.step (n : Nat) (isLast : Bool) (s : SedState) (cmd : SedCommand × Bool) : SedState :=
  let (cmd, inRange) := cmd
  let text := s.text.toArray
  let (applies, staysInRange) :=
    match cmd.first, cmd.last with
    | none, _ => (true, false)
    | some a, none => (a.holds n isLast text, false)
    | some a, some b =>
      if inRange then (true, !b.holds n isLast text)
      else if a.holds n isLast text then
        match b with
        | .number m => (true, n < m)
        | _ => (true, !isLast)
      else (false, false)
  let s := { s with ranges := s.ranges ++ [staysInRange] }
  if s.deleted || s.quits || applies == cmd.inverted then s
  else
    match cmd.action with
    | .print => { s with printed := s.printed ++ [s.text] }
    | .delete => { s with deleted := true }
    | .quit => { s with quits := true }
    | .number => { s with printed := s.printed ++ [Text.digits n] }
    | .substitute r replacement flags =>
      let wanted := (Text.natural? (flags.filter Char.isDigit)).getD 1
      let ignoresCase := flags.contains 'I' || flags.contains 'i'
      let (changed, found) :=
        sedSubstitute r replacement (flags.contains 'g') ignoresCase text (text.size + 2) 0 wanted
      let s := { s with text := changed }
      if found && flags.contains 'p' then { s with printed := s.printed ++ [changed] } else s

/-- The lines that commands make of lines. -/
def sedLines (quiet : Bool) (commands : List SedCommand) (total : Nat) : Nat → List Bool →
    List (List UInt8) → List UInt8
  | _, _, [] => []
  | n, ranges, line :: rest =>
    let start : SedState := { text := Text.Octets.ofBytes (withoutEnd line) }
    let s := (commands.zip ranges).foldl (SedCommand.step n (n == total)) start
    let shown := s.printed ++ (if s.deleted || quiet then [] else [s.text])
    let ends : List UInt8 := if line.getLast? = some 10 then [10] else []
    let printed := shown.map fun t => Text.Octets.toBytes t
    let bytes := match printed.getLast? with
      | some final => ended printed.dropLast ++ final ++ ends
      | none => []
    if s.quits then bytes else bytes ++ sedLines quiet commands total (n + 1) s.ranges rest

/-- Lines with changes. -/
def sed (c : Call) : Effect :=
  match c.options "nErsu" "e" with
  | .error e => e
  | .ok (options, operands) =>
    let given := (options.filter (·.1 == 'e')).filterMap (·.2)
    let (script, operands) := match given, operands with
      | [], script :: rest => (some script, rest)
      | [], [] => (none, [])
      | given, operands => (some ("\n".intercalate given), operands)
    match script with
    | none =>
      let operands := "\x7bscript-only-if-no-other-script\x7d [input-file]..."
      .failing 1 s!"Usage: {c.name} [OPTION]... {operands}"
    | some script =>
      let isExtended := hasOption options 'E' || hasOption options 'r'
      match sedCommands isExtended (script.length + 1) script.toList with
      | none => .failing 1 s!"{c.name}: -e expression #1, char {script.length}: unknown command"
      | some commands =>
        let start : List UInt8 × Effect := ([], { reads := Call.appetite operands })
        let (all, e) := (c.contents operands).foldl (fun (all, e) (name, content) =>
          match content with
          | .ok bytes => (all ++ bytes, e)
          | .error message =>
            let reason := (message.splitOn ": ").getLast?.getD ""
            (all, e.complain 2 s!"{c.name}: can't read {name}: {reason}")) start
        let lines := fullLines all
        let ranges := commands.map fun _ => false
        e.print (sedLines (hasOption options 'n') commands lines.length 1 ranges lines)

/-- The integer that an operand is. -/
def exprInteger? (s : String) : Option Int :=
  match s.toList with
  | '-' :: rest => (Text.natural? rest).map fun n => -(n : Int)
  | rest => (Text.natural? rest).map (·)

/-- What a part of an expression comes to, and the words after it, or a code and a message. -/
abbrev ExprResult := Except (Nat × String) (String × List String)

/-- Whether an operand is neither empty nor zero. -/
def exprHolds (s : String) : Bool :=
  !s.isEmpty && exprInteger? s != some 0

/-- The result of a binary operator. -/
def exprApply (op a b : String) : Except (Nat × String) String := do
  let truth (p : Bool) : String := if p then "1" else "0"
  let integers : Except (Nat × String) (Int × Int) :=
    match exprInteger? a, exprInteger? b with
    | some m, some n => .ok (m, n)
    | _, _ => .error (2, "non-integer argument")
  let ordering : Ordering := match exprInteger? a, exprInteger? b with
    | some m, some n => compare m n
    | _, _ => compare a b
  match op with
  | "|" => return if exprHolds a then a else if exprHolds b then b else "0"
  | "&" => return if exprHolds a && exprHolds b then a else "0"
  | "<" => return truth (ordering == .lt)
  | "<=" => return truth (ordering != .gt)
  | "=" => return truth (ordering == .eq)
  | "==" => return truth (ordering == .eq)
  | "!=" => return truth (ordering != .eq)
  | ">=" => return truth (ordering != .lt)
  | ">" => return truth (ordering == .gt)
  | "+" => return toString ((← integers).1 + (← integers).2)
  | "-" => return toString ((← integers).1 - (← integers).2)
  | "*" => return toString ((← integers).1 * (← integers).2)
  | ":" =>
    match Text.Regex.ofText? false b.toList with
    | none => throw (2, "Invalid regular expression")
    | some r =>
      let text := a.toList.toArray
      let found := Text.Regex.matchAt? r text false 0
      let hasGroup := (b.splitOn "\\(").length > 1
      match found with
      | none => return if hasGroup then "" else "0"
      | some m =>
        if hasGroup then
          return ((m.group? 1).map fun (start, stop) =>
            String.ofList (text.extract start stop).toList).getD ""
        else return toString (m.stop - m.start)
  | op =>
    let (m, n) ← integers
    if n = 0 then throw (2, "division by zero")
    return toString (if op == "/" then m.tdiv n else m.tmod n)

/-- The binary operators by their binding strength, the loosest first. -/
def exprLevels : List (List String) :=
  [["|"], ["&"], ["<", "<=", "=", "==", "!=", ">=", ">"], ["+", "-"], ["*", "/", "%"], [":"]]

mutual
/-- An expression of operators of the given levels. -/
def exprAt : (fuel : Nat) → List (List String) → List String → ExprResult
  | 0, _, _ => .error (2, "syntax error")
  | fuel + 1, [], words =>
    match words with
    | [] => .error (2, "syntax error: missing argument")
    | "(" :: rest => do
      let (value, rest) ← exprAt fuel exprLevels rest
      match rest with
      | ")" :: rest => return (value, rest)
      | _ => throw (2, "syntax error: expecting ')'")
    | "length" :: s :: rest => .ok (toString s.length, rest)
    | "substr" :: s :: i :: n :: rest =>
      match exprInteger? i, exprInteger? n with
      | some i, some n =>
        .ok (if i < 1 || n < 1 then "" else
          String.ofList ((s.toList.drop (i.toNat - 1)).take n.toNat), rest)
      | _, _ => .ok ("", rest)
    | "index" :: s :: chars :: rest =>
      .ok (toString ((s.toList.findIdx? chars.toList.contains).map (· + 1) |>.getD 0), rest)
    | "match" :: s :: pattern :: rest => (exprApply ":" s pattern).map (·, rest)
    | s :: rest => .ok (s, rest)
  | fuel + 1, level :: levels, words => do
    let (first, rest) ← exprAt fuel levels words
    exprFrom fuel level levels first rest

/-- What follows the first operand of operators of a level. -/
def exprFrom : (fuel : Nat) → List String → List (List String) → String → List String → ExprResult
  | 0, _, _, _, _ => .error (2, "syntax error")
  | fuel + 1, level, levels, first, words =>
    match words with
    | op :: rest =>
      if level.contains op then
        if rest.isEmpty then .error (2, s!"syntax error: missing argument after \x27{op}\x27")
        else do
          let (second, rest) ← exprAt fuel levels rest
          exprFrom fuel level levels (← exprApply op first second) rest
      else .ok (first, words)
    | [] => .ok (first, [])
end

/-- The value of an expression. -/
def expr (c : Call) : Effect :=
  if c.arguments.isEmpty then c.misused 2 "missing operand"
  else
    match exprAt (16 * (c.arguments.length + 1)) exprLevels c.arguments with
    | .error (code, message) => .failing code s!"{c.name}: {message}"
    | .ok (value, []) =>
      { Effect.printing (Effect.line value) with
        ending := .exited (if exprHolds value then 0 else 1) }
    | .ok (_, word :: _) =>
      .failing 2 s!"{c.name}: syntax error: unexpected argument \x27{word}\x27"

end LintGate.Utility
