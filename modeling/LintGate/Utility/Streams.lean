import LintGate.Utility.Effect

/-!
Programs that read bytes or lines and write them changed, or some of them, or a count of them.
-/

namespace LintGate.Utility

/-- Each operand's content in turn: what `show` makes of it, and complaints where there is none. -/
def eachContent (c : Call) (operands : List String) (shown : List UInt8 → List UInt8) : Effect :=
  (c.contents operands).foldl (fun e (_, content) =>
    match content with
    | .ok bytes => e.print (shown bytes)
    | .error message => e.complain 1 message) { reads := Call.appetite operands }

/-- All contents that can be read, one after the other, and the complaints about the others. -/
def allContent (c : Call) (operands : List String) : List UInt8 × Effect :=
  (c.contents operands).foldl (fun (all, e) (_, content) =>
    match content with
    | .ok bytes => (all ++ bytes, e)
    | .error message => (all, e.complain 1 message)) ([], { reads := Call.appetite operands })

/-- A word in quotes, as complaints show it. -/
def quotedWord (s : String) : String :=
  s!"'{s}'"

/-- A number with blanks in front. -/
def padded (width n : Nat) : List UInt8 :=
  let digits := Text.digits n
  Text.Octets.toBytes (List.replicate (width - digits.length) ' ' ++ digits)

/-- Files and input, one after the other; lines may be numbered. -/
def cat (c : Call) : Effect :=
  match c.options "nbAEetTuvs" "" with
  | .error e => e
  | .ok (options, operands) =>
    let marks := "AEe".toList.any (hasOption options)
    let tabs := "ATt".toList.any (hasOption options)
    let marked (line : List UInt8) : List UInt8 :=
      let line := if tabs then line.flatMap fun b => if b = 9 then [94, 73] else [b] else line
      if marks && line.getLast? = some 10 then line.dropLast ++ [36, 10] else line
    if hasOption options 'n' || hasOption options 'b' then
      let (all, e) := allContent c operands
      let (lines, _) := (fullLines all).foldl (fun (found, n) line =>
        if hasOption options 'b' && line == [10] then (found ++ marked line, n)
        else (found ++ padded 6 n ++ [9] ++ marked line, n + 1)) (([] : List UInt8), 1)
      e.print lines
    else
      let e := eachContent c operands fun bytes =>
        if marks || tabs then (fullLines bytes).flatMap marked else bytes
      if operands.any Device.isEndless then { e with ending := .never } else e

/-- A count with a letter that multiplies it. -/
def multiple? (cs : List Char) : Option Nat :=
  let digits := cs.takeWhile Char.isDigit
  let factor? : Option Nat := match cs.drop digits.length with
    | [] => some 1
    | ['c'] => some 1
    | ['b'] => some 512
    | ['k', 'B'] => some 1000
    | ['M', 'B'] => some (1000 * 1000)
    | ['k'] => some 1024
    | ['K'] => some 1024
    | ['M'] => some (1024 * 1024)
    | _ => none
  if digits.isEmpty then none else factor?.map (Text.ofDigits digits * ·)

/-- A count of lines or bytes and the sign in front of it. -/
def countOf? (s : String) : Option (Char × Nat) :=
  match s.toList with
  | '-' :: rest => (multiple? rest).map (('-', ·))
  | '+' :: rest => (multiple? rest).map (('+', ·))
  | rest => (multiple? rest).map ((' ', ·))

/-- The arguments with an old form of count written in the new one. -/
def withCounts : List String → List String
  | first :: rest =>
    match first.toList with
    | '-' :: d :: ds => if (d :: ds).all Char.isDigit then "-n" :: String.ofList (d :: ds) :: rest
      else first :: rest
    | _ => first :: rest
  | [] => []

/-- Parts of several files, each under its name. -/
def titled (c : Call) (options : List CallOption) (operands : List String)
    (part : List UInt8 → List UInt8) : Effect :=
  let contents := c.contents operands
  let titles := 1 < contents.length && !hasOption options 'q' || hasOption options 'v'
  let (e, _) := contents.foldl (fun (e, isFirst) (name, content) =>
    match content with
    | .error message =>
      let reason := (message.splitOn ": ").getLastD ""
      (e.complain 1 s!"{c.name}: cannot open \x27{name}\x27 for reading: {reason}", isFirst)
    | .ok bytes =>
      let shownName := if name == "-" then "standard input" else name
      let title :=
        if titles then (if isFirst then [] else [10]) ++ Effect.line s!"==> {shownName} <=="
        else []
      (e.print (title ++ part bytes), false)) (({} : Effect), true)
  e

/-- The first lines or bytes. -/
def head (c : Call) : Effect :=
  let c := { c with arguments := withCounts c.arguments }
  match c.options "qv" "nc" with
  | .error e => e
  | .ok (options, operands) =>
    let asked := (optionValue? options 'n').getD "10"
    match countOf? asked, (optionValue? options 'c').map countOf? with
    | none, _ => .failing 1 s!"{c.name}: invalid number of lines: \x27{asked}\x27"
    | _, some none =>
      let asked := (optionValue? options 'c').getD ""
      .failing 1 s!"{c.name}: invalid number of bytes: {quotedWord asked}"
    | _, some (some (sign, n)) =>
      let part (bytes : List UInt8) :=
        if sign == '-' then bytes.take (bytes.length - n) else bytes.take n
      { titled c options operands part with
        reads := if Call.appetite operands == .none then .none else .some n }
    | some (sign, n), none =>
      let part (bytes : List UInt8) :=
        let lines := fullLines bytes
        (if sign == '-' then lines.take (lines.length - n) else lines.take n).flatten
      { titled c options operands part with
        reads := if Call.appetite operands == .none then .none
          else if c.canRewind then .some (part c.input).length
          else if sign == '-' then .all
          else .some (max 1024 (part c.input).length) }

/-- The last lines or bytes, or all from one on. -/
def tail (c : Call) : Effect :=
  let c := { c with arguments := withCounts c.arguments }
  match c.options "qvfF" "nc" with
  | .error e => e
  | .ok (options, operands) =>
    let asked := (optionValue? options 'n').getD "10"
    match countOf? asked, (optionValue? options 'c').map countOf? with
    | none, _ => .failing 1 s!"{c.name}: invalid number of lines: \x27{asked}\x27"
    | _, some none =>
      let asked := (optionValue? options 'c').getD ""
      .failing 1 s!"{c.name}: invalid number of bytes: {quotedWord asked}"
    | _, some (some (sign, n)) =>
      { titled c options operands fun bytes =>
          if sign == '+' then bytes.drop (n - 1) else bytes.drop (bytes.length - n) with
        reads := Call.appetite operands }
    | some (sign, n), none =>
      { titled c options operands fun bytes =>
          let lines := fullLines bytes
          (if sign == '+' then lines.drop (n - 1) else lines.drop (lines.length - n)).flatten with
        reads := Call.appetite operands }

/-- Whether a byte separates words. -/
def isSpaceByte (b : UInt8) : Bool :=
  b == 32 || (9 ≤ b && b ≤ 13)

/-- How many runs of bytes other than white space there are. -/
def wordCount (bytes : List UInt8) : Nat :=
  (bytes.foldl (fun (n, inside) b =>
    if isSpaceByte b then (n, false) else (if inside then n else n + 1, true)) (0, false)).1

/-- Counts of lines, words and bytes. -/
def wc (c : Call) : Effect :=
  match c.options "lwcmL" "" with
  | .error e => e
  | .ok (options, operands) =>
    let asked (letter : Char) := options.isEmpty && letter != 'L' || hasOption options letter
    let counts (bytes : List UInt8) : List Nat :=
      (if asked 'l' then [bytes.count 10] else []) ++
      (if asked 'w' then [wordCount bytes] else []) ++
      (if asked 'c' || asked 'm' then [bytes.length] else []) ++
      (if hasOption options 'L' then [((plainLines bytes).map (·.length)).foldl max 0] else [])
    let contents := c.contents operands
    let found := contents.map fun (_, content) => content.toOption.getD []
    let total := found.foldl (fun all bytes => all ++ bytes) []
    let readsPipe := Call.appetite operands == .all && !c.canRewind
    let width :=
      if contents.length ≤ 1 && (counts []).length == 1 then 1
      else max (Text.digits total.length).length (if readsPipe then 7 else 1)
    let row (ns : List Nat) (name : String) : List UInt8 :=
      [32].intercalate (ns.map (padded width)) ++
        (if name.isEmpty then [10] else 32 :: Effect.line name)
    let e := contents.foldl (fun e (name, content) =>
      match content with
      | .ok bytes => e.print (row (counts bytes) (if operands.isEmpty then "" else name))
      | .error message => e.complain 1 message) ({ reads := Call.appetite operands } : Effect)
    if contents.length ≤ 1 then e
    else
      let sums := found.foldl (fun sums bytes => (sums.zip (counts bytes)).map fun (a, b) => a + b)
        (counts [])
      e.print (row sums "total")

/-- The bytes of a class of characters. -/
def classBytes (name : String) : List UInt8 :=
  let all := (List.range 128).map Char.ofNat
  let found := match name with
    | "upper" => all.filter Char.isUpper
    | "lower" => all.filter Char.isLower
    | "alpha" => all.filter Char.isAlpha
    | "digit" => all.filter Char.isDigit
    | "alnum" => all.filter Char.isAlphanum
    | "space" => all.filter fun c => isSpaceByte (UInt8.ofNat c.toNat)
    | "blank" => ['\t', ' ']
    | "punct" => all.filter fun c => 0x20 < c.toNat && c.toNat < 0x7F && !c.isAlphanum
    | "cntrl" => all.filter fun c => c.toNat < 0x20 || c.toNat == 0x7F
    | "print" => all.filter fun c => 0x20 ≤ c.toNat && c.toNat < 0x7F
    | "graph" => all.filter fun c => 0x20 < c.toNat && c.toNat < 0x7F
    | "xdigit" => all.filter fun c => (Text.hexValue? c).isSome
    | _ => []
  Text.Octets.toBytes found

/-- The letter after a backslash in a set as a character, and what follows. -/
def setEscape (cs : List Char) : Char × List Char :=
  match cs with
  | [] => ('\\', [])
  | 'n' :: rest => ('\n', rest)
  | 't' :: rest => ('\t', rest)
  | 'r' :: rest => ('\r', rest)
  | 'a' :: rest => ('\x07', rest)
  | 'b' :: rest => ('\x08', rest)
  | 'f' :: rest => ('\x0c', rest)
  | 'v' :: rest => ('\x0b', rest)
  | c :: rest =>
    match Text.leadingDigits? 8 (cs.take 3) with
    | some (n, left) => (Char.ofNat (n % 256), cs.drop ((cs.take 3).length - left.length))
    | none => (c, rest)

/-- The bytes that a set of characters names, in order. -/
def setBytes : (fuel : Nat) → List Char → List UInt8
  | 0, _ => []
  | _ + 1, [] => []
  | fuel + 1, '[' :: ':' :: rest =>
    let name := rest.takeWhile Char.isAlpha
    match rest.drop name.length with
    | ':' :: ']' :: after => classBytes (String.ofList name) ++ setBytes fuel after
    | _ => 91 :: setBytes fuel (':' :: rest)
  | fuel + 1, c :: rest =>
    let (c, rest) := if c == '\\' then setEscape rest else (c, rest)
    match rest with
    | '-' :: d :: after =>
      let (d, after) := if d == '\\' then setEscape after else (d, after)
      (List.range (d.toNat + 1 - c.toNat)).map (fun i => UInt8.ofNat (c.toNat + i)) ++
        setBytes fuel after
    | rest => UInt8.ofNat c.toNat :: setBytes fuel rest

/-- The bytes with runs of one of these squeezed to one. -/
def squeezed (set : List UInt8) : List UInt8 → List UInt8
  | a :: b :: rest =>
    if a = b && set.contains a then squeezed set (b :: rest) else a :: squeezed set (b :: rest)
  | bytes => bytes

/-- Replaces, deletes or squeezes bytes. -/
def tr (c : Call) : Effect :=
  match c.options "dscCt" "" with
  | .error e => e
  | .ok (options, operands) =>
    let sets := operands.map fun s => setBytes (s.length + 1) s.toList
    let complement := hasOption options 'c' || hasOption options 'C'
    let whole := (List.range 256).map UInt8.ofNat
    match sets with
    | [] => c.misused 1 "missing operand"
    | first :: others =>
      let first := if complement then whole.filter (!first.contains ·) else first
      let deletes := hasOption options 'd'
      let squeezes := hasOption options 's'
      match others with
      | [] =>
        if !deletes && !squeezes then
          (Effect.failing 1 (s!"{c.name}: missing operand after " ++ quotedWord (operands.headD ""))
            |>.complain 1 "Two strings must be given when translating."
            |>.complain 1 s!"Try \x27{c.name} --help\x27 for more information.")
        else
          let kept := if deletes then c.input.filter (!first.contains ·) else c.input
          .printing (if squeezes && !deletes then squeezed first kept else kept) .all
      | second :: _ =>
        if deletes then
          .printing (squeezed second (c.input.filter (!first.contains ·))) .all
        else
          let last := second.getLastD 0
          let pairs := first.zip (second ++ List.replicate (first.length - second.length) last)
          let image (b : UInt8) : UInt8 :=
            ((pairs.filter (·.1 == b)).getLast?.map (·.2)).getD b
          let changed := c.input.map image
          .printing (if squeezes then squeezed second changed else changed) .all

/-- The ranges of a list such as `1,3-5,7-`. -/
def rangesOf (s : String) : List (Nat × Option Nat) :=
  (s.splitOn ",").filterMap fun part =>
    match part.splitOn "-" with
    | [n] => n.toNat?.map fun n => (n, some n)
    | [low, high] =>
      let low := if low.isEmpty then some 1 else low.toNat?
      let high := if high.isEmpty then some none else high.toNat?.map some
      low.bind fun low => high.map fun high => (low, high)
    | _ => none

/-- Whether a position is in one of the ranges. -/
def inRanges (ranges : List (Nat × Option Nat)) (n : Nat) : Bool :=
  ranges.any fun r => r.1 ≤ n && r.2.all (n ≤ ·)

/-- The items at the positions in the ranges. -/
def itemsAt (ranges : List (Nat × Option Nat)) (items : List α) : List α :=
  (items.zipIdx.filter fun (_, i) => inRanges ranges (i + 1)).map (·.1)

/-- Selected bytes or fields of every line. -/
def cut (c : Call) : Effect :=
  match c.options "sn" "dfcb" with
  | .error e => e
  | .ok (options, operands) =>
    let delimiter := ((optionValue? options 'd').bind fun s => s.toList.head?).getD '\t'
    let delimiter := UInt8.ofNat delimiter.toNat
    let (all, e) := allContent c operands
    match optionValue? options 'f', optionValue? options 'c' <|> optionValue? options 'b' with
    | some list, _ =>
      let ranges := rangesOf list
      let lines := (plainLines all).filterMap fun line =>
        if line.contains delimiter then
          some ([delimiter].intercalate (itemsAt ranges (line.splitOn delimiter)))
        else if hasOption options 's' then none
        else some line
      e.print (ended lines)
    | none, some list =>
      let ranges := rangesOf list
      e.print (ended ((plainLines all).map (itemsAt ranges)))
    | none, none => c.misused 1 "you must specify a list of bytes, characters, or fields"

/-- The number with which a line starts. -/
def leadingNumber (line : List UInt8) : Int :=
  let cs := (Text.Octets.ofBytes line).dropWhile fun c => c == ' ' || c == '\t'
  if cs.head? == some '+' then 0 else ((Text.leadingInteger? false cs).map (·.1)).getD 0

/-- The part of a line that is compared, from a field on and up to one. -/
def keyOf (separator : Option UInt8) (key : Option String) (line : List UInt8) : List UInt8 :=
  match key with
  | none => line
  | some key =>
    let bounds := (key.splitOn ",").map fun s => Text.ofDigits (s.toList.takeWhile Char.isDigit)
    let first := bounds.headD 1
    match separator with
    | some b =>
      let fields := line.splitOn b
      let kept := (fields.drop (first - 1)).take (match bounds with
        | [_, last] => last + 1 - first
        | _ => fields.length)
      [b].intercalate kept
    | none =>
      let rec fieldsFrom : (fuel : Nat) → List UInt8 → List (List UInt8)
        | 0, _ => []
        | _ + 1, [] => []
        | fuel + 1, rest =>
          let blanks := rest.takeWhile isSpaceByte
          let word := (rest.drop blanks.length).takeWhile fun b => !isSpaceByte b
          (blanks ++ word) :: fieldsFrom fuel (rest.drop (blanks.length + word.length))
      let fields := fieldsFrom (line.length + 1) line
      ((fields.drop (first - 1)).take (match bounds with
        | [_, last] => last + 1 - first
        | _ => fields.length)).flatten

/-- The lines in order. -/
def sort (c : Call) : Effect :=
  match c.options "nrufbsdig" "tko" 2 with
  | .error e => e
  | .ok (options, operands) =>
    let (all, e) := allContent c operands
    let key := optionValue? options 'k'
    let letters := (key.map fun k => k.toList.filter Char.isAlpha).getD [] ++ options.map (·.1)
    let separator := ((optionValue? options 't').bind fun s => s.toList.head?).map fun d =>
      UInt8.ofNat d.toNat
    let order (a b : List UInt8) : Ordering :=
      let a := keyOf separator key a
      let b := keyOf separator key b
      let found :=
        if letters.contains 'n' || letters.contains 'g' then
          compare (leadingNumber a) (leadingNumber b)
        else
          let shape (line : List UInt8) : List UInt8 :=
            let line := if letters.contains 'b' then line.dropWhile isSpaceByte else line
            if letters.contains 'f' then
              line.map fun b => if 97 ≤ b && b ≤ 122 then b - 32 else b
            else line
          compare (shape a) (shape b)
      if letters.contains 'r' then found.swap else found
    let whole (a b : List UInt8) : Ordering :=
      let last := compare a b
      let last := if hasOption options 'r' then last.swap else last
      if hasOption options 'u' || hasOption options 's' then order a b
      else (order a b).then last
    let sorted := (plainLines all).mergeSort fun a b => (whole a b).isLE
    let kept := if hasOption options 'u' then sorted.eraseRepsBy fun a b => order a b == .eq
      else sorted
    match optionValue? options 'o' with
    | some file =>
      match FileTree.entryPlace c.files c.directory (Call.path file) with
      | .ok (dir, name) => e.change (.put (dir.names ++ [name]) (.file (ended kept) false))
      | .error fault => e.complain 2 s!"{c.name}: open failed: {file}: {fault.reason}"
    | none => e.print (ended kept)

/-- One of each run of equal lines. -/
def uniq (c : Call) : Effect :=
  match c.options "cdui" "" with
  | .error e => e
  | .ok (options, operands) =>
    let (all, e) := allContent c (operands.take 1)
    let shape (line : List UInt8) : List UInt8 :=
      if hasOption options 'i' then line.map fun b => if 65 ≤ b && b ≤ 90 then b + 32 else b
      else line
    let runs := (plainLines all).splitBy fun a b => shape a == shape b
    let runs := runs.filter fun run =>
      (!hasOption options 'd' || 1 < run.length) && (!hasOption options 'u' || run.length == 1)
    e.print (ended (runs.map fun run =>
      (if hasOption options 'c' then padded 7 run.length ++ [32] else []) ++ run.headD []))

/-- Writes its input to files as well. -/
def tee (c : Call) : Effect :=
  match c.options "ai" "" with
  | .error e => e
  | .ok (options, operands) =>
    operands.foldl (fun e name =>
      if (Device.ofName? name).isSome then e
      else
        let c := c.after e
        match c.find name with
        | .ok (.directory _) => e.complain 1 s!"{c.name}: {name}: Is a directory"
        | found =>
          match FileTree.entryPlace c.files c.directory (Call.path name) with
          | .error fault => e.complain 1 s!"{c.name}: {name}: {fault.reason}"
          | .ok (dir, entry) =>
            let (before, executable) := match found with
              | .ok (.file content executable) => (content, executable)
              | _ => ([], false)
            let content := if hasOption options 'a' then before ++ c.input else c.input
            e.change (.put (dir.names ++ [entry]) (.file content executable)))
      (Effect.printing c.input .all)

/-- The value of an operand of the form `name=value`, the last one if there are several. -/
def setting? (operands : List String) (name : String) : Option String :=
  (operands.reverse.find? (·.startsWith s!"{name}=")).map fun o =>
    String.ofList (o.toList.drop (name.length + 1))

/-- Copies blocks of bytes, and says how many. -/
def dd (c : Call) : Effect :=
  let number? (name : String) := (setting? c.arguments name).bind fun s => multiple? s.toList
  let size := (number? "bs").getD 512
  let source : Except String (List UInt8) :=
    match setting? c.arguments "if" with
    | none => .ok c.input
    | some file => (c.read file).mapError fun fault =>
        s!"{c.name}: failed to open {quotedWord file}: {fault.reason}"
  match source with
  | .error message => .failing 1 message
  | .ok bytes =>
    let bytes := bytes.drop ((number? "skip").getD 0 * size)
    let bytes := match number? "count" with
      | some count => bytes.take (count * size)
      | none => bytes
    let full := bytes.length / size
    let part := if bytes.length % size = 0 then 0 else 1
    let reads := if (setting? c.arguments "if").isSome then Appetite.none
      else if (number? "count").isSome then .some bytes.length else .all
    let e : Effect := match setting? c.arguments "of" with
      | none => .printing bytes reads
      | some file =>
        if (Device.ofName? file).isSome then { reads := reads }
        else
          match FileTree.entryPlace c.files c.directory (Call.path file) with
          | .error fault =>
            .failing 1 s!"{c.name}: failed to open {quotedWord file}: {fault.reason}"
          | .ok (dir, entry) =>
            { changes := [.put (dir.names ++ [entry]) (.file bytes false)], reads := reads }
    if setting? c.arguments "status" == some "none" then e
    else
      let lines := [s!"{full}+{part} records in", s!"{full}+{part} records out"]
      { e with writes := e.writes ++ [(.stderr, lines.flatMap Effect.line)] }

/-- Every line backwards. -/
def rev (c : Call) : Effect :=
  eachContent c c.arguments fun bytes => (fullLines bytes).flatMap fun line =>
    if line.getLast? = some 10 then line.dropLast.reverse ++ [10] else line.reverse

/-- The lines from the last to the first. -/
def tac (c : Call) : Effect :=
  eachContent c c.arguments fun bytes => (fullLines bytes).reverse.flatten

/-- The numbers from the first to the last. -/
def seq (c : Call) : Effect :=
  let width := c.arguments.contains "-w"
  let (separator, operands) := match c.arguments.filter (· != "-w") with
    | "-s" :: s :: rest => (s, rest)
    | rest => ("\n", rest)
  let integers := operands.map fun s =>
    match Text.leadingInteger? false s.toList with
    | some (n, []) => some n
    | _ => none
  match (operands.zip integers).find? (·.2.isNone) with
  | some (s, _) => c.misused 1 s!"invalid floating point argument: \x27{s}\x27"
  | none =>
    let bounds : Option (Int × Int × Int) := match integers.filterMap id with
      | [last] => some (1, 1, last)
      | [first, last] => some (first, 1, last)
      | [first, step, last] => some (first, step, last)
      | _ => none
    match bounds with
    | none =>
      if operands.isEmpty then c.misused 1 "missing operand"
      else c.misused 1 ("extra operand " ++ quotedWord (operands.getD 3 ""))
    | some (first, step, last) =>
      if step = 0 then
        c.misused 1 ("invalid Zero increment value: " ++ quotedWord (operands.getD 1 ""))
      else
        let count := if 0 < step then (last - first) / step + 1 else (first - last) / (-step) + 1
        let numbers := (List.range count.toNat).map fun i => first + step * Int.ofNat i
        let texts := numbers.map fun n => (toString n).toList
        let longest := (texts.map (·.length)).foldl max 0
        let texts := if width then texts.map fun t => List.replicate (longest - t.length) '0' ++ t
          else texts
        if texts.isEmpty then {}
        else .printing (Text.Octets.toBytes (separator.toList.intercalate texts ++ ['\n']))

/-- A line again and again; it ends when nobody reads it any more. -/
def yes (c : Call) (isRead : Bool) : Effect :=
  let line := Effect.line (if c.arguments.isEmpty then "y" else " ".intercalate c.arguments)
  { writes := [(.stdout, (List.replicate 8192 line).flatten)]
    ending := if isRead then .killed 13 else .never }

/-- Numbers the lines that are not empty. -/
def nl (c : Call) : Effect :=
  match c.options "" "bwsn" with
  | .error e => e
  | .ok (options, operands) =>
    let (all, e) := allContent c operands
    let everything := optionValue? options 'b' == some "a"
    let (found, _) := (plainLines all).foldl (fun (found, n) line =>
      if line.isEmpty && !everything then (found ++ List.replicate 7 32 ++ [10], n)
      else (found ++ padded 6 n ++ [9] ++ line ++ [10], n + 1)) (([] : List UInt8), 1)
    e.print found

/-- The lines of the files side by side, or all lines of each on one line. -/
def paste (c : Call) : Effect :=
  match c.options "s" "d" with
  | .error e => e
  | .ok (options, operands) =>
    let delimiters := match optionValue? options 'd' with
      | some s => setBytes (s.length + 1) s.toList
      | none => [9]
    let rec glue (n : Nat) : List (List UInt8) → List UInt8
      | [] => []
      | [last] => last
      | item :: rest =>
        item ++ (delimiters[n % max 1 delimiters.length]?).toList ++ glue (n + 1) rest
    let contents := (c.contents operands).map fun (_, content) =>
      plainLines (content.toOption.getD [])
    let rows :=
      if hasOption options 's' then contents
      else
        let height := (contents.map (·.length)).foldl max 0
        (List.range height).map fun i => contents.map fun lines => lines.getD i []
    .printing (ended (rows.map (glue 0))) (Call.appetite operands)

end LintGate.Utility
