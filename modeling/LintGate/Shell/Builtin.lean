import LintGate.Path.Absolute
import LintGate.Process.Program
import LintGate.Shell.Fields
import LintGate.Shell.Session
import LintGate.Shell.Source
import LintGate.Utility.Condition
import LintGate.Utility.Printf

/-!
The commands that a shell carries out itself, as far as they run no other commands.
-/

namespace LintGate.Shell.Builtin

/-- The other commands that the shell carries out itself. -/
def regularCommands : List String :=
  ["[", "alias", "bg", "cd", "chdir", "command", "echo", "false", "fg", "getopts", "hash", "jobs",
    "kill", "printf", "pwd", "read", "test", "true", "type", "ulimit", "umask", "unalias", "wait"]

/-- Whether the shell carries out a command itself. -/
def isBuiltin (name : String) : Bool :=
  specialCommands.contains name || regularCommands.contains name

/-- Commands whose arguments can be assignments. -/
def assigns (name : String) : Bool :=
  name == "export" || name == "readonly" || name == "local"

/-- Writes octets to the output. -/
def print (text : String) : Script Nat := do
  let s ← get
  match s.machine.write s.process 1 (Text.Octets.bytes text) with
  | .ok m =>
    set { s with machine := m }
    return 0
  | .error _ =>
    Script.warn (s.builtin.getD "" ++ ": I/O error")
    return 1

/-- Lines of output. -/
def printLines (lines : List String) : Script Nat :=
  print (String.join (lines.map (· ++ "\n")))

/-- A number of an argument. -/
def number (argument : String) : Script Nat := do
  let cs := argument.toList
  let found := do
    let (n, rest) ← Text.leadingInteger? false cs
    if rest.all Text.isNumberSpace && 0 ≤ n && n ≤ Int32.maxValue.toInt then some n.toNat else none
  match found with
  | some n => return n
  | none => Script.fault s!"Illegal number: {argument}"

/-- The options among arguments, with their values, and the other arguments. -/
def options (plain valued : String) : List String → Script (List CallOption × List String)
  | [] => return ([], [])
  | argument :: rest =>
    match argument.toList with
    | ['-', '-'] => return ([], rest)
    | '-' :: c :: cs => letters (c :: cs) rest
    | _ => return ([], argument :: rest)
where
  /-- The options of one argument, and those after it. -/
  letters : List Char → List String → Script (List CallOption × List String)
    | [], rest => options plain valued rest
    | c :: cs, rest => do
      if plain.contains c then
        let (found, others) ← letters cs rest
        return ((c, none) :: found, others)
      else if !valued.contains c then Script.fault s!"Illegal option -{c}"
      else
        match cs, rest with
        | [], [] => Script.fault s!"No arg for -{c} option"
        | [], value :: rest =>
          let (found, others) ← options plain valued rest
          return ((c, some value) :: found, others)
        | cs, rest =>
          let (found, others) ← options plain valued rest
          return ((c, some (String.ofList cs)) :: found, others)

/-- A text in quotes that the shell reads as this text. -/
def quoted (s : String) : String :=
  let rec go : (fuel : Nat) → List Char → List Char
    | 0, _ => []
    | fuel + 1, cs =>
      let plain := cs.takeWhile (· != '\'')
      let quotes := (cs.drop plain.length).takeWhile (· == '\'')
      let rest := cs.drop (plain.length + quotes.length)
      let shown := '\'' :: plain ++ ['\'']
      if quotes.isEmpty then shown
      else shown ++ '"' :: quotes ++ '"' :: (if rest.isEmpty then [] else go fuel rest)
  String.ofList (go (s.length + 1) s.toList)

/-- A call of a utility that the shell carries out itself. -/
def callOf (s : Session) (name : String) (arguments : List String) : Call where
  name := name
  arguments := arguments
  files := s.machine.files
  directory := s.process.directory
  environment := s.environment
  input := []

/-- Writes what an effect writes. -/
def carryOut (e : Effect) : Script Nat := do
  let mut failed := 0
  for (target, bytes) in e.writes do
    match target with
    | .stderr => Script.write 2 bytes
    | .stdout => failed := failed ||| (← print (String.ofList (Text.Octets.ofBytes bytes)))
  return failed ||| Script.statusOf e.ending

/-- The place with which messages of a builtin command begin. -/
def place (name : String) : Script String := do
  let s ← get
  return s!"{s.name}: {s.line}: {name}"

/-- A formatted output. -/
def printf (arguments : List String) : Script Nat := do
  match (← options "" "" arguments).2 with
  | [] => Script.fault "usage: printf format [arg ...]"
  | format :: arguments =>
    carryOut (Printf.effect .shell (← place "printf") format arguments 2)

/-- A condition. -/
def test (name : String) (arguments : List String) : Script Nat := do
  let place ← place name
  carryOut (Condition.effect (callOf (← get) name arguments) fun m => s!"{place}: {m}")

/-- Changes the current directory. -/
def cd (arguments : List String) : Script Nat := do
  let (_, operands) ← options "LP" "" arguments
  let s ← get
  let (target, shows) := match operands.head? with
    | none => ((s.lookup? "HOME").getD "", false)
    | some "-" => ((s.lookup? "OLDPWD").getD "", true)
    | some dir => (dir, false)
  let path := Path.normalize s.process.directory
    (Path.ofOctets (if target.isEmpty then "." else target))
  match FileTree.find s.machine.files s.process.directory path with
  | .ok (.directory _) =>
    let old := s.lookup? "PWD"
    modify fun s =>
      let exported (name value : String) (s : Session) : Session :=
        { s with parameters := Dictionary.insert name ⟨some value, true, false⟩ s.parameters }
      let s := match old with
        | some old => exported "OLDPWD" old s
        | none => s
      let s := exported "PWD" path.octets s
      { s with process := { s.process with directory := path } }
    if shows then printLines [path.octets] else return 0
  | _ => Script.fault s!"can't cd to {target}"

/-- The glyphs of a line that was read; a backslash takes the meaning of what follows it. -/
def lineGlyphs (raw : Bool) : List Char → List Glyph
  | [] => []
  | '\\' :: c :: rest =>
    if raw then .loose '\\' :: lineGlyphs raw (c :: rest)
    else .solid c true :: .edge false :: lineGlyphs raw rest
  | '\\' :: [] => if raw then [.loose '\\'] else []
  | c :: rest => .loose c :: lineGlyphs raw rest

/-- Whether the last backslash of a line takes the meaning of what follows it. -/
def goesOn (line : List Char) : Bool :=
  (line.reverse.takeWhile (· == '\\')).length % 2 == 1

/-- The next line of the input, with those that go on from it, and whether it has an end. -/
def inputLine (raw : Bool) : (fuel : Nat) → Script (List Char × Bool)
  | 0 => return ([], false)
  | fuel + 1 => do
    let s ← get
    match s.process.handle? 0 with
    | none => return ([], false)
    | some handle =>
      let (parcels, closedAt) := s.machine.pending handle
      let (bytes, time, ends) := Machine.lineOf closedAt parcels
      let count := bytes.length + if ends then 1 else 0
      modify fun s => { s with machine := s.machine.consume handle count }
      Script.waitUntil time
      let line := (Text.Octets.ofBytes bytes).filter (· != '\x00')
      if !raw && ends && goesOn line then
        let (rest, ends) ← inputLine raw fuel
        return (line.dropLast ++ rest, ends)
      else return (line, ends)

/-- Reads a line into variables. -/
def read (arguments : List String) : Script Nat := do
  let (found, names) ← options "r" "p" arguments
  if names.isEmpty then Script.fault "arg count"
  let raw := hasOption found 'r'
  let (line, ends) ← inputLine raw 10000
  let s ← get
  let separators := ((s.lookup? "IFS").getD " \t\n").toList
  let cutter := (Glyph.edge false :: lineGlyphs raw line).foldl Cutter.step
    { separators := separators, room := some names.length }
  let fields := cutter.fields.map fun f => String.ofList ((Glyph.marked f).map (·.1))
  for (name, i) in names.zipIdx do
    Script.assign name (fields.getD i "")
  return if ends then 0 else 1

/-- Variables as assignments, those that fulfil a condition. -/
def showVariables (before : String) (p : Variable → Bool) : Script Nat := do
  let s ← get
  printLines <| (s.parameters.filter fun e => p e.2).map fun (name, v) =>
    match v.value with
    | some value => s!"{before}{name}={quoted value}"
    | none => s!"{before}{name}"

/-- The name in an assignment, and the value if there is one. -/
def nameAndValue (argument : String) : String × Option String :=
  match Text.cut '=' argument.toList with
  | some (name, value) => (String.ofList name, some (String.ofList value))
  | none => (argument, none)

/-- Marks variables. -/
def markVariables (name : String) (marks : Variable → Bool) (mark : Variable → Variable)
    (arguments : List String) : Script Nat := do
  let (found, operands) ← options "p" "" arguments
  if operands.isEmpty || hasOption found 'p' then showVariables s!"{name} " marks
  else
    for argument in operands do
      match nameAndValue argument with
      | (name, some value) => Script.assign name value
      | (name, none) => if !isName name.toList then Script.fault s!"{name}: bad variable name"
      modify fun s =>
        let name := (nameAndValue argument).1
        let old := (Dictionary.get? name s.parameters).getD ⟨none, false, false⟩
        { s with parameters := Dictionary.insert name (mark old) s.parameters }
    return 0

/-- Makes variables local to a function. -/
def makeLocal (arguments : List String) : Script Nat := do
  if (← get).locals.isEmpty then Script.fault "not in a function"
  for argument in (← options "" "" arguments).2 do
    let (name, value) := nameAndValue argument
    if !isName name.toList then Script.fault s!"{name}: bad variable name"
    modify fun s =>
      match s.locals with
      | frame :: frames =>
        let old := Dictionary.get? name s.parameters
        { s with locals := ((name, old) :: frame) :: frames }
      | [] => s
    match value with
    | some value => Script.assign name value
    | none => pure ()
  return 0

/-- Takes variables and functions away. -/
def unset (arguments : List String) : Script Nat := do
  let (found, operands) ← options "vf" "" arguments
  for name in operands do
    if hasOption found 'f' then
      modify fun s => { s with functions := s.functions.filter (·.1 != name) }
    else
      if !isName name.toList then Script.fault s!"{name}: bad variable name"
      if (Dictionary.get? name (← get).parameters).any (·.readOnly) then
        Script.fault s!"{name}: is read only"
      modify fun s => s.erase name
  return 0

/-- The options of the shell: names, and letters if they have one. -/
def shellOptions : List (String × Option Char) :=
  [("errexit", some 'e'), ("noglob", some 'f'), ("ignoreeof", some 'I'), ("interactive", some 'i'),
    ("monitor", some 'm'), ("noexec", some 'n'), ("stdin", some 's'), ("xtrace", some 'x'),
    ("verbose", some 'v'), ("vi", some 'V'), ("emacs", some 'E'), ("noclobber", some 'C'),
    ("allexport", some 'a'), ("notify", some 'b'), ("nounset", some 'u'), ("privileged", some 'p'),
    ("nolog", none), ("debug", none)]

/-- The letters in the order in which the shell shows them. -/
def optionOrder : List Char :=
  (shellOptions.filterMap (·.2)).reverse

/-- The session in which an option is set or not. -/
def withOption (s : Session) (letter : Char) (on : Bool) : Session :=
  { s with options := optionOrder.filter fun c =>
      if c == letter then on else s.options.contains c }

/-- Sets or clears the option that is called so. -/
def setNamedOption (name : String) (on : Bool) : Script Unit := do
  match shellOptions.find? (·.1 == name) with
  | some (_, some letter) => modify fun s => withOption s letter on
  | some (_, none) => return
  | none => Script.fault s!"Illegal option -o {name}"

/-- The options of the shell as they are. -/
def showOptions (on : Bool) : Script Unit := do
  let s ← get
  let isOn (letter : Option Char) : Bool := letter.any s.options.contains
  let padded (name : String) : String :=
    name ++ String.ofList (List.replicate (16 - name.length) ' ')
  let _ ← printLines <|
    if on then
      "Current option settings" :: shellOptions.map fun (name, letter) =>
        padded name ++ if isOn letter then "on" else "off"
    else shellOptions.map fun (name, letter) =>
      "set " ++ (if isOn letter then "-" else "+") ++ "o " ++ name

/-- Sets the options that stand before the other arguments; those follow, and whether any are
given. `command` is a letter that is understood besides. -/
def shellArguments (command : Option Char) : (fuel : Nat) → List String →
    Script (List String × Bool × Bool)
  | 0, rest => return (rest, false, false)
  | _ + 1, [] => return ([], false, false)
  | fuel + 1, argument :: rest => do
    match argument.toList with
    | ['-'] =>
      if command.isNone then modify fun s => withOption (withOption s 'x' false) 'v' false
      return (rest, !rest.isEmpty, false)
    | ['-', '-'] => return (rest, true, false)
    | c :: letters =>
      if c != '-' && c != '+' then return (argument :: rest, true, false)
      let on := c == '-'
      let mut rest := rest
      let mut isCommand := false
      for letter in letters do
        if some letter == command then isCommand := true
        else if letter == 'l' && command.isSome then continue
        else if letter == 'o' then
          match rest with
          | name :: others =>
            setNamedOption name on
            rest := others
          | [] => showOptions on
        else if optionOrder.contains letter then modify fun s => withOption s letter on
        else Script.fault s!"Illegal option -{letter}"
      let (others, given, also) ← shellArguments command fuel rest
      return (others, given, isCommand || also)
    | [] => return (argument :: rest, true, false)

/-- Sets options and arguments, or shows variables. -/
def setOptions (arguments : List String) : Script Nat := do
  if arguments.isEmpty then showVariables "" (·.value.isSome)
  else
    let (rest, given, _) ← shellArguments none (arguments.length + 1) arguments
    if given then modify fun s => { s with arguments := rest, optionOffset := 0 }
    return 0

/-- Takes the first arguments away. -/
def shift (arguments : List String) : Script Nat := do
  let count ← match arguments.head? with
    | some n => number n
    | none => pure 1
  if (← get).arguments.length < count then Script.fault "can't shift that many"
  modify fun s => { s with arguments := s.arguments.drop count, optionOffset := 0 }
  return 0

/-- Ends the shell. -/
def exit (arguments : List String) : Script Nat := do
  match arguments.head? with
  | some n => Script.exit (← number n)
  | none => Script.halt .exit

/-- Ends a function or a script. -/
def leave (arguments : List String) : Script Nat := do
  match arguments.head? with
  | some n =>
    let status ← number n
    modify fun s => { s with status := status }
  | none => pure ()
  Script.halt .leave

/-- Ends loops, or one round of them. -/
def leaveLoops (stop : Nat → Halt) (arguments : List String) : Script Nat := do
  let count ← match arguments.head? with
    | some n => do
      let count ← number n
      if count = 0 then Script.fault s!"Illegal number: {n}"
      pure count
    | none => pure 1
  let count := min count (← get).loops
  if count = 0 then return 0
  modify fun s => { s with status := 0 }
  Script.halt (stop count)

/-- What is made of the next option for `getopts`: the letter, its value, the arguments passed and
how far the current one has been looked at. -/
def nextOption (letters : List Char) (given : List String) (index offset : Nat) :
    Option (Char × Option String × Nat × Nat) :=
  match given[index - 1]? with
  | none => none
  | some argument =>
    let cs := argument.toList
    if offset = 0 && (cs.length < 2 || cs.head? != some '-' || argument == "--") then none
    else
      let offset := max 1 offset
      match cs[offset]? with
      | none => none
      | some letter =>
        let takesValue := (letters.dropWhile (· != letter)).drop 1 |>.head? |>.any (· == ':')
        let isLast := offset + 1 = cs.length
        if takesValue && letter != ':' then
          if !isLast then some (letter, some (String.ofList (cs.drop (offset + 1))), index + 1, 0)
          else
            match given[index]? with
            | some value => some (letter, some value, index + 2, 0)
            | none => some (letter, none, index + 1, 0)
        else if isLast then some (letter, none, index + 1, 0)
        else some (letter, none, index, offset + 1)

/-- Looks for the next option among arguments. -/
def getopts (arguments : List String) : Script Nat := do
  match arguments with
  | letters :: name :: given =>
    let s ← get
    let given := if given.isEmpty then s.arguments else given
    let index := (Text.natural? ((s.lookup? "OPTIND").getD "1").toList).getD 1
    let silent := letters.startsWith ":"
    let known := if silent then letters.toList.drop 1 else letters.toList
    match nextOption known given (max 1 index) s.optionOffset with
    | none =>
      let ends := given[index - 1]? == some "--"
      Script.assign name "?"
      modify fun s => s.assign "OPTIND" (toString (if ends then index + 1 else index))
      return 1
    | some (letter, value, index, offset) =>
      let isKnown := letter != ':' && known.contains letter
      let takesValue := (known.dropWhile (· != letter)).drop 1 |>.head? |>.any (· == ':')
      let lacksValue := isKnown && takesValue && value.isNone
      let shown ←
        if !isKnown || lacksValue then
          if silent then
            Script.assign "OPTARG" (String.singleton letter)
            pure (if isKnown then ":" else "?")
          else
            Script.write 2 <| Effect.line <|
              if isKnown then s!"No arg for -{letter} option" else s!"Illegal option -{letter}"
            modify fun s => s.erase "OPTARG"
            pure "?"
        else
          match value with
          | some value => Script.assign "OPTARG" value
          | none => Script.assign "OPTARG" ""
          pure (String.singleton letter)
      modify fun s => s.assign "OPTIND" (toString index)
      modify fun s => { s with optionOffset := offset }
      Script.assign name shown
      return 0
  | _ => Script.fault "Usage: getopts optstring var [arg...]"

/-- The job that an argument names. -/
def job? (s : Session) (argument : String) : Script (Option Job) := do
  match argument.toList with
  | '%' :: digits =>
    let found := (Text.natural? digits).bind fun n =>
      if n = 0 then none else s.jobs.reverse[n - 1]?
    match found with
    | some job => return some job
    | none => Script.fault s!"No such job: {argument}"
  | _ =>
    let id ← number argument
    return s.jobs.find? (·.id == id)

/-- Says how a program ended that a signal has ended, unless that is nothing special. -/
def describe (ending : Ending) : Script Unit := do
  match ending with
  | .killed signal =>
    if signal != 2 && signal != 13 then
      Script.write 2 (Effect.line (((Signal.ofNumber? signal).map (·.description)).getD ""))
  | _ => return

/-- Waits for jobs. -/
def wait (arguments : List String) : Script Nat := do
  let operands := (← options "" "" arguments).2
  if operands.isEmpty then
    for job in (← get).jobs do
      if job.ending == .never then Script.halt .never
      Script.waitUntil job.endsAt
    return 0
  else
    let mut status := 0
    for argument in operands do
      match ← job? (← get) argument with
      | none => status := 127
      | some job =>
        if job.ending == .never then Script.halt .never
        Script.waitUntil job.endsAt
        describe job.ending
        status := Script.statusOf job.ending
    return status

/-- The session in which a job is ended by a signal. -/
def endJob (s : Session) (job : Job) (signal : Nat) : Session :=
  let now := s.process.now
  let m := s.machine
  let isLate (time count : Nat) (range : Nat × Nat) : Bool :=
    now < time && range.1 < count && count ≤ range.2
  let size := m.emissions.length
  let emissions := m.emissions.zipIdx.filter fun (e, i) => !isLate e.time (size - i) job.emissions
  let total := m.changes.length
  let changes := m.changes.zipIdx.filter fun (c, i) => !isLate c.1 (total - i) job.changes
  let upcoming := changes.filter fun (c, _) => now < c.1
  { s with
    machine := { m with
      emissions := emissions.map (·.1)
      changes := changes.map (·.1)
      upcoming := (upcoming.map (·.1)).reverse }
    jobs := s.jobs.map fun j =>
      if j.id == job.id then { j with ending := .killed signal, endsAt := now } else j }

/-- Sends a signal to a process; there may be none. -/
def send (target : Int) (signal : Nat) : Script Bool := do
  let s ← get
  let isRunning := s.machine.running.contains target.toNat
  let post (targets : List Nat) : Session :=
    let posts := targets.map fun t => (⟨t, signal, s.process.now⟩ : Post)
    { s with machine := { s.machine with posted := s.machine.posted ++ posts } }
  if target ≤ 0 then
    if signal != 0 then set (post s.machine.running)
    return true
  else if isRunning then
    if signal != 0 then set (post [target.toNat])
    return true
  else
    match s.jobs.find? fun job => (job.id : Int) == target with
    | none => return false
    | some job =>
      let ends := ((Signal.ofNumber? signal).map (·.action)) == some .ends
      if ends && (s.process.now < job.endsAt || job.ending == .never) then
        set (endJob s job signal)
      return true

/-- The signal of a name or number; 0 is none, but a process can be asked for with it. -/
def signalNumber? (text : String) : Option Nat :=
  match Text.natural? text.toList with
  | some 0 => some 0
  | _ => (Signal.ofText? text).map (·.number)

/-- The names of signals, for a list of them. -/
def signalNames : List String :=
  let named := (List.range 31).map fun n => ((Signal.ofNumber? (n + 1)).map (·.name)).getD ""
  let up := (List.range 15).map fun n => s!"RTMIN+{n + 1}"
  let down := (List.range 14).reverse.map fun n => s!"RTMAX-{n + 1}"
  "0" :: named ++ ["32", "33", "RTMIN"] ++ up ++ down ++ ["RTMAX"]

/-- Sends signals. -/
def kill (arguments : List String) : Script Nat := do
  let usage : Script Nat := Script.fault
    ("Usage: kill [-s sigspec | -signum | -sigspec] [pid | job]... or\n" ++
      "kill -l [exitstatus]")
  match arguments with
  | [] => usage
  | first :: others =>
    let direct := if first.startsWith "-" then signalNumber? (first.drop 1).toString else none
    let (lists, signal, operands) ←
      match direct with
      | some signal => pure (false, some signal, others)
      | none =>
        let (found, operands) ← options "l" "s" arguments
        let signal ← match optionValue? found 's' with
          | none => pure none
          | some text =>
            match signalNumber? text with
            | some n => pure (some n)
            | none => Script.fault s!"invalid signal number or name: {text}"
        pure (hasOption found 'l', signal, operands)
    if lists then
      if signal.isSome then usage
      else
        match operands with
        | [] => printLines signalNames
        | argument :: _ =>
          let n ← number argument
          let n := if 128 < n then n - 128 else n
          match n, signalNames[n]? with
          | 0, _ => Script.fault s!"invalid signal number or exit status: {argument}"
          | _, some name => printLines [name]
          | _, none => Script.fault s!"invalid signal number or exit status: {argument}"
    else if operands.isEmpty then usage
    else
      let mut status := 0
      for argument in operands do
        let target ← match argument.toList with
          | '-' :: rest => do pure (-((← number (String.ofList rest)) : Int))
          | '%' :: _ => do pure (((← job? (← get) argument).map fun job => (job.id : Int)).getD 0)
          | _ => do pure ((← number argument) : Int)
        if !(← send target (signal.getD 15)) then
          Script.warn "No such process\n"
          status := 1
      return status

/-- What is run for signals and at the end. -/
def trap (arguments : List String) : Script Nat := do
  let operands := (← options "" "" arguments).2
  let signalOf? (text : String) : Option Nat :=
    if Text.upper text == "EXIT" then some 0 else signalNumber? text
  let titleOf (n : Nat) : String := if n = 0 then "EXIT" else signalNames.getD n ""
  let isNumber (text : String) : Bool := (Text.natural? text.toList).any (· ≤ Signal.maxNumber)
  match operands with
  | [] =>
    let traps := (← get).traps.mergeSort fun a b => a.1 ≤ b.1
    printLines (traps.map fun (n, action) => s!"trap -- {quoted action} {titleOf n}")
  | first :: rest =>
    let (action, names) :=
      if rest.isEmpty || isNumber first then (none, operands)
      else (some first, rest)
    let action := action.filter (· != "-")
    for name in names do
      match signalOf? name with
      | none =>
        Script.write 2 (Effect.line s!"trap: {name}: bad trap")
        return 1
      | some n =>
        modify fun s =>
          let others := s.traps.filter (·.1 != n)
          { s with traps := match action with
            | some action => (n, action) :: others
            | none => others }
    return 0

/-- The file of the program that a name stands for. -/
def programFile? (s : Session) (name : String) : Option String :=
  let search := Text.Octets.toText ((s.lookup? "PATH").getD Program.searchPath)
  match Program.lookup s.machine.files s.process.directory search (Text.Octets.toText name) with
  | .ok (file, _) => some file.octets
  | .error _ => none

/-- Says what names stand for, at length or with a word. -/
def explain (isLong : Bool) (names : List String) : Script Nat := do
  let mut status := 0
  for name in names do
    let s ← get
    let long (text : String) : String := if isLong then s!"{name} {text}" else name
    let text? :=
      if keywords.contains name then some (long "is a shell keyword")
      else if (Dictionary.get? name s.functions).isSome then some (long "is a shell function")
      else if specialCommands.contains name then some (long "is a special shell builtin")
      else if regularCommands.contains name then some (long "is a shell builtin")
      else
        (programFile? s name).map fun file => if isLong then s!"{name} is {file}" else file
    match text? with
    | some text => let _ ← printLines [text]
    | none =>
      if isLong then let _ ← printLines [s!"{name}: not found"]
      status := 127
  return status

/-- Shows or changes which permissions new files lack. -/
def umask (arguments : List String) : Script Nat := do
  match (← options "S" "" arguments).2 with
  | [] =>
    let digits := Nat.toDigits 8 (← get).mask
    printLines [String.ofList (List.replicate (4 - digits.length) '0' ++ digits)]
  | mode :: _ =>
    match Text.leadingDigits? 8 mode.toList with
    | some (n, []) => modify fun s => { s with mask := n % 512 }
    | _ => pure ()
    return 0

/-- The effect of a builtin command that runs no other. -/
def run? (name : String) (arguments : List String) : Option (Script Nat) :=
  match name with
  | ":" => some (return 0)
  | "true" => some (return 0)
  | "false" => some (return 1)
  | "echo" => some (carryOut (Printf.echo arguments))
  | "printf" => some (printf arguments)
  | "test" => some (test name arguments)
  | "[" => some (test name arguments)
  | "cd" => some (cd arguments)
  | "chdir" => some (cd arguments)
  | "pwd" => some do printLines [(← get).process.directory.octets]
  | "read" => some (read arguments)
  | "export" => some (markVariables name (·.exported) ({ · with exported := true }) arguments)
  | "readonly" => some (markVariables name (·.readOnly) ({ · with readOnly := true }) arguments)
  | "local" => some (makeLocal arguments)
  | "unset" => some (unset arguments)
  | "set" => some (setOptions arguments)
  | "shift" => some (shift arguments)
  | "exit" => some (exit arguments)
  | "return" => some (leave arguments)
  | "break" => some (leaveLoops .leaveLoops arguments)
  | "continue" => some (leaveLoops .nextRound arguments)
  | "getopts" => some (getopts arguments)
  | "wait" => some (wait arguments)
  | "kill" => some (kill arguments)
  | "trap" => some (trap arguments)
  | "type" => some (explain true arguments)
  | "umask" => some (umask arguments)
  | "ulimit" => some (printLines ["unlimited"])
  | "times" => some (printLines ["0m0.000000s 0m0.000000s", "0m0.000000s 0m0.000000s"])
  | "hash" => some (return 0)
  | "alias" => some (return 0)
  | "unalias" => some (return 0)
  | "jobs" => some (return 0)
  | "fg" => some (Script.fault "No current job")
  | "bg" => some (Script.fault "No current job")
  | _ => none

end LintGate.Shell.Builtin
