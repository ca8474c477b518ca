import LintGate.Shell.Builtin
import LintGate.Shell.Grammar
import LintGate.Shell.Redirection

/-!
How a shell runs scripts. Statements are run one after the other; those that run beside each other
have clocks of their own.
-/

namespace LintGate.Shell

/-- Runs the program that a name stands for in a process, looked for in a search path; how it ends
comes with the time. -/
abbrev Launcher :=
  Process → (search : String) → (arguments : List String) →
    StateM Machine (Except FileFault (Ending × Nat))

/-- How what is inside of statements is run. -/
structure Runner where
  /-- Runs a statement. The process may end with it, and failures may not count. -/
  run : (last tested : Bool) → Statement → Script Nat
  engine : Engine

namespace Run

/-- How many functions can call each other. -/
def maxCalls : Nat := 1000

/-- When what never ends has ended. -/
def never : Nat := Nat.pow 10 15

/-- Runs the lines of a script from where its source is. -/
def lines (r : Runner) (last tested : Bool) : (fuel : Nat) → Source → (status : Nat) → Script Nat
  | 0, _, status => return status
  | fuel + 1, source, status => do
    match Parser.line.run source with
    | .error e =>
      modify fun s => { s with line := e.line }
      Script.fault s!"Syntax error: {e.message}"
    | .ok ((.sequence [], isLast), source) =>
      if isLast then return status else lines r last tested fuel source status
    | .ok ((statement, isLast), source) =>
      let status ← r.run (last && isLast) tested statement
      if isLast then return status else lines r last tested fuel source status

/-- Runs a script. -/
def script (r : Runner) (last tested : Bool) (text : String) : Script Nat :=
  let cs := text.toList.filter (· != '\x00')
  lines r last tested (cs.length + 2) { left := cs } 0

/-- Runs what is to be run for signals that have come, or ends. -/
def receive (r : Runner) : Script Unit := do
  let s ← get
  let (mine, others) := s.machine.posted.partition (·.target == s.process.id)
  if mine.isEmpty then return
  set { s with machine := { s.machine with posted := others } }
  for post in mine do
    let s ← get
    match Signal.ofNumber? post.signal with
    | none => pure ()
    | some signal =>
      match (s.traps.find? (·.1 == post.signal)).filter fun _ => signal.canBeCaught with
      | some (_, action) =>
        if !action.isEmpty then
          let status := s.status
          let _ ← script r false false action
          modify fun s => { s with status := status }
      | none =>
        match signal.action with
        | .nothing => pure ()
        | .stops => Script.halt .never
        | .ends =>
          modify fun s => { s with process := { s.process with now := post.time } }
          Script.halt (.killed post.signal)

/-- Runs what is to be run at the end. -/
def atEnd (r : Runner) : Script Unit := do
  let s ← get
  match s.traps.find? (·.1 == 0) with
  | none => return
  | some (_, action) =>
    set { s with
      traps := s.traps.filter (·.1 != 0)
      builtin := none
      loops := 0
      exitStatus := none }
    try
      let _ ← script r false false action
      modify fun after => { after with status := s.status }
    catch h =>
      if h == .exit then
        modify fun after => { after with status := after.exitStatus.getD s.status }
      throw h

/-- Runs a process to its end. -/
def conclude (r : Runner) (body : Script Unit) (s : Session) : Ending × Session :=
  let (result, s) := body.run s
  let halt := match result with
    | .ok _ => Halt.exit
    | .error h => h
  let ends := match halt with
    | .killed _ => false
    | .never => false
    | .replaced _ => false
    | _ => true
  if !ends then (Script.endingOf s.status halt, s)
  else
    let (result, s) := (atEnd r).run s
    let ending := match result with
      | .ok _ => Ending.exited (s.status % 256)
      | .error h => Script.endingOf (s.status % 256) h
    (ending, s)

/-- The machine after a process has ended. -/
def closed (m : Machine) (p : Process) (ending : Ending) : Machine :=
  let time := if ending == .never then never else p.now
  let m := p.descriptors.foldl (fun m d => m.closePipe d.2 time) m
  { m with running := m.running.filter (· != p.id) }

/-- Runs part of a script as a process of its own, and says how and when it ends and which it was.
Something is left of the patience, even if the process never ends. -/
def fork (r : Runner) (share : Nat) (body : Script Unit) : Script (Ending × Nat × Nat) := do
  let before ← get
  let rest := before.machine.patience / share
  let c := before.child
  let c := { c with machine := { c.machine with patience := c.machine.patience - rest } }
  let (ending, after) := conclude r body c
  let m := closed after.machine after.process ending
  set { before with machine := { m with patience := m.patience + rest } }
  return (ending, after.process.now, c.process.id)

/-- Goes on when a process has ended for which the script waits. -/
def await (ending : Ending) (time : Nat) : Script Nat := do
  if ending == .never then Script.halt .never
  Script.waitUntil time
  Builtin.describe ending
  return Script.statusOf ending

/-- Whether something is to be run for signals or at the end. -/
def hasTraps (s : Session) : Bool :=
  s.traps.any fun t => !t.2.isEmpty

/-- What a script prints, without the line ends at the end. -/
def output (r : Runner) (body : Statement) : Script (List Char) := do
  let (writing, reading, m) := (← get).machine.addPipe
  modify fun s => { s with machine := m }
  let (ending, time, _) ← fork r 16 do
    modify fun s => { s with process := s.process.bind 1 writing }
    modify fun s => { s with outputStatus := 0 }
    let status ← r.run true false body
    modify fun s => { s with status := status }
  if ending == .never then Script.halt .never
  Script.waitUntil time
  let s ← get
  let (parcels, closedAt) := s.machine.pending reading
  Script.waitUntil closedAt
  Builtin.describe ending
  let status := Script.statusOf ending
  modify fun s => { s with outputStatus := status, status := status }
  receive r
  let printed := Text.Octets.ofBytes ((parcels.flatMap (·.bytes)).filter (· != 0))
  return (printed.reverse.dropWhile (· == '\n')).reverse

/-- Runs the stages of a pipeline, from the first one on; `input` is where a stage reads. The ends
of the stages come with it. -/
def stages (r : Runner) (tested : Bool) : (input : Option Nat) → List Statement →
    Script (List (Ending × Nat))
  | _, [] => return []
  | input, stage :: rest => do
    let isLast := rest.isEmpty
    let (writing, reading, m) := (← get).machine.addPipe
    if !isLast then modify fun s => { s with machine := m }
    let (ending, time, _) ← fork r 2 do
      modify fun s =>
        let p := s.process
        let p := match input with
          | some handle => p.bind 0 handle
          | none => p
        { s with process := if isLast then p else p.bind 1 writing }
      let status ← r.run true tested stage
      modify fun s => { s with status := status }
    let others ← stages r tested (if isLast then none else some reading) rest
    if ending == .never && !isLast then
      let readUntil := (others.head?.map (·.2)).getD 0
      return (if readUntil < never then (.killed 13, readUntil) else (.never, never)) :: others
    else return (ending, if ending == .never then never else time) :: others

/-- Runs programs beside each other, each reading what the one before it writes. -/
def pipeline (r : Runner) (tested : Bool) (body : List Statement) : Script Nat := do
  let ends ← stages r tested none body
  for (ending, time) in ends do
    let _ ← await ending time
  return (ends.getLast?.map fun e => Script.statusOf e.1).getD 0

/-- Runs a statement beside the script. -/
def background (r : Runner) (body : Statement) : Script Nat := do
  let before := (← get).machine
  let start := (← get).process.now
  let (void, m) := before.addHandle ⟨.void, 0, false⟩
  modify fun s => { s with machine := m }
  let (ending, time, id) ← fork r 2 do
    modify fun s => { s with process := s.process.bind 0 void }
    let status ← r.run true false body
    modify fun s => { s with status := status }
  modify fun s =>
    let job : Job := {
      id := id
      endsAt := if ending == .never then never else time
      ending := ending
      emissions := (before.emissions.length, s.machine.emissions.length)
      changes := (before.changes.length, s.machine.changes.length) }
    { s with machine := s.machine.postpone before start, jobs := job :: s.jobs }
  return 0

/-- Runs a statement in a process of its own, or in this one if it ends with it. -/
def subshell (r : Runner) (last tested : Bool) (body : Statement) : Script Nat := do
  let s ← get
  if last && !hasTraps s then
    let status ← r.run true tested body
    Script.exit status
  else
    let (ending, time, _) ← fork r 16 do
      let status ← r.run true tested body
      modify fun s => { s with status := status }
    await ending time

/-- What an unsuccessful start of a program is called, and the status. A program that is looked for
before it is started counts as one that is not there. -/
def launchFault (searched : Bool) (fault : FileFault) : String × Nat :=
  match fault with
  | .missing => ("not found", 127)
  | .notDirectory => ("not found", 127)
  | .nameTooLong => (fault.reason, 127)
  | .tooManyLinks => (fault.reason, 127)
  | _ => (fault.reason, if searched then 127 else 126)

/-- Runs a program, in a process of its own or in this one; `searched` says whether it is looked for
before it is started. -/
def external (launch : Launcher) (searched inPlace : Bool) (arguments : List String) :
    Script Nat := do
  let name := arguments.headD ""
  let before ← get
  let s := if inPlace then before else before.child
  let p := { s.process with
    environment := s.environment
    now := before.process.now + Session.startTime }
  let search := (s.lookup? "PATH").getD Program.searchPath
  let (result, m) :=
    if name.isEmpty then (.error .denied, s.machine) else (launch p search arguments).run s.machine
  match result with
  | .error fault =>
    let (reason, status) := launchFault (searched && !name.contains '/') fault
    set { before with machine := { m with running := before.machine.running } }
    Script.warn s!"{name}: {reason}"
    if inPlace then Script.exit status else return status
  | .ok (ending, time) =>
    set { before with machine := closed m { p with now := time } ending }
    if inPlace then
      Script.waitUntil time
      Script.halt (.replaced ending)
    else await ending time

/-- Runs a function. -/
def call (r : Runner) (tested : Bool) (body : Statement) (arguments : List String) :
    Script Nat := do
  if maxCalls ≤ (← get).calls then
    Script.fault s!"Maximum function recursion depth ({maxCalls}) reached"
  let enter (s : Session) : Session :=
    { s with
      arguments := arguments
      optionOffset := 0
      loops := 0
      calls := s.calls + 1
      locals := [] :: s.locals }
  let leave (before after : Session) : Session :=
    let frame := after.locals.headD []
    let after := frame.foldl (fun s (name, old) => s.restore name old) after
    { after with
      arguments := before.arguments
      optionOffset := before.optionOffset
      loops := before.loops
      calls := before.calls
      locals := before.locals }
  Script.during enter leave do
    try r.run false tested body
    catch h => if h == .leave then return (← get).status else throw h

/-- The text of a script file that is looked for in the search path. -/
def sourceText (name : String) : Script String := do
  let s ← get
  let text (file : String) : Option String :=
    match FileTree.readBytes s.machine.files s.process.directory (Path.ofOctets file) with
    | .ok bytes => some (String.ofList (Text.Octets.ofBytes bytes))
    | .error _ => none
  if name.contains '/' then
    match text name with
    | some found => return found
    | none => Script.fault s!"cannot open {name}: No such file"
  else
    let dirs := Text.pieces ':' ((s.lookup? "PATH").getD "")
    match dirs.findSome? fun dir => text (if dir.isEmpty then name else s!"{dir}/{name}") with
    | some found => return found
    | none => Script.fault s!"{name}: not found"

/-- Runs a script file in this shell. -/
def runFile (r : Runner) (arguments : List String) : Script Nat := do
  match arguments with
  | [] => return 0
  | name :: _ =>
    let text ← sourceText name
    modify fun s => { s with builtin := some name }
    try script r false false text
    catch h => if h == .leave then return (← get).status else throw h

/-- Runs a command of the shell itself. -/
def builtin (r : Runner) (launch : Launcher) (isSpecial tested : Bool) (name : String)
    (arguments : List String) : Script Nat := do
  let body : Script Nat :=
    match name with
    | "eval" => script r false tested (" ".intercalate arguments)
    | "." => runFile r arguments
    | "exec" => if arguments.isEmpty then return 0 else external launch false true arguments
    | name => (Builtin.run? name arguments).getD (return 0)
  Script.during (fun s => { s with builtin := some name })
    (fun before after => { after with builtin := before.builtin }) do
      try body
      catch h => if h == .fault && !isSpecial then return 2 else throw h

/-- The words of a command without the word `command` and its options, whether it was there, and
the way in which it asks what the words stand for. -/
def withoutCommand : List String → List String × Bool × Option Bool
  | "command" :: "-v" :: rest => (rest, true, some false)
  | "command" :: "-V" :: rest => (rest, true, some true)
  | "command" :: "-p" :: rest => (rest, true, none)
  | "command" :: "--" :: rest => (rest, true, none)
  | "command" :: rest =>
    let (rest, _, asks) := withoutCommand rest
    (rest, true, asks)
  | words => (words, false, none)

/-- The fields of the words of a command. Arguments of some commands are assignments, which are not
cut into fields. -/
def arguments (r : Runner) : (found : List String) → List Word → Script (List String)
  | found, [] => return found
  | found, w :: rest => do
    let name := ((withoutCommand found).1).headD ""
    match w.assignment?, Builtin.assigns name with
    | some (name, value), true =>
      let value ← Expansion.text r.engine true value
      arguments r (found ++ [s!"{name}={value}"]) rest
    | _, _ => arguments r (found ++ (← Expansion.fields r.engine w)) rest

/-- Shows a command that is about to be run. -/
def trace (before : Session) (assigned : List (String × String))
    (words : List String) : Script Unit := do
  if before.options.contains 'x' then
    let signs := ((← get).lookup? "PS4").getD "+ "
    let shown := assigned.map (fun a => s!"{a.1}={a.2}") ++ words
    let bytes := Effect.line (signs ++ " ".intercalate shown)
    modify fun s =>
      match s.machine.write { before.process with now := s.process.now } 2 bytes with
      | .ok m => { s with machine := m }
      | .error _ => s

/-- Gives variables the values of assignments. They stay, or are inherited by one command. -/
def assignAll (r : Runner) (isLocal isExported : Bool) :
    List (String × Word) → Script (List (String × String))
  | [] => return []
  | (name, value) :: rest => do
    let value ← Expansion.text r.engine true value
    Script.assign name value
    if isLocal || isExported then
      modify fun s => { s with parameters := s.parameters.map fun (key, v) =>
        (key, if key == name then { v with exported := true } else v) }
    return (name, value) :: (← assignAll r isLocal isExported rest)

/-- Runs a command. -/
def command (r : Runner) (launch : Launcher) (last tested : Bool) (line : Nat)
    (assignments : List (String × Word)) (words : List Word) (redirects : List Redirect) :
    Script Nat := do
  Script.tick
  modify fun s => { s with line := line, outputStatus := 0 }
  let words ← arguments r [] words
  let before ← get
  let (command, isPlain, asks) := withoutCommand words
  let name := command.headD ""
  let body? := if isPlain then none else Dictionary.get? name before.functions
  let isBuiltin := body?.isNone && Builtin.isBuiltin name
  let isSpecial := isBuiltin && !isPlain && specialCommands.contains name
  let plans ← redirects.mapM (Redirection.plan r.engine)
  let isLocal := !words.isEmpty && !isSpecial
  let prepared : Script Nat := do
    let status ← Redirection.applyAll plans
    if status != 0 then
      if isSpecial then
        modify fun s => { s with status := status }
        Script.halt .fault
      return status
    let assigned ← assignAll r isLocal (isSpecial && name == "exec" && 1 < words.length) assignments
    trace before assigned words
    match asks, body?, words with
    | some isLong, _, _ => Builtin.explain isLong (command.take 1)
    | none, some body, _ => call r tested body command.tail
    | none, none, [] => return (← get).outputStatus
    | none, none, _ =>
      if command.isEmpty then return 0
      else if isBuiltin then builtin r launch isSpecial tested name command.tail
      else external launch true (last && !hasTraps before) command
  let restored (before after : Session) : Session :=
    if isLocal then
      (assignments.map (·.1)).foldl (fun s name =>
        s.restore name (Dictionary.get? name before.parameters)) after
    else after
  let body := Script.during id restored prepared
  if isSpecial && name == "exec" then body else Redirection.during body

/-- Runs one round of a loop, which may find that the loop is to end. Whether the loop goes on comes
with a status. -/
def round (body : Script (Option Nat)) : Script (Bool × Option Nat) := do
  try
    let status ← body
    return (status.isSome, status)
  catch h =>
    match h with
    | .leaveLoops 1 => return (false, some 0)
    | .leaveLoops (count + 2) => throw (.leaveLoops (count + 1))
    | .nextRound 1 => return (true, some 0)
    | .nextRound (count + 2) => throw (.nextRound (count + 1))
    | h => throw h

/-- Runs something in one loop more. -/
def inLoop (body : Script Nat) : Script Nat :=
  Script.during (fun s => { s with loops := s.loops + 1 })
    (fun before after => { after with loops := before.loops }) body

/-- Runs rounds of a loop until one finds that it is to end. -/
def rounds (body : Script (Option Nat)) : (fuel : Nat) → (status : Nat) → Script Nat
  | 0, _ => Script.halt .never
  | fuel + 1, status => do
    Script.tick
    match ← round body with
    | (true, next) => rounds body fuel (next.getD status)
    | (false, last) => return last.getD status

/-- Runs a body as long as the condition is as wanted. -/
def loop (r : Runner) (tested wanted : Bool) (condition body : Statement) : Script Nat := do
  let fuel := (← get).machine.patience + 1
  inLoop <| rounds (do
    let status ← r.run false true condition
    if (status == 0) = wanted then return some (← r.run false tested body) else return none) fuel 0

/-- Runs a body with a variable that has one value after the other. -/
def each (r : Runner) (tested : Bool) (name : String) (body : Statement) :
    List String → (status : Nat) → Script Nat
  | [], status => return status
  | value :: rest, status => do
    Script.assign name value
    match ← round (some <$> r.run false tested body) with
    | (true, next) => each r tested name body rest (next.getD status)
    | (false, last) => return last.getD status

/-- The first branch that fits a text. -/
def branch? (r : Runner) (text : String) : List (List Word × Statement) → Script (Option Statement)
  | [] => return none
  | (patterns, body) :: rest => do
    if ← fitsAny patterns then return some body else branch? r text rest
where
  /-- Whether one of the patterns fits. -/
  fitsAny : List Word → Script Bool
    | [] => return false
    | w :: rest => do
      let p ← Expansion.pattern r.engine w
      if Pattern.fits p text.toList then return true else fitsAny rest

/-- Runs statements one after the other. -/
def sequence (r : Runner) (last tested : Bool) : List Statement → Script Nat
  | [] => return 0
  | [s] => r.run last tested s
  | s :: rest => do
    let _ ← r.run false tested s
    sequence r last tested rest

/-- Whether a script that gives up on failures gives up when the statement fails. -/
def counts : Statement → Bool
  | .command .. => true
  | .pipeline _ => true
  | .background _ => true
  | .subshell _ => true
  | _ => false

/-- Runs a statement, its parts being run by `r`. -/
def effect (r : Runner) (launch : Launcher) (last tested : Bool) : Statement → Script Nat
  | .command line assignments words redirects =>
    command r launch last tested line assignments words redirects
  | .redirected line body redirects => do
    modify fun s => { s with line := line }
    let plans ← redirects.mapM (Redirection.plan r.engine)
    Redirection.during do
      let status ← Redirection.applyAll plans
      if status != 0 then return status else r.run false tested body
  | .sequence body => sequence r last tested body
  | .pipeline body => pipeline r tested body
  | .both first second => do
    let status ← r.run false true first
    if status = 0 then r.run last tested second else return status
  | .either first second => do
    let status ← r.run false true first
    if status = 0 then return status else r.run last tested second
  | .negation body => do
    return if (← r.run false true body) = 0 then 1 else 0
  | .background body => background r body
  | .subshell body => subshell r last tested body
  | .choice condition consequent alternative => do
    if (← r.run false true condition) = 0 then r.run last tested consequent
    else r.run last tested alternative
  | .loop wanted condition body => loop r tested wanted condition body
  | .each line name words body => do
    modify fun s => { s with line := line }
    let values ← match words with
      | none => pure (← get).arguments
      | some words => (words.mapM (Expansion.fields r.engine)).map (·.flatten)
    inLoop (each r tested name body values 0)
  | .select line word branches => do
    modify fun s => { s with line := line }
    let text ← Expansion.text r.engine false word
    match ← branch? r text branches with
    | some (.sequence []) => return 0
    | some body => r.run last tested body
    | none => return 0
  | .define name body => do
    modify fun s => { s with functions := Dictionary.insert name body s.functions }
    return 0

/-- Runs a statement and does what its status asks for. -/
def statement (r : Runner) (launch : Launcher) (last tested : Bool) (s : Statement) :
    Script Nat := do
  if (← get).options.contains 'n' then return 0
  receive r
  let status ← effect r launch last tested s
  modify fun s => { s with status := status }
  receive r
  let gives := counts s && !tested && (← get).options.contains 'e'
  if last || (gives && status != 0) then Script.exit status
  return status

/-- Runs statements and words that stand in each other so deep. -/
def runner (launch : Launcher) : (depth : Nat) → Runner
  | 0 =>
    { run := fun _ _ _ => Script.halt (.killed 11)
      engine := ⟨fun _ => Script.halt (.killed 11), fun _ _ _ => Script.halt (.killed 11)⟩ }
  | depth + 1 =>
    { run := fun last tested s => statement (runner launch depth) launch last tested s
      engine :=
        { output := fun body => output (runner launch depth) body
          glyphs := fun splits inner w =>
            Expansion.glyphs (runner launch depth).engine splits inner false w } }

/-- How deep statements can stand in each other while they run. -/
def maxDepth : Nat := 10000

end Run

end LintGate.Shell
