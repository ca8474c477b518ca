import LintGate.Shell.Start
import LintGate.Utility.Catalog

/-!
How programs are started: a file is looked up, and a utility or an interpreter of a script runs.
-/

namespace LintGate.Launch

/-- What starting a program gives: how and when it ends. -/
abbrev Launched := StateM Machine (Except FileFault (Ending × Nat))

/-- The call of a utility in a process. -/
def callOf (m : Machine) (p : Process) (arguments : List String) : Call :=
  let parcels := ((p.handle? 0).map fun h => (m.pending h).1).getD []
  let canRewind := match m.channel? p 0 with
    | some (.file _) => true
    | _ => false
  { name := arguments.headD ""
    arguments := arguments.tail
    files := m.files
    directory := p.directory
    environment := p.environment
    input := parcels.flatMap (·.bytes)
    canRewind := canRewind }

/-- When so many bytes have arrived. -/
def arrivalOf : Nat → List Parcel → Nat → Nat
  | _, [], closedAt => closedAt
  | count, parcel :: rest, closedAt =>
    if count ≤ parcel.bytes.length then parcel.time
    else arrivalOf (count - parcel.bytes.length) rest closedAt

/-- Carries out what a utility does in a process. -/
def perform (p : Process) (e : Effect) : StateM Machine (Ending × Nat) := do
  let m : Machine ← get
  let (count, ready) := match p.handle? 0, e.reads with
    | some handle, .all =>
      let (parcels, closedAt) := m.pending handle
      (parcels.foldl (fun n parcel => n + parcel.bytes.length) 0, closedAt)
    | some handle, .some count =>
      let (parcels, closedAt) := m.pending handle
      (count, arrivalOf count parcels closedAt)
    | _, _ => (0, 0)
  let now := max p.now ready
  let p := { p with now := now }
  modify fun (m : Machine) =>
    let m := m.advance now
    match p.handle? 0 with
    | some handle => m.consume handle count
    | none => m
  for (target, bytes) in e.writes do
    modify fun (m : Machine) =>
      match m.write p (match target with | .stdout => 1 | .stderr => 2) bytes with
      | .ok m => m
      | .error _ => m
  for change in e.changes do
    modify fun (m : Machine) => m.change now change
  return (e.ending, now + e.duration)

/-- Starts a program in a process, with its arguments and what it makes of its own. -/
abbrev Starter := Process → (search : String) → List String → Launched

/-- A failure of a utility. -/
def fail (p : Process) (code : Nat) (message : String) : StateM Machine (Ending × Nat) :=
  perform p (.failing code message)

/-- Starts a program for a utility, which says so if there is none. -/
def startFor (start : Starter) (name : String) (quotes : Bool) (p : Process)
    (arguments : List String) : StateM Machine (Ending × Nat) := do
  let search := (Dictionary.get? "PATH" p.environment).getD "/bin:/usr/bin"
  match ← start p search arguments with
  | .ok found => return found
  | .error fault =>
    let program := arguments.headD ""
    let shown := if quotes then s!"\x27{program}\x27" else program
    let code := if fault == .missing then 127 else 126
    fail p code s!"{name}: {shown}: {fault.reason}"

/-- Settings of the environment among arguments, and the command after them. -/
def envArguments (e : Dictionary String) : (fuel : Nat) → List String →
    Dictionary String × List String
  | 0, rest => (e, rest)
  | fuel + 1, arguments =>
    match arguments with
    | "-" :: rest => envArguments [] fuel rest
    | "-i" :: rest => envArguments [] fuel rest
    | "--" :: rest => envArguments e fuel rest
    | "-u" :: name :: rest => envArguments (e.filter (·.1 != name)) fuel rest
    | "-S" :: text :: rest => envArguments e fuel ((text.splitOn " ").filter (· != "") ++ rest)
    | argument :: rest =>
      match Text.cut '=' argument.toList with
      | some (name, value) =>
        envArguments (Dictionary.insert (String.ofList name) (String.ofList value) e) fuel rest
      | none => (e, argument :: rest)
    | [] => (e, [])

/-- Runs a command in another environment, or shows the environment. -/
def env (start : Starter) (p : Process) (name : String) (arguments : List String) :
    StateM Machine (Ending × Nat) := do
  let (environment, command) := envArguments p.environment 1000 arguments
  let p := { p with environment := environment }
  if command.isEmpty then
    perform p (.printing (environment.flatMap fun (key, value) => Effect.line s!"{key}={value}"))
  else startFor start name true p command

/-- A process that a utility starts, and the machine in which it runs. -/
def childOf (p : Process) : StateM Machine Process := do
  let m : Machine ← get
  let id := m.nextProcess
  set { m with nextProcess := id + 1, running := id :: m.running }
  return { p with id := id, parent := p.id }

/-- Runs a command until a time. -/
def timeout (start : Starter) (p : Process) (name : String) (arguments : List String) :
    StateM Machine (Ending × Nat) := do
  let plain := arguments.dropWhile fun a => a.startsWith "-"
  match plain with
  | limit :: command =>
    match Utility.milliseconds? limit, command with
    | none, _ =>
      perform p ((Effect.failing 125 s!"{name}: invalid time interval \x27{limit}\x27").complain 125
        s!"Try \x27{name} --help\x27 for more information.")
    | some _, [] =>
      perform p ((Effect.failing 125 s!"{name}: missing operand").complain 125
        s!"Try \x27{name} --help\x27 for more information.")
    | some limit, command =>
      let before : Machine ← get
      let child ← childOf p
      let (ending, time) ← startFor start name true child command
      let isLate := 0 < limit && (ending == .never || p.now + limit < time)
      modify fun (m : Machine) => { m with running := before.running }
      if isLate then
        let stop := p.now + limit
        modify fun (m : Machine) =>
          let fresh := m.emissions.length - before.emissions.length
          let kept := (m.emissions.take fresh).filter fun e => e.time ≤ stop
          let late := m.changes.length - before.changes.length
          let done := (m.changes.take late).filter fun c => c.1 ≤ stop
          { m with
            emissions := kept ++ before.emissions
            changes := done ++ before.changes
            files := done.reverse.foldl (fun t c => c.2.apply t) before.files }
        return (.exited 124, stop)
      else
        match ending with
        | .killed signal => return (.exited (Signal.status signal), time)
        | ending => return (ending, time)
  | [] =>
    perform p ((Effect.failing 125 s!"{name}: missing operand").complain 125
      s!"Try \x27{name} --help\x27 for more information.")

/-- The words of the input of `xargs`. -/
def inputWords : (fuel : Nat) → List Char → List String
  | 0, _ => []
  | fuel + 1, cs =>
    match cs.dropWhile fun c => c == ' ' || c == '\n' || c == '\t' with
    | [] => []
    | cs =>
      let (word, rest) := wordFrom (cs.length + 1) cs
      String.ofList word :: inputWords fuel rest
where
  /-- A word with its quotes taken away, and what follows it. -/
  wordFrom : (fuel : Nat) → List Char → List Char × List Char
    | 0, cs => ([], cs)
    | _, [] => ([], [])
    | fuel + 1, c :: rest =>
      if c == ' ' || c == '\n' || c == '\t' then ([], rest)
      else if c == '\'' || c == '"' then
        let inner := rest.takeWhile (· != c)
        let (more, rest) := wordFrom fuel (rest.drop (inner.length + 1))
        (inner ++ more, rest)
      else
        match c, rest with
        | '\\', d :: rest =>
          let (more, rest) := wordFrom fuel rest
          (d :: more, rest)
        | c, rest =>
          let (more, rest) := wordFrom fuel rest
          (c :: more, rest)

/-- Parts of a list with so many items each. -/
def chunks (size : Nat) : (fuel : Nat) → List String → List (List String)
  | 0, _ => []
  | _, [] => []
  | fuel + 1, items => items.take size :: chunks size fuel (items.drop size)

/-- Runs a command with the words of the input as arguments. -/
def xargs (start : Starter) (p : Process) (name : String) (arguments : List String) :
    StateM Machine (Ending × Nat) := do
  let m : Machine ← get
  let input := String.ofList (Text.Octets.ofBytes (callOf m p []).input)
  let own := arguments.takeWhile (·.startsWith "-")
  let valued := own.getLast?.any fun a => ["-n", "-I", "-L", "-P", "-d"].contains a
  let count := own.length + if valued then 1 else 0
  let command := if (arguments.drop count).isEmpty then ["echo"] else arguments.drop count
  let (options, _, _) := splitOptions "nILPd".toList (arguments.take count)
  let limit := ((optionValue? options 'n').bind fun n => Text.natural? n.toList).getD 5000
  let calls :=
    match optionValue? options 'I' with
    | some mark =>
      ((input.splitOn "\n").filter (· != "")).map fun line =>
        command.map fun (a : String) => a.replace mark line
    | none =>
      let words :=
        if hasOption options '0' then (input.splitOn "\x00").filter (· != "")
        else inputWords (input.length + 1) input.toList
      if words.isEmpty then if hasOption options 'r' then [] else [command]
      else (chunks limit (words.length + 1) words).map (command ++ ·)
  let (_, ready) ← perform p { reads := .all }
  let (void, m) := (← get).addHandle ⟨.void, 0, false⟩
  set m
  let mut now := ready
  let mut code := 0
  for call in calls do
    let running := (← get).running
    let child ← childOf { p with now := now }
    let (ending, time) ← startFor start name false (child.bind 0 void) call
    modify fun (m : Machine) => { m with running := running }
    now := max now time
    match ending with
    | .exited 0 => pure ()
    | .exited n => code := if n == 126 || n == 127 then n else 123
    | .killed _ => code := 125
    | .never => return (.never, now)
  return (.exited code, now)

/-- Runs a utility of the system in a process. The first argument is its name. -/
def utility (start : Starter) (p : Process) (name : String) (arguments : List String) :
    StateM Machine (Ending × Nat) := do
  let own := arguments.headD ""
  match name with
  | "sh" => Shell.start start p arguments
  | "dash" => Shell.start start p arguments
  | "env" => env start p own arguments.tail
  | "nohup" => startFor start own true p arguments.tail
  | "timeout" => timeout start p own arguments.tail
  | "xargs" => xargs start p own arguments.tail
  | name => perform p ((Utility.effect? name (callOf (← get) p arguments)).getD {})

/-- Starts the program in a file. A script without an interpreter is one for the shell. -/
def file (start : Starter) (p : Process) (file : String) (arguments : List String) : Launched := do
  let m : Machine ← get
  match Program.resolve m.files p.directory Program.maxInterpreters file arguments with
  | .ok (name, arguments) => return .ok (← utility start p name arguments)
  | .error .badFormat => return .ok (← utility start p "sh" ("/bin/sh" :: file :: arguments.tail))
  | .error fault => return .error fault

/-- Starts the program of a name; programs may start programs `depth` deep, and what goes deeper
never ends. -/
def byName : (depth : Nat) → Starter
  | 0, p, _, _ => return .ok (.never, p.now)
  | depth + 1, p, search, arguments => do
    let m : Machine ← get
    let name := Text.Octets.toText (arguments.headD "")
    match Program.lookup m.files p.directory (Text.Octets.toText search) name with
    | .error fault => return .error fault
    | .ok (found, _) => file (byName depth) p found.octets arguments

/-- How deep programs may start programs. -/
def maxDepth : Nat := 64

end LintGate.Launch
