import LintGate.Process.Machine
import LintGate.Process.Signal
import LintGate.Shell.Statement

/-!
Sessions: what a shell knows while it runs a script.
-/

namespace LintGate.Shell

structure Variable where
  /-- The value; none while the variable is only marked. -/
  value : Option String
  /-- Whether commands inherit it. -/
  exported : Bool := false
  readOnly : Bool := false

/-- A program that runs beside the script. -/
structure Job where
  id : Nat
  endsAt : Nat
  ending : Ending
  /-- How many emissions there were before it and with it. -/
  emissions : Nat × Nat
  /-- How many changes of files there were before it and with it. -/
  changes : Nat × Nat

/-- Why the statements that follow are not run. -/
inductive Halt
  | exit
  /-- The script asked for something that cannot be done. -/
  | fault
  | killed (signal : Nat)
  | never
  /-- Another program has run in the place of the shell. -/
  | replaced (ending : Ending)
  | leaveLoops (count : Nat)
  | nextRound (count : Nat)
  /-- The function or the script ends. -/
  | leave
  deriving DecidableEq

structure Session where
  machine : Machine
  process : Process
  /-- The process that runs the whole script, which need not be the one that runs this part. -/
  main : Nat
  /-- The name of the script. -/
  name : String
  arguments : List String
  /-- The parameters that have names. -/
  parameters : Dictionary Variable
  functions : Dictionary Statement := []
  /-- The letters of the options that are set. -/
  options : List Char := []
  /-- What is run for signals, and for the end of the script, which has the number 0. A signal for
  which nothing is to be run is ignored. -/
  traps : List (Nat × String) := []
  /-- Of the command before. -/
  status : Nat := 0
  /-- With which the script said that it ends. -/
  exitStatus : Option Nat := none
  /-- Of the commands whose output was taken since the command before. -/
  outputStatus : Nat := 0
  /-- The line of the statement that is run. -/
  line : Nat := 0
  /-- The builtin command that is run, for messages. -/
  builtin : Option String := none
  jobs : List Job := []
  /-- In how many loops the statement is. -/
  loops : Nat := 0
  /-- How many functions are running. -/
  calls : Nat := 0
  /-- The former values of local variables, for each function that is running. -/
  locals : List (List (String × Option Variable)) := []
  /-- How far the arguments have been looked at for options. -/
  optionOffset : Nat := 0
  /-- The permissions that new files lack. -/
  mask : Nat := 18

abbrev Script := ExceptT Halt (StateM Session)

namespace Session

/-- The value of a variable, if it is set. -/
def lookup? (s : Session) (name : String) : Option String :=
  (Dictionary.get? name s.parameters).bind (·.value)

/-- The session with a variable that has this value. -/
def assign (s : Session) (name value : String) : Session :=
  let old := (Dictionary.get? name s.parameters).getD ⟨none, false, false⟩
  let exported := old.exported || s.options.contains 'a'
  { s with
    parameters := Dictionary.insert name { old with value := some value, exported := exported }
      s.parameters
    optionOffset := if name == "OPTIND" then 0 else s.optionOffset }

/-- The session without a variable. -/
def erase (s : Session) (name : String) : Session :=
  { s with parameters := s.parameters.filter (·.1 != name) }

/-- The session in which a variable is what it was. -/
def restore (s : Session) (name : String) (old : Option Variable) : Session :=
  match old with
  | some v => { s with parameters := Dictionary.insert name v s.parameters }
  | none => s.erase name

/-- What commands inherit. -/
def environment (s : Session) : Dictionary String :=
  s.parameters.filterMap fun (name, v) =>
    if v.exported then v.value.map (name, ·) else none

/-- The parameters whose names are no letters, besides the arguments. -/
def special? (s : Session) (name : String) : Option String :=
  match name with
  | "#" => some (toString s.arguments.length)
  | "?" => some (toString s.status)
  | "$" => some (toString s.main)
  | "!" => s.jobs.head?.map fun job => toString job.id
  | "-" => some (String.ofList s.options)
  | "0" => some s.name
  | _ => none

/-- The separator of joined arguments. -/
def joint (s : Session) : String :=
  match s.lookup? "IFS" with
  | none => " "
  | some separators => String.ofList (separators.toList.take 1)

/-- The value of a parameter, if it is set. -/
def value? (s : Session) (name : String) : Option String :=
  if name == "@" || name == "*" then
    if s.arguments.isEmpty then none else some (s.joint.intercalate s.arguments)
  else
    match s.special? name, Text.natural? name.toList with
    | some value, _ => some value
    | none, some n => s.arguments[n - 1]?
    | none, none => s.lookup? name

/-- Milliseconds until a new process or program runs. -/
def startTime : Nat := 1

/-- The session in which a part of the script runs as a process of its own. -/
def child (s : Session) : Session :=
  let id := s.machine.nextProcess
  { s with
    machine := { s.machine with nextProcess := id + 1, running := id :: s.machine.running }
    process := { s.process with id := id, parent := s.process.id, now := s.process.now + startTime }
    traps := s.traps.filter fun t => t.1 != 0 && t.2.isEmpty
    jobs := [] }

end Session

namespace Script

/-- Stops the script. -/
def halt (h : Halt) : Script α :=
  throw h

/-- Writes bytes to a descriptor, if it is open. -/
def write (fd : Nat) (bytes : List UInt8) : Script Unit :=
  modify fun s =>
    match s.machine.write s.process fd bytes with
    | .ok m => { s with machine := m }
    | .error _ => s

/-- A line on the error stream that says where and what about something is. -/
def warn (message : String) : Script Unit := do
  let s ← get
  let place := match s.builtin with
    | some name => s!"{s.name}: {s.line}: {name}: "
    | none => s!"{s.name}: {s.line}: "
  write 2 (Text.Octets.bytes (place ++ message ++ "\n"))

/-- Gives up what the script is doing, with a message. -/
def fault (message : String) : Script α := do
  warn message
  modify fun s => { s with status := 2 }
  halt .fault

/-- Ends the shell with a status. -/
def exit (status : Nat) : Script α := do
  modify fun s => { s with status := status, exitStatus := some status }
  halt .exit

/-- Lets time pass until `time`. -/
def waitUntil (time : Nat) : Script Unit :=
  modify fun s =>
    let now := max s.process.now time
    { s with process := { s.process with now := now }, machine := s.machine.advance now }

/-- How many milliseconds a script may run before it counts as one that never ends. -/
def horizon : Nat := 3600000

/-- How many bytes a value can have. A script that makes a longer one counts as one that never
ends. -/
def maxValue : Nat := Nat.pow 2 21

/-- Counts one more command. -/
def tick : Script Unit := do
  let s ← get
  match s.machine.patience with
  | 0 => halt .never
  | patience + 1 =>
    if horizon < s.process.now then halt .never
    set { s with machine := { s.machine with patience := patience } }

/-- Gives a variable a value. -/
def assign (name value : String) : Script Unit := do
  let s ← get
  if maxValue < value.utf8ByteSize then halt .never
  if !isName name.toList then fault s!"{name}: bad variable name"
  if (Dictionary.get? name s.parameters).any (·.readOnly) then fault s!"{name}: is read only"
  set (s.assign name value)

/-- Runs part of a script with a change of the session that is undone afterwards. -/
def during (change : Session → Session) (undo : (before after : Session) → Session)
    (body : Script α) : Script α := do
  let before ← get
  set (change before)
  try
    let result ← body
    modify (undo before)
    return result
  catch h =>
    modify (undo before)
    throw h

/-- The status of a process that has ended. -/
def statusOf : Ending → Nat
  | .exited code => code
  | .killed signal => Signal.status signal
  | .never => 0

/-- How a process ends whose script was stopped. -/
def endingOf (status : Nat) : Halt → Ending
  | .killed signal => .killed signal
  | .never => .never
  | .replaced ending => ending
  | _ => .exited status

end Script

end LintGate.Shell
