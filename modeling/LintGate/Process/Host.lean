import LintGate.Analysis.Report
import LintGate.Discovery.IgnoreRule
import LintGate.Process.Launch

/-!
The system on which tools are run: its files, a current directory, variables that commands inherit,
and what its user keeps out of repositories. A program is a utility of the system, or a script that
names its interpreter.
-/

namespace LintGate

structure Host where
  files : FileTree
  directory : Path
  environment : Dictionary String
  /-- The ignore file of the user for all repositories. -/
  userExcludes : IgnoreFile := .silent

namespace Host

/-- Directories that every system has. -/
def standardDirectories : List (List String) :=
  [["dev"], ["etc"], ["home"], ["lib"], ["opt"], ["proc"], ["root"], ["tmp"], ["usr", "lib"],
    ["usr", "local", "bin"], ["var", "tmp"]]

/-- A system with these files besides its utilities. -/
def ofFiles (files : FileTree) (directory : Path) : Host where
  files :=
    let withDirectories := standardDirectories.foldl (fun t names =>
      match (FileTree.Place.mk t []).follow (names.map String.toList) with
      | .ok _ => t
      | .error _ => t.put names .empty) files
    Utility.names.foldl (fun t name =>
      (t.put ["bin", name] (.utility name)).put ["usr", "bin", name] (.utility name))
      withDirectories
  directory := directory
  environment := [("PATH", Program.searchPath)]

/-- Milliseconds between two looks at a running program. -/
def pollInterval : Nat := 20

/-- At which look something is seen that happens after `time` milliseconds. -/
def seenAt (time : Nat) : Nat :=
  (time + pollInterval - 1) / pollInterval

/-- Whether a part of the command holds a null character. -/
def holdsNull (c : Command) : Bool :=
  let parts := c.program.text :: c.arguments ++ c.environment.flatMap (fun e => [e.1, e.2]) ++
    (c.workingDir.map (·.text)).toList
  parts.any (·.contains '\x00')

/-- The directory in which a command runs. -/
def workingDirectory (s : Host) (c : Command) : Except FileFault Path :=
  match c.workingDir with
  | none => .ok s.directory
  | some dir => do
    match ← FileTree.find s.files s.directory dir with
    | .directory _ => return Path.normalize s.directory dir
    | _ => throw .notDirectory

/-- What a command inherits, with what is set for it. -/
def environmentFor (s : Host) (c : Command) : Dictionary String :=
  Dictionary.ofEntries (s.environment ++ c.environment)

/-- Names and values of octets, as a program finds them. The first `=` of an entry ends its name. -/
def octetEnvironment (e : Dictionary String) : Dictionary String :=
  Dictionary.ofEntries <| e.filterMap fun (name, value) =>
    (Text.cut '=' (Text.Octets.ofText s!"{name}={value}").toList).map fun (name, value) =>
      (String.ofList name, String.ofList value)

/-- The number of the process that runs a command. -/
def processId : Nat := 1000

/-- The machine on which a command runs: there is no input, and what is written to the two streams
is taken. -/
def machine (s : Host) : Machine where
  files := s.files
  handles := #[⟨.void, 0, false⟩, ⟨.outlet .stdout, 0, false⟩, ⟨.outlet .stderr, 0, false⟩]
  nextProcess := processId + 1
  running := [processId]

/-- The process that runs a command. -/
def process (directory : Path) (environment : Dictionary String) : Process where
  id := processId
  parent := 1
  directory := directory
  environment := octetEnvironment environment
  descriptors := [(0, 0), (1, 1), (2, 2)]

/-- Starts a command: its directory is entered first, and its program looked up from there. A script
without an interpreter is run by the shell only where the command comes with a search path. -/
def start (s : Host) (c : Command) : Except FileFault Trace := do
  if holdsNull c then throw .nullInCommand
  let directory ← s.workingDirectory c
  let environment := s.environmentFor c
  let search := (Dictionary.get? "PATH" environment).getD "/bin:/usr/bin"
  let program := c.program.text
  let (file, _) ← Program.lookup s.files directory search program
  let arguments := (program :: c.arguments).map Text.Octets.ofText
  if program.contains '/' || (Dictionary.get? "PATH" c.environment).isNone then
    let _ ← Program.resolve s.files directory Program.maxInterpreters file.octets arguments
  let launched := Launch.file (Launch.byName Launch.maxDepth) (process directory environment)
    file.octets arguments
  let (result, m) := launched.run s.machine
  let (ending, duration) ← result
  return {
    emissions := m.emissions.reverse
    changes := m.changes.reverse
    ending := ending
    duration := duration }

/-- Milliseconds that it takes to start a program. -/
def startTime : Nat := 1

/-- At which look a program is seen to have ended. -/
def endSeenAt (t : Trace) : Nat :=
  seenAt (t.duration + startTime)

/-- Whether the program is seen to have ended before its time is over. -/
def endsInTime (t : Trace) (limit : Option UInt64) : Bool :=
  t.ending != .never &&
    match limit with
    | none => true
    | some limit => endSeenAt t ≤ seenAt limit.toNat

/-- The last moment before a program, and what it leaves running, is stopped. -/
def lastMoment (t : Trace) (limit : Option UInt64) : Nat :=
  if endsInTime t limit then pollInterval * endSeenAt t - 1
  else pollInterval * seenAt ((limit.map (·.toNat)).getD 0) - 1

/-- What a program has printed when it is stopped, and how it ended. -/
def outputOf (t : Trace) (stop : Nat) : ProcessOutput where
  stdout := ProcessOutput.linesOf (t.bytesTo .stdout stop)
  stderr := ProcessOutput.linesOf (t.bytesTo .stderr stop)
  exitCode := match t.ending with
    | .exited code => some code
    | _ => none

/-- Runs a command to its end. A program is looked at from time to time; one that has ended is no
longer cancelled, and one that is cancelled does not run out of time. What it leaves running is
stopped when it ends. -/
def execute (cancelled : Bool) (c : Command) (s : Host) :
    Except RunFailure ProcessOutput × Host :=
  match s.start c with
  | .error fault => (.error (.launch c.program.text fault.message), s)
  | .ok trace =>
    if cancelled then (.error (.cancelled c.program.text), s)
    else
      let stop := lastMoment trace c.timeout
      let after := { s with files := trace.filesAt s.files stop }
      if endsInTime trace c.timeout then (.ok (outputOf trace stop), after)
      else (.error (.timedOut c.program.text), after)

/-- Runs a command for an analysis. -/
def work (cancelled : Bool) (c : Command) : StateM Host WorkerOutcome := fun s =>
  match s.execute cancelled c with
  | (.ok output, s) => (.output output, s)
  | (.error failure, s) => (.failure failure, s)

/-- The bytes of a file, as the system is now. -/
def read (s : Host) (file : Path) : Except FileFault (List UInt8) :=
  FileTree.readBytes s.files s.directory file

end Host

end LintGate
