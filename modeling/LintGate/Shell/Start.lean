import LintGate.Shell.Run

/-!
How a shell starts: its arguments say whether it runs a text, a file or what it reads.
-/

namespace LintGate.Shell

/-- The variables with which a shell starts. -/
def firstVariables (p : Process) : Dictionary Variable :=
  let inherited := p.environment.filter fun e => isName e.1.toList
  let inherited := inherited.map fun e => (e.1, (⟨some e.2, true, false⟩ : Variable))
  let own : List (String × Variable) :=
    [("IFS", ⟨some " \t\n", false, false⟩), ("OPTIND", ⟨some "1", false, false⟩),
      ("PPID", ⟨some (toString p.parent), false, false⟩),
      ("PWD", ⟨some p.directory.octets, true, false⟩)]
  let defaults : List (String × Variable) :=
    [("PATH", ⟨some Program.searchPath, false, false⟩), ("PS1", ⟨some "# ", false, false⟩),
      ("PS2", ⟨some "> ", false, false⟩), ("PS4", ⟨some "+ ", false, false⟩)]
  Dictionary.ofEntries (defaults ++ inherited ++ own)

/-- All that is left of the input. -/
def restOfInput : Script String := do
  let s ← get
  match s.process.handle? 0 with
  | none => return ""
  | some handle =>
    let (parcels, closedAt) := s.machine.pending handle
    let bytes := parcels.flatMap (·.bytes)
    modify fun s => { s with machine := s.machine.consume handle bytes.length }
    Script.waitUntil closedAt
    return String.ofList (Text.Octets.ofBytes bytes)

/-- Finds the script that the arguments ask for and runs it. -/
def main (r : Runner) (arguments : List String) : Script Unit := do
  let (rest, _, isText) ← Builtin.shellArguments (some 'c') (arguments.length + 1) arguments
  let run (last : Bool) (text : String) : Script Unit := do
    let status ← Run.script r last false text
    modify fun s => { s with status := status }
  let readsInput := (← get).options.contains 's'
  match isText, rest with
  | true, [] => Script.fault "-c requires an argument"
  | true, text :: rest =>
    modify fun s => { s with name := rest.headD s.name, arguments := rest.drop 1 }
    run true text
  | false, file :: others =>
    if readsInput then
      modify fun s => { s with arguments := rest }
      run false (← restOfInput)
    else
      let s ← get
      match FileTree.readBytes s.machine.files s.process.directory (Path.ofOctets file) with
      | .error _ => Script.fault s!"cannot open {file}: No such file"
      | .ok bytes =>
        modify fun s => { s with name := file, arguments := others }
        run false (String.ofList (Text.Octets.ofBytes bytes))
  | false, [] =>
    modify fun s => Builtin.withOption s 's' true
    run false (← restOfInput)

/-- Runs a shell in a process. The first argument is its name. -/
def start (launch : Launcher) (p : Process) (arguments : List String) :
    StateM Machine (Ending × Nat) := fun m =>
  let r := Run.runner launch Run.maxDepth
  let name := arguments.headD ""
  let (ending, s) := Run.conclude r (main r arguments.tail) {
    machine := m
    process := p
    main := p.id
    name := name
    arguments := []
    parameters := firstVariables p }
  ((ending, s.process.now), s.machine)

end LintGate.Shell
