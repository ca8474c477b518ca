import LintGate.Process.Device
import LintGate.Shell.Expansion

/-!
Redirections: for the time of a command, descriptors lead elsewhere.
-/

namespace LintGate.Shell.Redirection

/-- A redirection whose words have been expanded. -/
inductive Plan
  | file (fd : Nat) (opening : Opening) (name : String)
  | duplicate (fd source : Nat)
  | close (fd : Nat)
  | document (fd : Nat) (content : String)

/-- What a redirection asks for. -/
def plan (e : Engine) : Redirect → Script Plan
  | .file fd opening name => return .file fd opening (← Expansion.text e false name)
  | .document fd body => return .document fd (← Expansion.text e false body)
  | .duplicate fd source => do
    match (← Expansion.text e false source).toList with
    | ['-'] => return .close fd
    | [c] =>
      if c.isDigit then return .duplicate fd (Text.digitValue c)
      else Script.fault "Syntax error: Bad fd number"
    | _ => Script.fault "Syntax error: Bad fd number"

/-- The descriptor that the name of a file stands for. -/
def descriptor? (name : String) : Option Nat :=
  match name with
  | "/dev/stdin" => some 0
  | "/dev/stdout" => some 1
  | "/dev/stderr" => some 2
  | name =>
    if name.startsWith "/dev/fd/" then Text.natural? (name.toList.drop 8) else none

/-- A handle for the file of this name. -/
def openFile (opening : Opening) (name : String) (s : Session) :
    Except FileFault (Nat × Machine) := do
  let path := Path.ofOctets name
  let (makes, empties, appends) := match opening with
    | .read => (false, false, false)
    | .update => (true, false, false)
    | .append => (true, false, true)
    | _ => (true, true, false)
  match descriptor? name with
  | some fd =>
    match s.process.handle? fd with
    | some handle => return (handle, s.machine)
    | none => throw .missing
  | none =>
    match Device.ofName? name with
    | some .void => return s.machine.addHandle ⟨.void, 0, false⟩
    | some .zeros =>
      let (_, reading, m) := s.machine.addPipe [⟨0, Device.zeros.content⟩]
      return (reading, m)
    | none => pure ()
    let isProtected := opening == .write && s.options.contains 'C' &&
      FileTree.hasFile s.machine.files s.process.directory path
    if isProtected then throw .alreadyExists
    s.machine.openFile s.process path makes empties appends

/-- What is said of a file that cannot be opened. -/
def complaint (opening : Opening) (name : String) (fault : FileFault) : String :=
  let makes := opening != .read
  let reason :=
    if fault == .missing || fault == .notDirectory then
      if makes then "Directory nonexistent" else "No such file"
    else fault.reason
  "cannot " ++ (if makes then "create " else "open ") ++ s!"{name}: {reason}"

/-- Carries out a redirection. -/
def apply (p : Plan) : Script Unit := do
  let s ← get
  match p with
  | .file fd opening name =>
    match openFile opening name s with
    | .ok (handle, m) => set { s with machine := m, process := s.process.bind fd handle }
    | .error fault => Script.fault (complaint opening name fault)
  | .duplicate fd source =>
    match s.process.handle? source with
    | some handle => set { s with process := s.process.bind fd handle }
    | none => Script.fault s!"{source}: Bad file descriptor"
  | .close fd => set { s with process := s.process.close fd }
  | .document fd content =>
    let (_, reading, m) := s.machine.addPipe [⟨0, Text.Octets.bytes content⟩]
    set { s with machine := m, process := s.process.bind fd reading }

/-- Carries out redirections. Where one of them cannot be, none is, and the status is 2. -/
def applyAll (ps : List Plan) : Script Nat := do
  let before := (← get).process.descriptors
  try
    for p in ps do apply p
    return 0
  catch h =>
    if h != .fault then throw h
    modify fun s => { s with process := { s.process with descriptors := before } }
    return 2

/-- Runs something after which descriptors lead where they led before. -/
def during (body : Script α) : Script α :=
  Script.during id (fun before after =>
    { after with process := { after.process with descriptors := before.process.descriptors } }) body

end LintGate.Shell.Redirection
