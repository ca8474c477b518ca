import LintGate.CommandLine.Outcome
import LintGate.File.Inode

/-!
Writing a first configuration. The file is created only where nothing has its name; when asked to,
what has its name is removed first, and the creation tried again. Between any two steps the disk may
have changed.
-/

namespace LintGate.CommandLine

/-- The first configuration: every tool with its usual arguments, and only one of them enabled. -/
def firstConfig : String :=
  "\x7b
  \"modifiedLinesOnly\": false,
  \"profile\": \"cxxlens-profile.json\",
  \"include\": [],
  \"exclude\": [\"**/third_party/**\"],
  \"tools\": \x7b
    \"cppcheck\": \x7b
      \"executable\": \"cppcheck\",
      \"arguments\": \"--inline-suppr --enable=all --xml -D__cplusplus -DNT\",
      \"stream\": \"stdout\"
    \x7d,
    \"rats\": \x7b
      \"executable\": \"rats\",
      \"arguments\": \"--xml\",
      \"enabled\": false
    \x7d,
    \"vera\": \x7b
      \"executable\": \"vera++\",
      \"arguments\": \"-nodup -showrules\",
      \"environment\": \x7b \"VERA_ROOT\": \"/usr/lib/vera++\" \x7d,
      \"enabled\": false
    \x7d,
    \"pclint\": \x7b
      \"executable\": \"lint-nt\",
      \"enabled\": false
    \x7d,
    \"custom\": \x7b
      \"executable\": \"python\",
      \"arguments\": \"cpplint.py --output=vs7\",
      \"key\": \"cpplint\",
      \"enabled\": false
    \x7d
  \x7d
\x7d
"

/-- Where an initialization stands. -/
inductive InitPhase
  | creating
  /-- The file was created and is empty. -/
  | writing (file : Nat)
  /-- Something has its name. -/
  | removing
  | done (file : Nat)
  | failed (f : TaskFailure)

namespace InitPhase

/-- One step of an initialization, on the disk as it finds it. -/
def step (force : Bool) (phase : InitPhase) (d : Disk) : InitPhase × Disk :=
  match phase with
  | .creating =>
    match d.create? with
    | some (file, d) => (.writing file, d)
    | none => (if force then .removing else .failed .configExists, d)
  | .writing file => (.done file, d.write file firstConfig)
  | .removing =>
    match d.remove with
    | .ok d => (.creating, d)
    | .error .missing => (.creating, d)
    | .error fault => (.failed (.file fault), d)
  | .done file => (.done file, d)
  | .failed f => (.failed f, d)

/-- So many steps of an initialization. -/
def steps (force : Bool) : Nat → InitPhase × Disk → InitPhase × Disk
  | 0, found => found
  | n + 1, (phase, d) => steps force n (phase.step force d)

/-- The file that the initialization has created. -/
def file? : InitPhase → Option Nat
  | .writing file | .done file => some file
  | .creating | .removing | .failed _ => none

def isDone : InitPhase → Bool
  | .done _ => true
  | _ => false

/-- Whether the initialization has come to its end. -/
def isEnded : InitPhase → Bool
  | .done _ | .failed _ => true
  | .creating | .writing _ | .removing => false

end InitPhase

/-- An initialization that nothing disturbs: after four steps it is done or has failed. -/
def writeConfig (s : Host) (force : Bool) : Outcome :=
  let place := FileTree.namesOf (s.directory.join (Path.ofString Config.fileName))
  let entry := (FileTree.find s.files s.directory (Path.ofString Config.fileName)).toOption
  let (phase, d) := InitPhase.steps force 4 (.creating, .ofEntry (entry.map .tree))
  { failure := match phase with
      | .failed f => some f
      | _ => none
    files := match d.entry with
      | some (.tree t) => s.files.put place t
      | some (.link _) => s.files
      | none => s.files.erase place }

end LintGate.CommandLine
