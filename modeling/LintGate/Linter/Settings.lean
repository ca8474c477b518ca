import LintGate.Linter.Environment
import LintGate.Path.Basic
import LintGate.Tool

/-!
How a tool is run: its executable, arguments, environment, directory, time limit and the stream that
carries its findings.
-/

namespace LintGate

open Json

structure ToolSettings where
  executable : Path
  arguments : String := ""
  environment : Environment := .none
  workingDir : Option Path := none
  /-- The time limit in milliseconds. -/
  timeout : Option UInt64 := none
  /-- The stream to read instead of the tool's usual one. -/
  stream : Option Stream := none
  enabled : Bool := true
  deriving DecidableEq

namespace ToolSettings

/-- A path, written as a string. -/
def readPath (v : Outline) : Except Fault Path :=
  (v.readText "path string").map Path.ofString

/-- The stream with this name. -/
def streamOfName (name : String) : Except Fault Stream :=
  match [Stream.stdout, Stream.stderr].find? (·.name == name) with
  | some stream => .ok stream
  | none => .error (.unknownVariant name [Stream.stdout.name, Stream.stderr.name])

/-- A stream: its name, or an object whose only member has that name and holds null. -/
def readStream : Outline → Except Fault Stream
  | .string (some name) => streamOfName name
  | .object (.member (some name) value .closed) => do
    let stream ← streamOfName name
    match value with
    | .null => return stream
    | other => throw (other.mismatch "unit")
  | .object _ => .error (.invalidValue "map" "map with a single key")
  | other => .error (other.mismatch "string or map")

/-- The fields of settings that have been read; `key` is that of the tool called `other`. -/
structure Parts where
  executable : Option Path := none
  arguments : Option String := none
  environment : Option Environment := none
  workingDir : Option (Option Path) := none
  timeout : Option (Option UInt64) := none
  stream : Option (Option Stream) := none
  enabled : Option Bool := none

def record : Record Parts where
  title := "struct ToolSettings"
  fields := [
    .of "executable" (·.executable) (fun p v => { p with executable := v }) readPath false false,
    .of "arguments" (·.arguments) (fun p v => { p with arguments := v }) Outline.readString
      true true,
    .of "environment" (·.environment) (fun p v => { p with environment := v }) Environment.read
      true true,
    .of "workingDir" (·.workingDir) (fun p v => { p with workingDir := v })
      (Outline.readOption readPath) true true,
    .of "timeoutMs" (·.timeout) (fun p v => { p with timeout := v })
      (Outline.readOption Outline.readUInt64) true true,
    .of "stream" (·.stream) (fun p v => { p with stream := v })
      (Outline.readOption readStream) true true,
    .of "enabled" (·.enabled) (fun p v => { p with enabled := v }) Outline.readBool true true]

/-- The settings with these parts. -/
def ofParts (p : Parts) : ToolSettings where
  executable := p.executable.getD ⟨[]⟩
  arguments := p.arguments.getD ""
  environment := p.environment.getD .none
  workingDir := p.workingDir.getD none
  timeout := p.timeout.getD none
  stream := p.stream.getD none
  enabled := p.enabled.getD true

/-- The settings an outline holds; members that are no settings are passed over. -/
def readOutline (v : Outline) : Except Fault ToolSettings :=
  (record.read .value {} v).map ofParts

/-- The settings a value holds. -/
def ofValue (v : Value) : Except Fault ToolSettings :=
  readOutline v.toOutline

/-- The settings as the members of an object, unset ones left out. -/
def toMembers (s : ToolSettings) : List (String × Value) :=
  [("executable", .string s.executable.text), ("arguments", .string s.arguments),
    ("environment", s.environment.toValue)] ++
  (s.workingDir.map fun p => ("workingDir", .string p.text)).toList ++
  (s.timeout.map fun t => ("timeoutMs", .number (.natural t))).toList ++
  (s.stream.map fun x => ("stream", .string x.name)).toList ++
  [("enabled", .bool s.enabled)]

/-- The settings with relative paths seen from `base`. A bare name of a program stays: it is looked
up along the search path. -/
def resolve (base : Path) (s : ToolSettings) : ToolSettings :=
  { s with
    executable :=
      if !s.executable.isAbsolute && 1 < s.executable.components.length then
        base.join s.executable
      else s.executable
    workingDir := s.workingDir.map fun dir => if dir.isAbsolute then dir else base.join dir }

end ToolSettings

end LintGate
