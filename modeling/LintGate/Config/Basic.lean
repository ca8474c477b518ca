import LintGate.Config.Schema
import LintGate.File.Fault
import LintGate.Json.Reader
import LintGate.Linter.Basic

/-!
Configurations: which tools are run and how, which files are looked at, and which findings are
asked for.
-/

namespace LintGate

open Json

structure Config where
  /-- Only findings on lines that differ from a reference are asked for. -/
  modifiedLinesOnly : Bool := false
  profile : Option Path := none
  projectKey : Option String := none
  includes : List String := []
  excludes : List String := []
  cppcheck : Option ToolSettings := none
  rats : Option ToolSettings := none
  vera : Option ToolSettings := none
  pclint : Option ToolSettings := none
  other : Option ToolSettings := none
  /-- The key of the tool `other`. -/
  otherKey : Option String := none
  /-- The directory against which relative paths are seen: the one the configuration lies in. -/
  baseDir : Option Path := none
  deriving DecidableEq

namespace Config

/-- Why there is no configuration. -/
inductive Error
  | invalidJson
  | violation (v : Violation)
  | invalidData (fault : Fault)
  | unreadable (fault : FileFault)

def Error.message : Error → String
  | .invalidJson => "Configuration error: Invalid JSON"
  | .violation v => s!"Configuration error: Config validation failed: {v.message}"
  | .invalidData fault => s!"Configuration error: Invalid config: {fault.message}"
  | .unreadable fault => s!"Configuration error: Failed to read config: {fault.message}"

/-- What is said of a text that names no tool. -/
def unknownTool (name : String) : String :=
  s!"Configuration error: Unknown tool: {name}"

/-- The settings of a tool, if there are any. -/
def settings? (c : Config) : Tool → Option ToolSettings
  | .cppcheck => c.cppcheck
  | .rats => c.rats
  | .vera => c.vera
  | .pclint => c.pclint
  | .other => c.other

/-- A string member of an object. -/
def stringMember? (name : String) (v : Value) : Option String :=
  match v.get? name with
  | some (.string s) => some s
  | _ => none

/-- The strings of an array member, none if there is no such member. -/
def stringsMember (name : String) (v : Value) : List String :=
  match v.get? name with
  | some (.array items) => items.filterMap fun
    | .string s => some s
    | _ => none
  | _ => []

/-- The settings in a member. -/
def toolMember (name : String) (tools : Value) : Except Fault (Option ToolSettings) :=
  match tools.get? name with
  | some v => (ToolSettings.ofValue v).map some
  | none => .ok none

/-- The configuration a value holds that fits the schema. The tools are read in the order of their
names. -/
def ofFitting (v : Value) : Except Fault Config := do
  let tools := (v.get? "tools").getD (.object [])
  let cppcheck ← toolMember "cppcheck" tools
  let other ← toolMember "custom" tools
  let pclint ← toolMember "pclint" tools
  let rats ← toolMember "rats" tools
  let vera ← toolMember "vera" tools
  return {
    modifiedLinesOnly := match v.get? "modifiedLinesOnly" with
      | some (.bool b) => b
      | _ => false
    profile := (stringMember? "profile" v).map Path.ofString
    projectKey := stringMember? "projectKey" v
    includes := stringsMember "include" v
    excludes := stringsMember "exclude" v
    cppcheck, rats, vera, pclint, other
    otherKey := (tools.get? "custom").bind (stringMember? "key") }

/-- The configuration a JSON text holds. -/
def ofJson (text : String) : Except Error Config :=
  match Value.read? text with
  | none => .error .invalidJson
  | some v =>
    match schema.check v with
    | some violation => .error (.violation violation)
    | none =>
      match ofFitting v with
      | .error fault => .error (.invalidData fault)
      | .ok config => .ok config

/-- The configuration with relative paths seen from its directory. -/
def resolve (base : Path) (c : Config) : Config :=
  { c with
    baseDir := some base
    profile := c.profile.map fun p => if p.isAbsolute then p else base.join p
    cppcheck := c.cppcheck.map (·.resolve base)
    rats := c.rats.map (·.resolve base)
    vera := c.vera.map (·.resolve base)
    pclint := c.pclint.map (·.resolve base)
    other := c.other.map (·.resolve base) }

/-- The directory of a configuration file. -/
def directoryOf (file : Path) : Path :=
  match file.parent? with
  | some parent => if parent.isEmpty then Path.ofString "." else parent
  | none => Path.ofString "."

/-- The configuration of the file at `path` with this text. -/
def ofFile (path : Path) (text : String) : Except Error Config :=
  (ofJson text).map (resolve (directoryOf path))

/-- The name of a configuration file. -/
def fileName : String := ".cxxlens.json"

/-- The tools that have settings, in the order in which they are run. -/
def configured (c : Config) : List Tool :=
  Tool.all.filter fun t => (c.settings? t).isSome

/-- The tools that are configured and enabled, in the order in which they are run. -/
def linters (c : Config) : List Linter :=
  Tool.all.filterMap fun t => do
    let settings ← c.settings? t
    if settings.enabled then some (Linter.make t settings c.otherKey) else none

/-- The configuration as a JSON object, unset members left out. -/
def toValue (c : Config) : Value :=
  let tool (name : String) (settings : Option ToolSettings) (key : Option String) :=
    (settings.map fun s => (name, Value.object
      (s.toMembers ++ (key.map fun k => ("key", Value.string k)).toList))).toList
  .object <|
    [("modifiedLinesOnly", .bool c.modifiedLinesOnly)] ++
    (c.profile.map fun p => ("profile", .string p.text)).toList ++
    (c.projectKey.map fun k => ("projectKey", .string k)).toList ++
    [("include", .ofStrings c.includes), ("exclude", .ofStrings c.excludes),
      ("tools", .object <|
        tool "cppcheck" c.cppcheck none ++ tool "rats" c.rats none ++ tool "vera" c.vera none ++
        tool "pclint" c.pclint none ++ tool "custom" c.other c.otherKey)]

end Config

end LintGate
