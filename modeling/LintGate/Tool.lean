import LintGate.Text.Blank

/-!
The five kinds of lint tools, their keys, and the rule ids made from them.
-/

namespace LintGate

/-- An output stream of a process. -/
inductive Stream
  | stdout
  | stderr
  deriving DecidableEq, Repr

def Stream.name : Stream → String
  | .stdout => "stdout"
  | .stderr => "stderr"

inductive Tool
  | cppcheck
  | rats
  | vera
  | pclint
  /-- Any tool that prints `path(line): message [id]`. -/
  | other
  deriving DecidableEq, Repr

namespace Tool

/-- All tools in the order in which they are run. -/
def all : List Tool :=
  [.cppcheck, .rats, .vera, .pclint, .other]

/-- The text with which every rule id of the tool starts. -/
def key : Tool → String
  | .cppcheck => "cppcheck"
  | .rats => "rats"
  | .vera => "vera++"
  | .pclint => "pclint"
  | .other => "other"

/-- What stands between the key and the tool's own code. -/
def separator : Tool → Char
  | .vera | .pclint => ':'
  | .cppcheck | .rats | .other => '.'

/-- The rule id of a code of the tool. -/
def ruleId (t : Tool) (code : String) : String :=
  t.key ++ t.separator.toString ++ code

/-- The stream that carries the findings unless the settings name another. -/
def defaultStream : Tool → Stream
  | .cppcheck | .rats => .stdout
  | .vera | .pclint | .other => .stderr

/-- The tool called by its key or by its second name, in letters of either case. -/
def ofName? (name : String) : Option Tool :=
  let wanted := Text.lower (Text.trimmed name)
  match all.find? (·.key == wanted) with
  | some t => some t
  | none =>
    if wanted == "vera" then some .vera
    else if wanted == "custom" then some .other
    else none

end Tool

end LintGate
