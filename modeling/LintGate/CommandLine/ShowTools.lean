import LintGate.CommandLine.Outcome

/-!
Showing the commands of the tools: for each tool its command line for a file, and what else the
command has.
-/

namespace LintGate.CommandLine

/-- A time in milliseconds; from one second on it is written in seconds, with up to three places. -/
def durationText (milliseconds : Nat) : String :=
  if milliseconds < 1000 then s!"{milliseconds}ms"
  else
    let places := Text.digits (1000 + milliseconds % 1000) |>.drop 1
    let kept := (places.reverse.dropWhile (· == '0')).reverse
    let fraction := if kept.isEmpty then "" else "." ++ String.ofList kept
    s!"{milliseconds / 1000}" ++ fraction ++ "s"

/-- The lines that describe the command of a tool. -/
def commandLines (l : Linter) (c : Command) : List String :=
  [s!"{l.tool.key} (reads {l.stream.name}):", s!"  {c.line}"] ++
    c.environment.map (fun e => s!"  env {e.1}={e.2}") ++
    (c.workingDir.map fun dir => s!"  cwd {dir.text}").toList ++
    (c.timeout.map fun limit => s!"  timeout {durationText limit.toNat}").toList

/-- The commands that let the tools of a configuration look at a file. -/
def toolsText (directory : Path) (config : Config) (file : Path) : String :=
  match config.linters with
  | [] => "No tools enabled.\n"
  | linters =>
    String.join ((linters.flatMap fun l =>
      commandLines l (l.command directory file)).map (· ++ "\n"))

/-- Shows the commands of the configured tools. -/
def showTools (s : Host) (named : Option Path) (file : Path) : Outcome :=
  match loadConfig s named with
  | .error f => .ofFailure s f
  | .ok config => { stdout := toolsText s.directory config file, files := s.files }

end LintGate.CommandLine
