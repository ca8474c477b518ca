import LintGate.Utility.Condition
import LintGate.Utility.Files
import LintGate.Utility.Printf
import LintGate.Utility.Search
import LintGate.Utility.Streams

/-!
The programs of the system, by their names.
-/

namespace LintGate.Utility

/-- A time in milliseconds: a decimal number of seconds, or of what a letter says. -/
def milliseconds? (s : String) : Option Nat :=
  let cs := s.toList
  let (number, unit) := match cs.getLast? with
    | some 's' => (cs.dropLast, 1000)
    | some 'm' => (cs.dropLast, 60000)
    | some 'h' => (cs.dropLast, 3600000)
    | some 'd' => (cs.dropLast, 86400000)
    | _ => (cs, 1000)
  let whole := number.takeWhile (· != '.')
  let part := (number.drop (whole.length + 1))
  if (whole ++ part).isEmpty || !(whole ++ part).all Char.isDigit then none
  else some (Text.ofDigits (whole ++ part) * unit / Nat.pow 10 part.length)

/-- Waits. -/
def sleep (c : Call) : Effect :=
  match c.options "" "" with
  | .error e => e
  | .ok (_, []) => c.misused 1 "missing operand"
  | .ok (_, operands) =>
    match operands.filter fun s => (milliseconds? s).isNone with
    | [] => { duration := (operands.filterMap milliseconds?).foldl (· + ·) 0 }
    | bad =>
      let complained := bad.foldl (fun e s =>
        e.complain 1 s!"{c.name}: invalid time interval \x27{s}\x27") ({} : Effect)
      complained.complain 1 s!"Try \x27{c.name} --help\x27 for more information."

/-- The programs that write, read, wait and end, and start no others. -/
def programs : List (String × (Call → Effect)) := [
  ("true", fun _ => {}), ("false", fun _ => .exit 1), ("echo", Printf.echoOfCall),
  ("printf", Printf.ofCall), ("test", fun c => Condition.effect c fun m => s!"{c.name}: {m}"),
  ("[", fun c => Condition.effect c fun m => s!"{c.name}: {m}"), ("sleep", sleep), ("cat", cat),
  ("head", head), ("tail", tail), ("wc", wc), ("tr", tr), ("cut", cut), ("sort", sort),
  ("uniq", uniq), ("tee", tee), ("rev", rev), ("tac", tac), ("seq", seq), ("yes", (yes · false)),
  ("nl", nl), ("dd", dd), ("paste", paste), ("grep", grep), ("sed", sed), ("expr", expr),
  ("ls", ls), ("rm", rm), ("mkdir", mkdir), ("rmdir", rmdir), ("touch", touch), ("chmod", chmod),
  ("cp", cp), ("mv", mv), ("basename", basename), ("dirname", dirname), ("pwd", pwd),
  ("printenv", printenv), ("which", which)]

/-- The effect of a call of the program with a name. -/
def effect? (name : String) (c : Call) : Option Effect :=
  (programs.find? (·.1 == name)).map fun p => p.2 c

/-- The programs that start others. -/
def starters : List String :=
  ["sh", "dash", "env", "xargs", "timeout", "nohup"]

/-- The names of all programs. -/
def names : List String :=
  programs.map (·.1) ++ starters

end LintGate.Utility
