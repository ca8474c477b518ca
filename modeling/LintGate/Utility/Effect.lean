import LintGate.Process.Device
import LintGate.Process.Machine
import LintGate.Text.Digits

/-!
What the programs of the system do that are not scripts: they write, read some of their input,
change files, take their time and end. All texts here are octets.
-/

namespace LintGate

/-- How a program of the system is called. -/
structure Call where
  /-- The name by which the program calls itself in messages. -/
  name : String
  arguments : List String
  files : FileTree
  directory : Path
  environment : Dictionary String
  /-- All of its input. -/
  input : List UInt8
  /-- Whether input that was read can be given back. -/
  canRewind : Bool := false

/-- How much of its input a program reads. -/
inductive Appetite
  | none
  | some (count : Nat)
  | all
  deriving DecidableEq, Repr

/-- What a call does. -/
structure Effect where
  /-- What is written, in order. -/
  writes : List (Stream × List UInt8) := []
  reads : Appetite := .none
  changes : List FileChange := []
  duration : Nat := 0
  ending : Ending := .exited 0

namespace Effect

/-- A line of octets. -/
def line (s : String) : List UInt8 :=
  Text.Octets.bytes s ++ [10]

/-- Success with this output. -/
def printing (bytes : List UInt8) (reads : Appetite := .none) : Effect :=
  { writes := [(.stdout, bytes)], reads := reads }

/-- An exit with a code and nothing else. -/
def exit (code : Nat) : Effect :=
  { ending := .exited code }

/-- Failure with a line on the error stream. -/
def failing (code : Nat) (message : String) : Effect :=
  { writes := [(.stderr, line message)], ending := .exited code }

/-- The effect with one more output. -/
def print (e : Effect) (bytes : List UInt8) : Effect :=
  { e with writes := e.writes ++ [(.stdout, bytes)] }

/-- The effect with one more complaint; it fails with the code. -/
def complain (e : Effect) (code : Nat) (message : String) : Effect :=
  { e with writes := e.writes ++ [(.stderr, line message)], ending := .exited code }

/-- The effect with one more change. -/
def change (e : Effect) (c : FileChange) : Effect :=
  { e with changes := e.changes ++ [c] }

end Effect

namespace Call

/-- The path that an argument names. -/
def path (argument : String) : Path :=
  Path.ofOctets argument

/-- What an argument leads to. -/
def find (c : Call) (argument : String) : Except FileFault FileTree :=
  FileTree.find c.files c.directory (path argument)

/-- The bytes of the file that an argument names. -/
def read (c : Call) (argument : String) : Except FileFault (List UInt8) :=
  match Device.ofName? argument with
  | some d => .ok d.content
  | none => FileTree.readBytes c.files c.directory (path argument)

/-- Failure for want of the right arguments. -/
def misused (c : Call) (code : Nat) (message : String) : Effect :=
  (Effect.failing code s!"{c.name}: {message}").complain code
    s!"Try '{c.name} --help' for more information."

/-- The contents of the files that the operands name, the input for `-` and where there are none,
or what is said of a file that cannot be read. -/
def contents (c : Call) (operands : List String) : List (String × Except String (List UInt8)) :=
  (if operands.isEmpty then ["-"] else operands).map fun name =>
    if name == "-" || name == "/dev/stdin" then (name, .ok c.input)
    else (name, (c.read name).mapError fun fault => s!"{c.name}: {name}: {fault.reason}")

/-- Whether the operands ask for the input to be read. -/
def appetite (operands : List String) : Appetite :=
  if operands.isEmpty || operands.contains "-" || operands.contains "/dev/stdin" then .all
  else .none

/-- The call after the changes of an effect. -/
def after (c : Call) (e : Effect) : Call :=
  { c with files := e.changes.foldl FileChange.apply c.files }

end Call

/-- The lines of bytes, each with its end; the last one may have none. -/
def fullLines : List UInt8 → List (List UInt8)
  | [] => []
  | b :: rest =>
    if b = 10 then [b] :: fullLines rest
    else
      match fullLines rest with
      | [] => [[b]]
      | line :: others => (b :: line) :: others

/-- A line without its end. -/
def withoutEnd (line : List UInt8) : List UInt8 :=
  if line.getLast? = some 10 then line.dropLast else line

/-- The lines of bytes without their ends. -/
def plainLines (bytes : List UInt8) : List (List UInt8) :=
  (fullLines bytes).map withoutEnd

/-- Lines with an end each. -/
def ended (lines : List (List UInt8)) : List UInt8 :=
  lines.flatMap (· ++ [10])

/-- An option with its letter, `-` for one that is written as a word, and its value or that word. -/
abbrev CallOption := Char × Option String

/-- The options among the arguments, and the other arguments. Letters in `valued` take a value. `--`
ends the options, and `-` is none. The last component is a letter that lacks its value. -/
def splitOptions (valued : List Char) :
    List String → List CallOption × List String × Option Char
  | [] => ([], [], none)
  | argument :: rest =>
    match argument.toList with
    | ['-', '-'] => ([], rest, none)
    | '-' :: '-' :: word =>
      let (options, others, lacking) := splitOptions valued rest
      (('-', some (String.ofList word)) :: options, others, lacking)
    | '-' :: c :: cs => letters (c :: cs) rest
    | _ =>
      let (options, others, lacking) := splitOptions valued rest
      (options, argument :: others, lacking)
where
  /-- The options of one argument, and those after it. -/
  letters : List Char → List String → List CallOption × List String × Option Char
    | [], rest => splitOptions valued rest
    | c :: cs, rest =>
      if valued.contains c then
        match cs, rest with
        | [], value :: rest =>
          let (options, others, lacking) := splitOptions valued rest
          ((c, some value) :: options, others, lacking)
        | [], [] => ([], [], some c)
        | cs, rest =>
          let (options, others, lacking) := splitOptions valued rest
          ((c, some (String.ofList cs)) :: options, others, lacking)
      else
        let (options, others, lacking) := letters cs rest
        ((c, none) :: options, others, lacking)

/-- The options and the other arguments of a call that understands these letters, or what it says
of options that it does not understand. -/
def Call.options (c : Call) (plain valued : String) (code : Nat := 1) :
    Except Effect (List CallOption × List String) :=
  let (options, others, lacking) := splitOptions valued.toList c.arguments
  let strange := options.find? fun o => !(plain.toList ++ valued.toList).contains o.1
  match strange, lacking with
  | some ('-', word), _ =>
    let word := word.getD ""
    .error (c.misused code s!"unrecognized option '--{word}'")
  | some (letter, _), _ => .error (c.misused code s!"invalid option -- '{letter}'")
  | none, some letter => .error (c.misused code s!"option requires an argument -- '{letter}'")
  | none, none => .ok (options, others)

/-- Whether an option is given. -/
def hasOption (options : List CallOption) (letter : Char) : Bool :=
  options.any (·.1 == letter)

/-- The value of the last option with this letter. -/
def optionValue? (options : List CallOption) (letter : Char) : Option String :=
  ((options.filter (·.1 == letter)).getLast?).bind (·.2)

end LintGate
