import LintGate.File.Tree

/-!
Programs: what a file holds that can be run, and where a program is found by its name.
-/

namespace LintGate

/-- A program that can be run. -/
inductive Program
  | utility (name : String)
  | script (content : List UInt8)

namespace Program

/-- Where programs are looked for. -/
def searchPath : String :=
  "/usr/local/sbin:/usr/local/bin:/usr/sbin:/usr/bin:/sbin:/bin"

/-- The program in the file at a path, seen from a directory. -/
def inFile (files : FileTree) (directory file : Path) : Except FileFault Program := do
  match ← FileTree.find files directory file with
  | .utility name => return .utility name
  | .file content true => return .script content
  | .file _ false => throw .denied
  | .directory _ => throw .denied

/-- The first of the files that is a program. If there is none, a file that may not be run counts
as the cause, or else the last fault; `cause` is that of the files before. -/
def first (files : FileTree) (directory : Path) (cause : FileFault) :
    List Path → Except FileFault (Path × Program)
  | [] => .error cause
  | file :: rest =>
    match inFile files directory file with
    | .ok program => .ok (file, program)
    | .error fault => first files directory (if cause == .denied then cause else fault) rest

/-- The file and program that a name stands for. A name with a slash is a path; any other name is
looked for in the directories of the search path. -/
def lookup (files : FileTree) (directory : Path) (search name : String) :
    Except FileFault (Path × Program) :=
  let file := Path.ofString name
  if name.isEmpty then .error .missing
  else if name.contains '/' then (inFile files directory file).map fun p => (file, p)
  else
    first files directory .missing
      ((Text.pieces ':' search).map fun dir =>
        if dir.isEmpty then file else (Path.ofString dir).join file)

/-- The interpreter that the first line of a script names, and its argument, in octets. -/
def interpreter? (content : List UInt8) : Option (String × List String) := do
  let line := Text.Octets.ofBytes (content.takeWhile (· != 10))
  let rest ← if "#!".toList.isPrefixOf line then some (line.drop 2) else none
  let isBlank (c : Char) : Bool := c == ' ' || c == '\t'
  let rest := (rest.dropWhile isBlank).reverse.dropWhile isBlank |>.reverse
  let name := rest.takeWhile fun c => !isBlank c
  let argument := (rest.drop name.length).dropWhile isBlank
  if name.isEmpty then none
  else return (String.ofList name, if argument.isEmpty then [] else [String.ofList argument])

/-- How many scripts can be each other's interpreters. -/
def maxInterpreters : Nat := 5

/-- The utility that runs in the end when a file is started with arguments, and its arguments. The
first argument is the program's name. A script is an argument of its interpreter. -/
def resolve (files : FileTree) (directory : Path) : (depth : Nat) → (file : String) →
    (arguments : List String) → Except FileFault (String × List String)
  | depth, file, arguments => do
    match ← inFile files directory (Path.ofOctets file), depth with
    | .utility name, _ => return (name, arguments)
    | .script _, 0 => throw .tooManyLinks
    | .script content, depth + 1 =>
      match interpreter? content with
      | none => throw .badFormat
      | some (interpreter, argument) =>
        resolve files directory depth interpreter
          (interpreter :: argument ++ file :: arguments.tail)

end Program

end LintGate
