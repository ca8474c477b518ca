import LintGate.Glob.Match
import LintGate.Path.Basic
import LintGate.Text.Blank
import LintGate.Text.Lines

/-!
Ignore files: one rule a line, each a pattern for names below the directory of the file. Of the
rules that match a name the last one decides.
-/

namespace LintGate

/-- What a rule says of the names it matches. -/
inductive Verdict
  | ignore
  | keep
  deriving DecidableEq, Repr

structure IgnoreRule where
  glob : Glob
  verdict : Verdict
  /-- Files are not meant. -/
  directoriesOnly : Bool

namespace IgnoreRule

/-- The line without the blanks at its end, unless the last of them is a space after a backslash. -/
def withoutTail (line : List Char) : List Char :=
  if "\\ ".toList.isSuffixOf line then line else Text.trimEnd line

/-- What a line says before its pattern: whether names are kept, whether the pattern is anchored to
the directory of the file, and the rest. A backslash takes the meaning from a mark. -/
def marks (line : List Char) : Verdict × Bool × List Char :=
  if "\\!".toList.isPrefixOf line || "\\#".toList.isPrefixOf line then
    (.ignore, false, line.drop 1)
  else
    let (verdict, line) := match line with
      | '!' :: rest => (.keep, rest)
      | rest => (.ignore, rest)
    match line with
    | '/' :: rest => (verdict, true, rest)
    | rest => (verdict, false, rest)

/-- Whether a slash at the end says that only directories are meant, and the pattern without it. -/
def directoryMark (pattern : List Char) : Bool × List Char :=
  match pattern.reverse with
  | '/' :: '\\' :: before => (true, before.reverse)
  | '/' :: before => (true, before.reverse)
  | _ => (false, pattern)

/-- A pattern without a slash matches at any depth, unless it is anchored. -/
def atAnyDepth (anchored : Bool) (pattern : List Char) : List Char :=
  if anchored || pattern.contains '/' || pattern == "**".toList then pattern
  else "**/".toList ++ pattern

/-- A pattern for everything below a directory does not match the directory. -/
def strictlyBelow (pattern : List Char) : List Char :=
  if "/**".toList.isSuffixOf pattern then pattern ++ "/*".toList else pattern

/-- The rule on a line. Comments, blank lines and bad patterns give none. -/
def ofLine? (line : String) : Option IgnoreRule :=
  if line.startsWith "#" then none
  else
    let line := withoutTail line.toList
    if line.isEmpty then none
    else
      let (verdict, anchored, pattern) := marks line
      let (directoriesOnly, pattern) := directoryMark pattern
      let pattern := strictlyBelow (atAnyDepth anchored pattern)
      (Glob.parse? true (String.ofList pattern)).map fun tokens =>
        ⟨⟨tokens, true⟩, verdict, directoriesOnly⟩

/-- Whether the rule speaks of a name, given by its bytes. -/
def applies (r : IgnoreRule) (name : List UInt8) (isDirectory : Bool) : Bool :=
  (isDirectory || !r.directoriesOnly) && r.glob.isMatch name

end IgnoreRule

/-- The rules of one ignore file. -/
structure IgnoreFile where
  /-- The directory whose names are meant, as it is written in front of them. -/
  base : List Char
  rules : List IgnoreRule

/-- The text without `start` in front, where it stands there. -/
def withoutStart (start text : List Char) : List Char :=
  if start.isPrefixOf text then text.drop start.length else text

namespace IgnoreFile

/-- A file without rules. -/
def silent : IgnoreFile := ⟨[], []⟩

/-- The rules of a file for the directory `base`. A byte order mark in front is no part of them. -/
def ofBytes (base : Path) (bytes : List UInt8) : IgnoreFile where
  base := withoutStart "./".toList base.chars
  rules :=
    let lines := match Text.textLines bytes with
      | first :: rest => String.ofList (first.toList.dropWhile (· == '\uFEFF')) :: rest
      | [] => []
    lines.filterMap IgnoreRule.ofLine?

/-- The name of a path seen from the directory of the file. -/
def nameBelow (f : IgnoreFile) (p : Path) : List Char :=
  let name := withoutStart "./".toList p.chars
  if (Path.mk f.base).components == [.current] || !name.contains '/' then name
  else if f.base.isPrefixOf name then withoutStart ['/'] (name.drop f.base.length)
  else name

/-- What the rules say of a path. -/
def verdict? (f : IgnoreFile) (p : Path) (isDirectory : Bool) : Option Verdict :=
  if f.rules.isEmpty then none
  else
    let name := Text.Utf8.encode (String.ofList (f.nameBelow p))
    (f.rules.reverse.find? fun r => r.applies name isDirectory).map (·.verdict)

@[simp]
theorem verdict?_silent (p : Path) (isDirectory : Bool) : silent.verdict? p isDirectory = none :=
  rfl

end IgnoreFile

end LintGate
