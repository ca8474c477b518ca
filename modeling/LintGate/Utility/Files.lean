import LintGate.Path.Absolute
import LintGate.Utility.Effect

/-!
Programs that list, make, move and remove files, and those that take paths apart.
-/

namespace LintGate.Utility

/-- The names on the way to what a path leads to. -/
def namesOf? (c : Call) (operand : String) : Except FileFault (List String) :=
  (FileTree.place c.files c.directory (Call.path operand)).map (·.names)

/-- The names on the way to a path that may lead to nothing yet. -/
def newNames? (c : Call) (operand : String) : Except FileFault (List String) :=
  (FileTree.entryPlace c.files c.directory (Call.path operand)).map fun (dir, name) =>
    dir.names ++ [name]

/-- Each operand in turn, seen after what was done for those before it. -/
def eachOperand (c : Call) (operands : List String) (step : Call → Effect → String → Effect) :
    Effect :=
  operands.foldl (fun e operand => step (c.after e) e operand) {}

/-- A name of octets. -/
def octets (name : String) : String :=
  Text.Octets.ofText name

/-- The entries of directories, and the files themselves, a name to a line. -/
def ls (c : Call) : Effect :=
  match c.options "aA1dFCrltSRhignopqsu" "" 2 with
  | .error e => e
  | .ok (options, operands) =>
    let all := hasOption options 'a'
    let most := all || hasOption options 'A'
    let ordered (names : List String) := if hasOption options 'r' then names.reverse else names
    let operands := if operands.isEmpty then ["."] else operands
    let found := operands.map fun o => (o, c.find o)
    let complaints := found.filterMap fun (o, t) =>
      match t with
      | .error fault => some s!"{c.name}: cannot access \x27{o}\x27: {fault.reason}"
      | .ok _ => none
    let isListed : FileTree → Bool := fun t => t.isDirectory && !hasOption options 'd'
    let files := found.filterMap fun (o, t) =>
      match t with
      | .ok t => if isListed t then none else some o
      | .error _ => none
    let directories := found.filterMap fun (o, t) =>
      match t with
      | .ok t => if isListed t then some (o, t.entries.map (·.1)) else none
      | .error _ => none
    let sorted (names : List String) := ordered (names.mergeSort fun a b => a ≤ b)
    let listing (names : List String) : List UInt8 :=
      let shown := names.filter fun n => most || !n.startsWith "."
      let shown := (if all then [".", ".."] else []) ++ shown.map octets
      (ordered shown).flatMap Effect.line
    let titles := 1 < operands.length
    let sections := (directories.mergeSort fun a b => a.1 ≤ b.1).map fun (o, names) =>
      (if titles then Effect.line s!"{o}:" else []) ++ listing names
    let listed := (sorted files).flatMap Effect.line
    let parts := (if files.isEmpty then [] else [listed]) ++ sections
    let e := complaints.foldl (fun e m => e.complain 2 m) ({} : Effect)
    if parts.isEmpty then e else e.print ([10].intercalate parts)

/-- Removes files, and directories if asked to. -/
def rm (c : Call) : Effect :=
  match c.options "frRidv" "" with
  | .error e => e
  | .ok (options, operands) =>
    let force := hasOption options 'f'
    let deep := hasOption options 'r' || hasOption options 'R'
    if operands.isEmpty then (if force then {} else c.misused 1 "missing operand")
    else eachOperand c operands fun c e o =>
      match c.find o with
      | .error fault =>
        if force && (fault == .missing || fault == .notDirectory) then e
        else e.complain 1 s!"{c.name}: cannot remove \x27{o}\x27: {fault.reason}"
      | .ok t =>
        if t.isDirectory && !deep then
          e.complain 1 s!"{c.name}: cannot remove \x27{o}\x27: Is a directory"
        else
          match namesOf? c o with
          | .ok names => e.change (.erase names)
          | .error _ => e

/-- Makes directories. -/
def mkdir (c : Call) : Effect :=
  match c.options "pv" "m" with
  | .error e => e
  | .ok (options, operands) =>
    if operands.isEmpty then c.misused 1 "missing operand"
    else eachOperand c operands fun c e o =>
      match c.find o with
      | .ok t =>
        if hasOption options 'p' && t.isDirectory then e
        else e.complain 1 s!"{c.name}: cannot create directory \x27{o}\x27: File exists"
      | .error fault =>
        if hasOption options 'p' then
          let names := FileTree.namesOf (Path.normalize c.directory (Call.path o))
          match fault with
          | .missing => e.change (.put names .empty)
          | fault => e.complain 1 s!"{c.name}: cannot create directory \x27{o}\x27: {fault.reason}"
        else
          match newNames? c o with
          | .ok names => e.change (.put names .empty)
          | .error fault =>
            e.complain 1 s!"{c.name}: cannot create directory \x27{o}\x27: {fault.reason}"

/-- Removes empty directories. -/
def rmdir (c : Call) : Effect :=
  match c.options "pv" "" with
  | .error e => e
  | .ok (_, operands) =>
    if operands.isEmpty then c.misused 1 "missing operand"
    else eachOperand c operands fun c e o =>
      let refuse (reason : String) :=
        e.complain 1 s!"{c.name}: failed to remove \x27{o}\x27: {reason}"
      match c.find o, namesOf? c o with
      | .ok (.directory []), .ok names => e.change (.erase names)
      | .ok (.directory _), _ => refuse "Directory not empty"
      | .ok _, _ => refuse "Not a directory"
      | .error fault, _ => refuse fault.reason

/-- Makes empty files where there are none. -/
def touch (c : Call) : Effect :=
  match c.options "acm" "dtr" with
  | .error e => e
  | .ok (options, operands) =>
    if operands.isEmpty then c.misused 1 "missing file operand"
    else eachOperand c operands fun c e o =>
      match c.find o with
      | .ok _ => e
      | .error _ =>
        if hasOption options 'c' then e
        else
          match newNames? c o with
          | .ok names => e.change (.put names (.file [] false))
          | .error fault => e.complain 1 s!"{c.name}: cannot touch \x27{o}\x27: {fault.reason}"

/-- Whether a mode makes a file one that can be run; none where it says nothing of that. -/
def modeRuns? (mode : String) : Option Bool :=
  if mode.toList.all Char.isDigit then
    some (mode.toList.any fun c => Text.digitValue c % 2 == 1)
  else if mode.contains 'x' then some (mode.contains '+' || mode.contains '=')
  else none

/-- Makes files ones that can be run, or not. -/
def chmod (c : Call) : Effect :=
  match c.arguments with
  | [] => c.misused 1 "missing operand"
  | [mode] => c.misused 1 s!"missing operand after \x27{mode}\x27"
  | mode :: operands => eachOperand c operands fun c e o =>
    match c.find o, namesOf? c o with
    | .ok (.file content executable), .ok names =>
      e.change (.put names (.file content ((modeRuns? mode).getD executable)))
    | .error fault, _ => e.complain 1 s!"{c.name}: cannot access \x27{o}\x27: {fault.reason}"
    | _, _ => e

/-- Where a source goes that is copied or moved to a target: into it, if that is a directory. -/
def destination (c : Call) (source target : String) : String :=
  match c.find target with
  | .ok (.directory _) =>
    let name := ((Call.path source).fileName?).getD []
    (target ++ if target.endsWith "/" then "" else "/") ++ octets (String.ofList name)
  | _ => target

/-- Copies or moves the sources to the target. -/
def transfer (c : Call) (moves deep : Bool) (operands : List String) : Effect :=
  match operands.reverse with
  | [] => c.misused 1 "missing file operand"
  | [one] => c.misused 1 s!"missing destination file operand after \x27{one}\x27"
  | target :: sources =>
    let isDirectory := match c.find target with
      | .ok t => t.isDirectory
      | .error _ => false
    if 1 < sources.length && !isDirectory then
      let fault := if (c.find target).isOk then FileFault.notDirectory else .missing
      .failing 1 s!"{c.name}: target \x27{target}\x27: {fault.reason}"
    else eachOperand c sources.reverse fun c e source =>
      match c.find source with
      | .error fault => e.complain 1 s!"{c.name}: cannot stat \x27{source}\x27: {fault.reason}"
      | .ok t =>
        let t := match t with
          | .utility _ => FileTree.file [] true
          | t => t
        if t.isDirectory && !deep then
          e.complain 1 s!"{c.name}: -r not specified; omitting directory \x27{source}\x27"
        else
          let place := destination c source target
          match newNames? c place, namesOf? c source with
          | .ok names, .ok own =>
            if names == own then
              e.complain 1 s!"{c.name}: \x27{source}\x27 and \x27{place}\x27 are the same file"
            else
              let e := if moves then e.change (.erase own) else e
              let t := match t, c.find place with
                | .file content executable, .ok (.file _ there) =>
                  .file content (if moves then executable else there)
                | t, _ => t
              e.change (.put names t)
          | .error fault, _ =>
            e.complain 1 (if moves then
              s!"{c.name}: cannot move \x27{source}\x27 to \x27{place}\x27: {fault.reason}"
            else s!"{c.name}: cannot create regular file \x27{place}\x27: {fault.reason}")
          | _, .error _ => e

/-- Copies files. -/
def cp (c : Call) : Effect :=
  match c.options "frRpanTvu" "" with
  | .error e => e
  | .ok (options, operands) =>
    transfer c false (['r', 'R', 'a'].any (hasOption options)) operands

/-- Moves files. -/
def mv (c : Call) : Effect :=
  match c.options "fnTvu" "" with
  | .error e => e
  | .ok (_, operands) => transfer c true true operands

/-- The last name of a path, without an ending that is given too. -/
def basename (c : Call) : Effect :=
  let stripped (p : String) : List Char :=
    let kept := (p.toList.reverse.dropWhile (· == '/')).reverse
    if kept.isEmpty then (if p.isEmpty then [] else ['/'])
    else (kept.reverse.takeWhile (· != '/')).reverse
  match c.arguments with
  | [] => c.misused 1 "missing operand"
  | [p] => .printing (Text.Octets.toBytes (stripped p) ++ [10])
  | [p, ending] =>
    let found := stripped p
    let isEnding := ending.toList.isSuffixOf found && found.length != ending.length
    .printing (Text.Octets.toBytes
      (if isEnding then found.take (found.length - ending.length) else found) ++ [10])
  | _ :: _ :: extra :: _ => c.misused 1 s!"extra operand \x27{extra}\x27"

/-- Each path without its last name. -/
def dirname (c : Call) : Effect :=
  if c.arguments.isEmpty then c.misused 1 "missing operand"
  else
    .printing (c.arguments.flatMap fun p =>
      let kept := (p.toList.reverse.dropWhile (· == '/')).dropWhile (· != '/')
      let above := (kept.dropWhile (· == '/')).reverse
      let found := if !above.isEmpty then above else if kept.isEmpty && p.toList.head? != some '/'
        then ['.'] else ['/']
      Text.Octets.toBytes found ++ [10])

/-- The current directory. -/
def pwd (c : Call) : Effect :=
  .printing (Effect.line (octets c.directory.text))

/-- The environment, or the values of some of it. -/
def printenv (c : Call) : Effect :=
  if c.arguments.isEmpty then
    .printing (c.environment.flatMap fun (name, value) => Effect.line s!"{name}={value}")
  else
    let found := c.arguments.filterMap fun name => Dictionary.get? name c.environment
    { Effect.printing (found.flatMap Effect.line) with
      ending := .exited (if found.length == c.arguments.length then 0 else 1) }

mutual
/-- The paths of a tree and of everything in it, a directory before its entries. -/
def pathsIn (path : String) : FileTree → List (String × FileTree)
  | .directory entries => (path, .directory entries) :: pathsOfEntries path entries
  | t => [(path, t)]

def pathsOfEntries (path : String) : List (String × FileTree) → List (String × FileTree)
  | [] => []
  | (name, t) :: rest =>
    pathsIn (path ++ (if path.endsWith "/" then "" else "/") ++ octets name) t ++
      pathsOfEntries path rest
end

/-- The file that a program of this name is, if there is one. -/
def which (c : Call) : Effect :=
  let dirs := ((Dictionary.get? "PATH" c.environment).getD "").splitOn ":"
  let found := c.arguments.filterMap fun name =>
    (dirs.map (· ++ "/" ++ name)).find? fun file =>
      match c.find file with
      | .ok (.file _ executable) => executable
      | .ok t => t.isFile
      | .error _ => false
  { Effect.printing (found.flatMap Effect.line) with
    ending := .exited (if found.length == c.arguments.length then 0 else 1) }

end LintGate.Utility
