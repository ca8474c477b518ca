/-!
Reading the arguments of a command: options with values, flags, and words without a dash. What an
option or a word holds is looked at when the next one begins, so that an option that is not known
is reported before a bad value in front of it.
-/

namespace LintGate.CommandLine

/-- Why a command line is answered with its usage. -/
inductive UsageKind
  | help
  | version
  /-- There was nothing on the command line. -/
  | nothingGiven
  | missingCommand
  | unknownCommand
  | missingWord
  | badValue
  | unknownOption
  /-- An option that may stand only once stands again. -/
  | repeated
  /-- A flag with a value. -/
  | unwantedValue
  deriving DecidableEq, Repr

/-- Which texts are values. -/
inductive ValueKind
  /-- Any text but the empty one. -/
  | path
  | text
  | choice (texts : List String)
  deriving DecidableEq, Repr

def ValueKind.accepts (k : ValueKind) (s : String) : Bool :=
  match k with
  | .path => !s.isEmpty
  | .text => true
  | .choice texts => texts.contains s

/-- What an option does. -/
inductive OptionKind
  | flag
  | valued (kind : ValueKind) (repeatable : Bool)
  | help
  | version
  deriving DecidableEq, Repr

/-- An option as it is written: `--long` or `-s`. -/
structure Switch where
  long : String
  short : Option Char
  kind : OptionKind
  deriving DecidableEq, Repr

/-- How many words a command takes, each of them a path. -/
inductive WordCount
  | none
  | one
  | many
  deriving DecidableEq, Repr

/-- What a command takes. -/
structure Grammar where
  switches : List Switch
  words : WordCount
  /-- The commands one of which may follow. -/
  commands : List String
  deriving DecidableEq, Repr

/-- What the next values belong to. -/
inductive Slot
  | words
  | switch (s : Switch)
  deriving DecidableEq, Repr

/-- What has been read of the arguments. -/
structure Progress where
  /-- The options that were given, each with its values, the last one first. -/
  given : List (Switch × List String) := []
  words : List String := []
  /-- What was read last and has not been looked at. -/
  pending : Option (Slot × List String) := none
  /-- Whether a value of the pending option comes next. -/
  awaitsValue : Bool := false
  /-- Whether `--` was read: nothing after it is an option. -/
  plain : Bool := false

namespace Progress

/-- The progress with an option and its values, which are looked at. -/
def accept (p : Progress) (s : Switch) (values : List String) : Except UsageKind Progress :=
  let isGiven := p.given.any (·.1 == s)
  match s.kind with
  | .help => .error .help
  | .version => .error .version
  | .flag => if isGiven then .error .repeated else .ok { p with given := (s, []) :: p.given }
  | .valued kind repeatable =>
    if values.isEmpty then .error .badValue
    else if isGiven && !repeatable then .error .repeated
    else if values.all kind.accepts then .ok { p with given := (s, values) :: p.given }
    else .error .badValue

/-- The progress with what was pending looked at. -/
def settle (p : Progress) : Except UsageKind Progress :=
  let settled := { p with pending := none, awaitsValue := false }
  match p.pending with
  | none => .ok settled
  | some (.words, values) =>
    if values.all ValueKind.path.accepts then .ok { settled with words := p.words ++ values }
    else .error .badValue
  | some (.switch s, values) => settled.accept s values

/-- The progress with a word. -/
def addWord (p : Progress) (word : String) : Except UsageKind Progress :=
  match p.pending with
  | some (.words, values) =>
    .ok { p with pending := some (.words, values ++ [word]), awaitsValue := false }
  | _ => do
    let p ← p.settle
    return { p with pending := some (.words, [word]) }

/-- How many words there are so far. -/
def wordCount (p : Progress) : Nat :=
  p.words.length + match p.pending with
    | some (.words, values) => values.length
    | _ => 0

/-- The progress with an option whose value, if it takes one, is attached or comes next. -/
def addSwitch (p : Progress) (s : Switch) (attached : Option String) :
    Except UsageKind Progress := do
  match s.kind, attached with
  | .valued _ _, none =>
    let p ← p.settle
    return { p with pending := some (.switch s, []), awaitsValue := true }
  | .valued _ _, some value => (← p.settle).accept s [value]
  | _, _ => (← p.settle).accept s []

end Progress

namespace Grammar

/-- The option with a long name, with the value behind an equals sign. -/
def addLong (g : Grammar) (p : Progress) (text : List Char) : Except UsageKind Progress :=
  let name := text.takeWhile (· != '=')
  let attached := match text.drop name.length with
    | [] => none
    | _ :: value => some (String.ofList value)
  match g.switches.find? fun s => s.long.toList == name with
  | none => .error .unknownOption
  | some s =>
    match s.kind, attached with
    | .valued _ _, attached => p.addSwitch s attached
    | _, some _ => .error .unwantedValue
    | _, none => p.addSwitch s none

/-- The options with these short names, of which the first that takes a value takes the rest. -/
def addShorts (g : Grammar) (p : Progress) : List Char → Except UsageKind Progress
  | [] => .ok p
  | c :: rest =>
    match g.switches.find? fun s => s.short == some c with
    | none => .error .unknownOption
    | some s =>
      match s.kind with
      | .valued _ _ =>
        let attached := match rest with
          | [] => none
          | '=' :: value => some (String.ofList value)
          | value => some (String.ofList value)
        p.addSwitch s attached
      | _ => do addShorts g (← p.addSwitch s none) rest

/-- What a word is reported as that the command does not take. -/
def unexpectedWord (g : Grammar) (p : Progress) (word : String) : UsageKind :=
  if g.commands.isEmpty || (p.plain && g.commands.contains word) then .unknownOption
  else .unknownCommand

/-- Whether the command takes one more word. -/
def takesWord (g : Grammar) (p : Progress) : Bool :=
  match g.words with
  | .none => false
  | .one => p.wordCount == 0
  | .many => true

/-- The progress with one argument that is no command. -/
def addArgument (g : Grammar) (p : Progress) (argument : String) : Except UsageKind Progress :=
  let word (p : Progress) : Except UsageKind Progress :=
    if g.takesWord p then p.addWord argument else .error (g.unexpectedWord p argument)
  if p.plain then word p
  else
    match argument.toList with
    | ['-', '-'] => .ok { p with plain := true }
    | '-' :: '-' :: text => g.addLong p text
    | '-' :: c :: rest => g.addShorts p (c :: rest)
    | _ =>
      match p.pending with
      | some (slot, values) =>
        if p.awaitsValue then
          .ok { p with pending := some (slot, values ++ [argument]), awaitsValue := false }
        else word p
      | none => word p

/-- Reads arguments up to a command, which is given with the arguments after it. -/
def readUpTo (g : Grammar) (p : Progress) :
    List String → Except UsageKind (Progress × Option (String × List String))
  | [] => .ok (p, none)
  | argument :: rest =>
    let mayBeCommand := !p.plain && !p.awaitsValue
    if mayBeCommand && g.commands.contains argument then .ok (p, some (argument, rest))
    else do readUpTo g (← g.addArgument p argument) rest

end Grammar

namespace Progress

/-- The values of an option, in the order in which they were given. -/
def valuesOf (p : Progress) (long : String) : List String :=
  (p.given.reverse.filter (·.1.long == long)).flatMap (·.2)

/-- Whether an option was given. -/
def has (p : Progress) (long : String) : Bool :=
  p.given.any (·.1.long == long)

end Progress

end LintGate.CommandLine
