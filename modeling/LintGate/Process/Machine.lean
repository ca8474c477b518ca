import LintGate.Process.Trace
import LintGate.Text.Octets

/-!
The machine on which programs run: its files, what is open, what has been written, and how much more
may be run. Programs run one after the other, each with a clock of its own: a program that reads
from a pipe waits, by its clock, until the bytes it reads were written.
-/

namespace LintGate

/-- What is read or written through an open handle. -/
inductive Channel
  /-- Nothing is read from it, and what is written is lost. -/
  | void
  | outlet (s : Stream)
  | file (names : List String)
  | pipe (number : Nat)
  deriving DecidableEq, Repr

/-- Something open, at a position that all its users share. -/
structure Handle where
  channel : Channel
  offset : Nat := 0
  appends : Bool := false

/-- Bytes on their way, and when they were written. -/
structure Parcel where
  time : Nat
  bytes : List UInt8

/-- A pipe: what has arrived and was not read yet, what was written since, the last first, and when
its writers were done. -/
structure Pipe where
  arrived : List Parcel := []
  incoming : List Parcel := []
  closedAt : Nat := 0

/-- A signal on its way to a process. -/
structure Post where
  target : Nat
  signal : Nat
  time : Nat

/-- A running program, as the machine sees it. -/
structure Process where
  id : Nat
  parent : Nat
  /-- The absolute path of the current directory. -/
  directory : Path
  /-- Names and values of octets. -/
  environment : Dictionary String
  /-- The handles of the open descriptors. -/
  descriptors : List (Nat × Nat)
  /-- Milliseconds since the first program was started. -/
  now : Nat := 0

namespace Process

/-- The handle of a descriptor. -/
def handle? (p : Process) (fd : Nat) : Option Nat :=
  (p.descriptors.find? (·.1 == fd)).map (·.2)

/-- The process without a descriptor. -/
def close (p : Process) (fd : Nat) : Process :=
  { p with descriptors := p.descriptors.filter (·.1 != fd) }

/-- The process with a descriptor for a handle. -/
def bind (p : Process) (fd handle : Nat) : Process :=
  { p with descriptors := (fd, handle) :: (p.close fd).descriptors }

end Process

structure Machine where
  files : FileTree
  /-- What was changed, the last change first. -/
  changes : List (Nat × FileChange) := []
  /-- What programs that run beside the others change later, the first change first. -/
  upcoming : List (Nat × FileChange) := []
  handles : Array Handle := #[]
  pipes : Array Pipe := #[]
  /-- What was written to the outlets, the last first. -/
  emissions : List Emission := []
  /-- The number of the process that comes next. -/
  nextProcess : Nat := 1000
  /-- How many more commands may be run before the program counts as one that never ends. -/
  patience : Nat := 200000
  posted : List Post := []
  /-- The numbers of the processes that are running. -/
  running : List Nat := []

namespace Machine

/-- The machine after a change of its files. -/
def change (m : Machine) (now : Nat) (c : FileChange) : Machine :=
  { m with files := c.apply m.files, changes := (now, c) :: m.changes }

/-- The machine after the changes that come up to a time. -/
def advance (m : Machine) (now : Nat) : Machine :=
  let (due, upcoming) := m.upcoming.partition fun c => c.1 ≤ now
  { m with files := due.foldl (fun t c => c.2.apply t) m.files, upcoming := upcoming }

/-- The machine in which only what happens up to `start` of all that has happened since `before` is
there; the rest comes later. -/
def postpone (m before : Machine) (start : Nat) : Machine :=
  let fresh := (m.changes.take (m.changes.length - before.changes.length)).reverse
  let (due, later) := fresh.partition fun c => c.1 ≤ start
  if later.isEmpty then m
  else
    { m with
      files := due.foldl (fun t c => c.2.apply t) before.files
      upcoming := (before.upcoming ++ later).mergeSort fun a b => a.1 ≤ b.1 }

/-- The machine with one more handle, and its number. -/
def addHandle (m : Machine) (h : Handle) : Nat × Machine :=
  (m.handles.size, { m with handles := m.handles.push h })

/-- The machine with one more pipe, and the numbers of a handle to write to it and one to read. -/
def addPipe (m : Machine) (content : List Parcel := []) : Nat × Nat × Machine :=
  let number := m.pipes.size
  let m := { m with pipes := m.pipes.push { arrived := content } }
  let (writing, m) := m.addHandle ⟨.pipe number, 0, false⟩
  let (reading, m) := m.addHandle ⟨.pipe number, 0, false⟩
  (writing, reading, m)

/-- The handle of a number. -/
def handle? (m : Machine) (number : Nat) : Option Handle :=
  m.handles[number]?

/-- What a descriptor of a process leads to. -/
def channel? (m : Machine) (p : Process) (fd : Nat) : Option Channel :=
  ((p.handle? fd).bind m.handle?).map (·.channel)

/-- The machine after the writers of a handle's pipe were done. -/
def closePipe (m : Machine) (handle now : Nat) : Machine :=
  match m.handle? handle with
  | some ⟨.pipe number, _, _⟩ =>
    { m with pipes := m.pipes.modify number fun p => { p with closedAt := max p.closedAt now } }
  | _ => m

/-- The content of the file at these names. -/
def contentAt (m : Machine) (names : List String) : List UInt8 :=
  match (FileTree.Place.mk m.files []).follow (names.map String.toList) with
  | .ok place =>
    match place.tree with
    | .file content _ => content
    | _ => []
  | .error _ => []

/-- Whether the file at these names can be run. -/
def isExecutableAt (m : Machine) (names : List String) : Bool :=
  match (FileTree.Place.mk m.files []).follow (names.map String.toList) with
  | .ok place =>
    match place.tree with
    | .file _ executable => executable
    | _ => false
  | .error _ => false

/-- The machine after bytes were written through a handle. -/
def writeTo (m : Machine) (number now : Nat) (bytes : List UInt8) : Machine :=
  match m.handle? number with
  | none => m
  | some h =>
    if bytes.isEmpty then m
    else
      match h.channel with
      | .void => m
      | .outlet s => { m with emissions := ⟨now, s, bytes⟩ :: m.emissions }
      | .pipe pipe =>
        { m with pipes := m.pipes.modify pipe fun p =>
            { p with incoming := ⟨now, bytes⟩ :: p.incoming, closedAt := max p.closedAt now } }
      | .file names =>
        let content := m.contentAt names
        let offset := if h.appends then content.length else h.offset
        let before := content.take offset
        let gap := List.replicate (offset - before.length) 0
        let after := content.drop (offset + bytes.length)
        let tree := FileTree.file (before ++ gap ++ bytes ++ after) (m.isExecutableAt names)
        let m := m.change now (.put names tree)
        { m with handles := m.handles.modify number fun h =>
            { h with offset := offset + bytes.length } }

/-- The machine after a process wrote to a descriptor; there may be none. -/
def write (m : Machine) (p : Process) (fd : Nat) (bytes : List UInt8) : Except FileFault Machine :=
  match p.handle? fd with
  | some number => .ok (m.writeTo number p.now bytes)
  | none => .error .badDescriptor

/-- What is there to be read through a handle, and when nothing more comes. -/
def pending (m : Machine) (number : Nat) : List Parcel × Nat :=
  match m.handle? number with
  | some ⟨.file names, offset, _⟩ => ([⟨0, (m.contentAt names).drop offset⟩], 0)
  | some ⟨.pipe pipe, _, _⟩ =>
    match m.pipes[pipe]? with
    | some p => (p.arrived ++ p.incoming.reverse, p.closedAt)
    | none => ([], 0)
  | _ => ([], 0)

/-- The parcels without their first bytes. -/
def dropBytes : Nat → List Parcel → List Parcel
  | _, [] => []
  | 0, parcels => parcels
  | count, parcel :: rest =>
    match parcel.bytes.drop count with
    | [] => dropBytes (count - parcel.bytes.length) rest
    | left => ⟨parcel.time, left⟩ :: rest

/-- The machine after so many bytes were read through a handle. -/
def consume (m : Machine) (number count : Nat) : Machine :=
  match m.handle? number with
  | some ⟨.file _, _, _⟩ =>
    { m with handles := m.handles.modify number fun h => { h with offset := h.offset + count } }
  | some ⟨.pipe pipe, _, _⟩ =>
    { m with pipes := m.pipes.modify pipe fun p =>
        { p with arrived := dropBytes count (p.arrived ++ p.incoming.reverse), incoming := [] } }
  | _ => m

/-- The line with which the parcels start, its end not included; when it was there; and whether it
has an end. -/
def lineOf (closedAt : Nat) : List Parcel → List UInt8 × Nat × Bool
  | [] => ([], closedAt, false)
  | parcel :: rest =>
    let line := parcel.bytes.takeWhile (· != 10)
    if !(parcel.bytes.drop line.length).isEmpty then (line, parcel.time, true)
    else
      let (more, time, ends) := lineOf closedAt rest
      (line ++ more, time, ends)

/-- The machine in which a handle leads to what a path leads to; a file is made where `makes` is
set, and emptied where `empties` is. -/
def openFile (m : Machine) (p : Process) (path : Path) (makes empties appends : Bool) :
    Except FileFault (Nat × Machine) := do
  match FileTree.find m.files p.directory path with
  | .ok (.directory _) =>
    if makes then throw .isDirectory
    let place ← FileTree.place m.files p.directory path
    return m.addHandle ⟨.file place.names, 0, false⟩
  | .ok (.utility _) => if makes then throw .denied else return m.addHandle ⟨.void, 0, false⟩
  | .ok (.file _ executable) =>
    let place ← FileTree.place m.files p.directory path
    let m := if empties then m.change p.now (.put place.names (.file [] executable)) else m
    return m.addHandle ⟨.file place.names, 0, appends⟩
  | .error .missing =>
    if !makes then throw .missing
    let (dir, name) ← FileTree.entryPlace m.files p.directory path
    if path.chars.getLast? == some '/' then throw .isDirectory
    let names := dir.names ++ [name]
    return (m.change p.now (.put names (.file [] false))).addHandle ⟨.file names, 0, appends⟩
  | .error fault => throw fault

end Machine

end LintGate
