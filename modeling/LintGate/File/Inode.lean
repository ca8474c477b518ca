import LintGate.File.Fault
import LintGate.File.Tree

/-!
One name of a directory, and what it has led to. Taking a name away does not take away what it led
to: whoever has the file open goes on to write into it.
-/

namespace LintGate

/-- What a name can lead to. -/
inductive Inode
  | tree (t : FileTree)
  /-- A link to what lies at a path. -/
  | link (target : Path)

/-- Writes into an open file from its beginning, over what stands there. -/
def Inode.write (bytes : List UInt8) : Inode → Inode
  | .tree (.file content executable) =>
    .tree (.file (bytes ++ content.drop bytes.length) executable)
  | other => other

/-- The inodes of a disk, whether they have a name or not, and to which of them the name leads. -/
structure Disk where
  inodes : List Inode
  named : Option Nat
  named_lt : ∀ k ∈ named, k < inodes.length

namespace Disk

/-- A disk with no more than what the name leads to. -/
def ofEntry : Option Inode → Disk
  | none => ⟨[], none, nofun⟩
  | some inode => ⟨[inode], some 0, by simp⟩

/-- What the name leads to; a link is not followed. -/
def entry (d : Disk) : Option Inode :=
  d.named.bind (d.inodes[·]?)

/-- Creates an empty file for the name, but only where nothing has it. A link has it, wherever that
leads. -/
def create? (d : Disk) : Option (Nat × Disk) :=
  match d.named with
  | some _ => none
  | none =>
    some (d.inodes.length,
      ⟨d.inodes ++ [.tree (.ofText "")], some d.inodes.length, by simp⟩)

/-- Writes a text into an open file. -/
def write (d : Disk) (k : Nat) (text : String) : Disk where
  inodes := d.inodes.modify k (·.write (Text.Utf8.encode text))
  named := d.named
  named_lt := by simpa using d.named_lt

/-- Takes the name away from a file or a link. -/
def remove (d : Disk) : Except FileFault Disk :=
  match d.entry with
  | none => .error .missing
  | some (.tree (.directory _)) => .error .isDirectory
  | some _ => .ok { d with named := none, named_lt := nofun }

end Disk

end LintGate
