import LintGate.File.Tree
import LintGate.Tool

/-!
Traces: what a running program writes and which files it changes, and when, and how and when it
ends. Times are milliseconds since the program was started.
-/

namespace LintGate

/-- How a program ends. -/
inductive Ending
  | exited (code : Nat)
  | killed (signal : Nat)
  | never
  deriving DecidableEq, Repr

/-- Bytes that a program writes. -/
structure Emission where
  time : Nat
  target : Stream
  bytes : List UInt8
  deriving Repr

/-- A change of one entry of the file tree. -/
inductive FileChange
  | put (names : List String) (tree : FileTree)
  | erase (names : List String)

/-- The tree after a change. -/
def FileChange.apply (t : FileTree) : FileChange → FileTree
  | .put names new => t.put names new
  | .erase names => t.erase names

/-- What a program does. What it leaves running may go on after it has ended. -/
structure Trace where
  emissions : List Emission
  changes : List (Nat × FileChange)
  ending : Ending
  duration : Nat

namespace Trace

/-- All bytes written to a stream up to a time, in the order in which they are written. -/
def bytesTo (t : Trace) (target : Stream) (limit : Nat) : List UInt8 :=
  let own := t.emissions.filter fun e => e.target == target && e.time ≤ limit
  (own.mergeSort fun a b => a.time ≤ b.time).flatMap (·.bytes)

/-- The files after the changes up to a time. -/
def filesAt (t : Trace) (files : FileTree) (limit : Nat) : FileTree :=
  let due := t.changes.filter fun c => c.1 ≤ limit
  (due.mergeSort fun a b => a.1 ≤ b.1).foldl (fun files c => c.2.apply files) files

end Trace

end LintGate
