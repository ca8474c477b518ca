import LintGate.Issue.Basic

/-!
Edit scripts: how a text came from a reference, as entries over the lines of both. A finding counts
as new when its line lies in a changed entry.
-/

namespace LintGate

/-- What happened to the lines of an entry. -/
inductive ChangeKind
  | equal
  | insert
  | delete
  | replace
  deriving DecidableEq, Repr

def ChangeKind.name : ChangeKind → String
  | .equal => "equal"
  | .insert => "insert"
  | .delete => "delete"
  | .replace => "replace"

/-- The numbers from `start` up to and without `stop`. -/
structure Span where
  start : Nat
  stop : Nat
  deriving DecidableEq, Repr

def Span.contains (s : Span) (index : Nat) : Bool :=
  s.start ≤ index && index < s.stop

/-- Lines of the reference and the lines that stand in their place, counted from 0. -/
structure EditEntry where
  old : Span
  new : Span
  kind : ChangeKind
  deriving DecidableEq, Repr

/-- Whether the entry changes this line of the new text. Lines that were taken away change the line
that follows them. -/
def EditEntry.covers (e : EditEntry) (index : Nat) : Bool :=
  match e.kind with
  | .equal => false
  | .insert | .replace => e.new.contains index
  | .delete => e.new.start == index

/-- The entries from the start of the texts to their end. -/
structure EditScript where
  entries : List EditEntry
  deriving DecidableEq, Repr

namespace EditScript

/-- Nothing differs. -/
def isUnchanged (s : EditScript) : Bool :=
  s.entries.all (·.kind == .equal)

/-- Whether a line of the new text, counted from 1, is changed. There is no line 0. -/
def isLineChanged (s : EditScript) (line : UInt32) : Bool :=
  match line.toNat with
  | 0 => false
  | index + 1 => s.entries.any (·.covers index)

/-- The findings on changed lines. -/
def retainChanged (s : EditScript) (issues : List Issue) : List Issue :=
  issues.filter fun i => s.isLineChanged i.line

end EditScript

end LintGate
