/-!
Devices: names of files that are no files.
-/

namespace LintGate

inductive Device
  /-- Nothing is read from it, and what is written to it is lost. -/
  | void
  /-- Zeros without an end are read from it. -/
  | zeros
  deriving DecidableEq, Repr

namespace Device

/-- The device that a name stands for. -/
def ofName? (name : String) : Option Device :=
  if name == "/dev/null" then some .void
  else if name == "/dev/zero" then some .zeros
  else none

/-- How many zeros are read where they have no end. -/
def manyZeros : Nat :=
  Nat.pow 2 20

/-- What is read from a device. -/
def content : Device → List UInt8
  | .void => []
  | .zeros => List.replicate manyZeros 0

/-- Whether a reader of it comes to no end. -/
def isEndless (name : String) : Bool :=
  ofName? name == some .zeros

end Device

end LintGate
