import LintGate.Text.Utf8

/-!
Octet strings: texts of which each character stands for one byte. Programs see their arguments,
their files and each other's output as octets; only names of files are texts.
-/

namespace LintGate.Text.Octets

/-- The octets that are these bytes. -/
def ofBytes (bytes : List UInt8) : List Char :=
  bytes.map fun b => Char.ofNat b.toNat

/-- The bytes that these octets are. -/
def toBytes (cs : List Char) : List UInt8 :=
  cs.map fun c => UInt8.ofNat c.toNat

/-- The octets of a text. -/
def ofText (s : String) : String :=
  String.ofList (ofBytes (Utf8.encode s))

/-- The text of octets, with replacement characters where they are no UTF-8. -/
def toText (s : String) : String :=
  Utf8.decodeLossy (toBytes s.toList)

/-- The bytes of octets. -/
def bytes (s : String) : List UInt8 :=
  toBytes s.toList

end LintGate.Text.Octets
