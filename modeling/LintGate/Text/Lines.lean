import LintGate.Text.Utf8

/-!
Lines of bytes. A line ends at a line feed; the last one may go without.
-/

namespace LintGate.Text

/-- The byte of a line feed. -/
def lineFeed : UInt8 := 10

/-- The byte of a carriage return. -/
def carriageReturn : UInt8 := 13

/-- The lines of the bytes, without their line feeds. -/
def byteLines (bytes : List UInt8) : List (List UInt8) :=
  let pieces := bytes.splitOn lineFeed
  if pieces.getLast? == some [] then pieces.dropLast else pieces

/-- A line without the carriage return before its line feed. -/
def withoutReturn (line : List UInt8) : List UInt8 :=
  if line.getLast? == some carriageReturn then line.dropLast else line

/-- The lines as texts, up to the first that is not UTF-8. -/
def textLines (bytes : List UInt8) : List String :=
  (((byteLines bytes).map fun line => Utf8.decode? (withoutReturn line)).takeWhile
    Option.isSome).filterMap id

end LintGate.Text
