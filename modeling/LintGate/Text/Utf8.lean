/-!
UTF-8: the bytes of a text, and the text of any bytes. `decodeLossy` never fails: each maximal run
of bytes that begins a character and does not end it becomes one replacement character.
-/

namespace LintGate.Text.Utf8

/-- The bytes of a text. -/
def encode (s : String) : List UInt8 :=
  s.toList.flatMap String.utf8EncodeChar

/-- Where the decoder stands between two bytes: at the start of a character, or owing `owed + 1`
more bytes of which the next lies in `low … high`, with the bits read so far in `bits`. -/
inductive Position
  | start
  | inside (owed bits low high : Nat)
  deriving DecidableEq, Repr

/-- The position after a byte at the start of a character, and what that byte alone yields: a
character, an invalid sequence (`some none`), or nothing yet. -/
def first (b : Nat) : Option (Option Char) × Position :=
  if b < 0x80 then (some (some (Char.ofNat b)), .start)
  else if b < 0xC2 then (some none, .start)
  else if b < 0xE0 then (none, .inside 0 (b - 0xC0) 0x80 0xBF)
  else if b < 0xF0 then
    (none, .inside 1 (b - 0xE0) (if b = 0xE0 then 0xA0 else 0x80) (if b = 0xED then 0x9F else 0xBF))
  else if b < 0xF5 then
    (none, .inside 2 (b - 0xF0) (if b = 0xF0 then 0x90 else 0x80) (if b = 0xF4 then 0x8F else 0xBF))
  else (some none, .start)

/-- The characters of the bytes, `none` for each maximal invalid sequence. -/
def decodeFrom : Position → List UInt8 → List (Option Char)
  | .start, [] => []
  | .inside .., [] => [none]
  | .start, byte :: rest =>
    match first byte.toNat with
    | (some found, next) => found :: decodeFrom next rest
    | (none, next) => decodeFrom next rest
  | .inside owed bits low high, byte :: rest =>
    let b := byte.toNat
    if low ≤ b ∧ b ≤ high then
      let bits := 64 * bits + (b - 0x80)
      match owed with
      | 0 => some (Char.ofNat bits) :: decodeFrom .start rest
      | owed + 1 => decodeFrom (.inside owed bits 0x80 0xBF) rest
    else
      match first b with
      | (some found, next) => none :: found :: decodeFrom next rest
      | (none, next) => none :: decodeFrom next rest

/-- The text of bytes that are valid UTF-8. -/
def decode? (bytes : List UInt8) : Option String :=
  ((decodeFrom .start bytes).mapM id).map String.ofList

/-- The text of any bytes, with U+FFFD for each maximal invalid sequence. -/
def decodeLossy (bytes : List UInt8) : String :=
  String.ofList ((decodeFrom .start bytes).map (·.getD '\uFFFD'))

end LintGate.Text.Utf8
