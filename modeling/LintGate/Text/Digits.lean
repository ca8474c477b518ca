import LintGate.Text.Blank

/-!
Numbers written with the digits `0` to `9`, and the line number field of a finding.
-/

namespace LintGate.Text

/-- The value of one decimal digit. -/
def digitValue (c : Char) : Nat :=
  c.toNat - 48

/-- The number a list of digits denotes, the most significant one first. -/
def ofDigits (cs : List Char) : Nat :=
  cs.foldl (fun value c => 10 * value + digitValue c) 0

/-- A non-empty run of digits as a number. -/
def natural? (cs : List Char) : Option Nat :=
  if !cs.isEmpty && cs.all Char.isDigit then some (ofDigits cs) else none

/-- The digits of a natural number, the most significant one first. -/
def digits (n : Nat) : List Char :=
  Nat.toDigits 10 n

/-- The value of a hexadecimal digit of either case. -/
def hexValue? (c : Char) : Option Nat :=
  let n := c.toNat
  if 48 ≤ n ∧ n ≤ 57 then some (n - 48)
  else if 97 ≤ n ∧ n ≤ 102 then some (n - 87)
  else if 65 ≤ n ∧ n ≤ 70 then some (n - 55)
  else none

/-- White space before a number. -/
def isNumberSpace (c : Char) : Bool :=
  c == ' ' || (9 ≤ c.toNat && c.toNat ≤ 13)

/-- The digits of a base at the start of a text as a number, and what follows them. -/
def leadingDigits? (base : Nat) (cs : List Char) : Option (Nat × List Char) :=
  let run := cs.takeWhile fun c => (hexValue? c).any (· < base)
  if run.isEmpty then none
  else some (run.foldl (fun n c => base * n + (hexValue? c).getD 0) 0, cs.drop run.length)

/-- The integer at the start of a text, after white space and with a sign or none, and what follows
it. Where `prefixed` is set, `0x` stands before hexadecimal digits and `0` before octal ones. -/
def leadingInteger? (prefixed : Bool) (cs : List Char) : Option (Int × List Char) :=
  let cs := cs.dropWhile isNumberSpace
  let (negative, cs) := match cs with
    | '-' :: rest => (true, rest)
    | '+' :: rest => (false, rest)
    | rest => (false, rest)
  let magnitude :=
    match prefixed, cs with
    | true, '0' :: 'x' :: rest => leadingDigits? 16 rest <|> some (0, 'x' :: rest)
    | true, '0' :: 'X' :: rest => leadingDigits? 16 rest <|> some (0, 'X' :: rest)
    | true, '0' :: rest => leadingDigits? 8 ('0' :: rest)
    | _, rest => leadingDigits? 10 rest
  magnitude.map fun (n, rest) => (if negative then -n else n, rest)

/-- A line number: digits after at most one plus sign, of a value below 2^32. -/
def lineNumber? (cs : List Char) : Option UInt32 := do
  let value ← natural? (if cs.head? = some '+' then cs.tail else cs)
  if value < UInt32.size then some (UInt32.ofNat value) else none

end LintGate.Text
