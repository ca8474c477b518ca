import LintGate.Number.Double
import LintGate.Text.Digits

/-!
The decimal text of a double: the fewest digits that read back, and of those the nearest to the
value. Numbers from 10^-5 up to but not including 10^16 are written positionally with at least one
digit after the point, all others with a power of ten.
-/

namespace LintGate.Double

/-- A positive number as `numerator / denominator`. -/
def fraction (d : Double) : Nat × Nat :=
  if 0 ≤ d.exponent then (d.significand * Nat.pow 2 d.exponent.toNat, 1)
  else (d.significand, Nat.pow 2 (-d.exponent).toNat)

/-- A decimal number `digits * 10 ^ scale`. -/
structure Decimal where
  digits : Nat
  scale : Int
  deriving DecidableEq, Repr

/-- The position of the leading digit of a positive number: 0 for the units. -/
def leadingPosition (d : Double) : Int :=
  let (num, den) := d.fraction
  (digitCount (num * Nat.pow 10 340 / den) : Int) - 341

/-- The two neighbours of the value among the multiples of `10 ^ scale`, the nearer one first and,
at the same distance, the even one. -/
def neighbours (d : Double) (scale : Int) : List Decimal :=
  let (num, den) := d.fraction
  let (num, den) :=
    if 0 ≤ scale then (num, den * Nat.pow 10 scale.toNat)
    else (num * Nat.pow 10 (-scale).toNat, den)
  let low := num / den
  let twice := 2 * (num % den)
  if twice < den ∨ (twice = den ∧ low % 2 = 0) then [⟨low, scale⟩, ⟨low + 1, scale⟩]
  else [⟨low + 1, scale⟩, ⟨low, scale⟩]

/-- Whether the decimal number is read as this magnitude. -/
def readsBack (d : Double) (n : Decimal) : Bool :=
  (ofDecimal? false n.digits n.scale).map (·.rank) == some d.rank

/-- The value itself: every double has a finite decimal expansion. -/
def exactDecimal (d : Double) : Decimal :=
  if 0 ≤ d.exponent then ⟨d.significand * Nat.pow 2 d.exponent.toNat, 0⟩
  else ⟨d.significand * Nat.pow 5 (-d.exponent).toNat, d.exponent⟩

/-- The shortest decimal number that reads back, nearest to the value among those of its length. -/
def shortest (d : Double) : Decimal :=
  let top := d.leadingPosition
  let grids := (List.range 17).map fun n : Nat => d.neighbours (top - (n : Int))
  (grids.findSome? fun pair => pair.find? d.readsBack).getD d.exactDecimal

/-- The digits without trailing zeros, and the position of the leading one. -/
def layout (n : Decimal) : List Char × Int :=
  let all := Text.digits n.digits
  let kept := (all.reverse.dropWhile (· = '0')).reverse
  (if kept.isEmpty then ['0'] else kept, n.scale + all.length - 1)

/-- Digits before and after the point, the leading digit at `top`. -/
def positional (shown : List Char) (top : Int) : List Char :=
  if top < 0 then "0.".toList ++ List.replicate (-top - 1).toNat '0' ++ shown
  else
    let whole := top.toNat + 1
    if shown.length ≤ whole then
      shown ++ List.replicate (whole - shown.length) '0' ++ ".0".toList
    else shown.take whole ++ '.' :: shown.drop whole

/-- One digit before the point, and a power of ten with its sign. -/
def scientific (shown : List Char) (top : Int) : List Char :=
  let power := 'e' :: (if top < 0 then '-' else '+') :: Text.digits top.natAbs
  match shown with
  | lead :: next :: more => lead :: '.' :: next :: more ++ power
  | _ => shown ++ power

/-- The text of a double. -/
def text (d : Double) : String :=
  let unsigned :=
    if d.rank = 0 then "0.0".toList
    else
      let (shown, top) := layout d.shortest
      if -5 ≤ top ∧ top ≤ 15 then positional shown top else scientific shown top
  String.ofList (if d.isNegative then '-' :: unsigned else unsigned)

/-- The bits as 16 hexadecimal digits. -/
def hex (d : Double) : String :=
  let found := Nat.toDigits 16 d.bits.toNat
  String.ofList (List.replicate (16 - found.length) '0' ++ found)

end LintGate.Double
