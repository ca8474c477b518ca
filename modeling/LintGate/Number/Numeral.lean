import LintGate.Number.Double
import LintGate.Text.Digits

/-!
Decimal numerals and the two ways in which one becomes a double: the nearest one, and the one found
by scaling, which takes one rounding for the digits and one for the power of ten.

Scaling looks at no more digits than 64 bits hold, so its result may be some units away from the
nearest double.
-/

namespace LintGate

/-- A decimal number as it is written. -/
structure Numeral where
  negative : Bool
  whole : List Char
  /-- The digits after the point, if there is one. -/
  fraction : Option (List Char)
  /-- The power of ten, if one is written. -/
  power : Option Int

namespace Numeral

/-- Whether the numeral has neither a fraction nor a power of ten. -/
def isWhole (n : Numeral) : Bool :=
  n.fraction.isNone && n.power.isNone

/-- The double nearest to the number, if it is finite. -/
def nearest? (n : Numeral) : Option Double :=
  let fraction := n.fraction.getD []
  Double.ofDecimal? n.negative (Text.ofDigits (n.whole ++ fraction))
    (n.power.getD 0 - fraction.length)

/-- The significand continued with the digits up to the first one that would take it beyond 64 bits,
and how many digits those are. -/
def gather (significand : Nat) : List Char → Nat × Nat
  | [] => (significand, 0)
  | c :: rest =>
    let next := significand * 10 + Text.digitValue c
    if next < UInt64.size then
      let (significand, count) := gather next rest
      (significand, count + 1)
    else (significand, 0)

/-- The leading digits as one integer of 64 bits, and the power of ten it stands for. The digits
before the point that were left out count as powers of ten; those after the point do not count. -/
def scaled (n : Numeral) : Nat × Int :=
  let (significand, kept) := gather 0 n.whole
  let dropped : Int := n.whole.length - kept
  let (significand, kept) := gather significand (n.fraction.getD [])
  (significand, dropped - kept + n.power.getD 0)

/-- The magnitude divided by `10 ^ k`, by at most 308 decades at a time. -/
def scaleDown? (d : Double) (k : Nat) : Option Double :=
  if k ≤ 308 then (Double.powerOfTen? k).bind d.over?
  else if d.rank = 0 then some d
  else do
    let power ← Double.powerOfTen? 308
    scaleDown? (← d.over? power) (k - 308)
termination_by k

/-- The magnitude multiplied by `10 ^ k`, if both numbers are finite. -/
def scaleUp? (d : Double) (k : Nat) : Option Double :=
  if d.rank = 0 then some d else (Double.powerOfTen? k).bind d.times?

/-- The double found by scaling, if it is finite. -/
def byScaling? (n : Numeral) : Option Double := do
  let (significand, scale) := n.scaled
  let d ← Double.ofQuotient? false significand 1 0
  let d ← if 0 ≤ scale then scaleUp? d scale.toNat else scaleDown? d (-scale).toNat
  d.withSign? n.negative

end Numeral

end LintGate
