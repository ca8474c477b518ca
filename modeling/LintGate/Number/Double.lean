/-!
Finite binary64 numbers by their bits, and the nearest one to a decimal number.

A magnitude is `significand * 2 ^ exponent`. Read as a natural number, the 63 lower bits count the
doubles from zero upwards, so rounding up past a power of two needs no case of its own.
-/

namespace LintGate

/-- How many doubles have one sign and one exponent. -/
def Double.binade : Nat := Nat.pow 2 52

/-- How many bit patterns have one sign. -/
def Double.signBit : Nat := Nat.pow 2 63

/-- A finite binary64 number. -/
structure Double where
  bits : UInt64
  isFinite : bits.toNat % Double.signBit < 2047 * Double.binade
  deriving DecidableEq

namespace Double

/-- How many doubles lie between zero and the magnitude. -/
def rank (d : Double) : Nat :=
  d.bits.toNat % signBit

/-- Whether the sign bit is set. -/
def isNegative (d : Double) : Bool :=
  signBit ≤ d.bits.toNat

/-- The double of a given sign and rank, if that rank is one of a finite number. -/
def ofRank? (negative : Bool) (rank : Nat) : Option Double :=
  if rank < 2047 * binade then
    let bits := UInt64.ofNat ((if negative then signBit else 0) + rank)
    if finite : bits.toNat % signBit < 2047 * binade then some ⟨bits, finite⟩ else none
  else none

/-- The integer factor of the magnitude. -/
def significand (d : Double) : Nat :=
  if d.rank < binade then d.rank else binade + d.rank % binade

/-- The power of two by which the significand is scaled. -/
def exponent (d : Double) : Int :=
  max (d.rank / binade : Nat) 1 - 1075

/-- The quotient to the nearest integer, a tie going to the even one. -/
def roundQuotient (num den : Nat) : Nat :=
  let q := num / den
  let twice := 2 * (num % den)
  if twice < den then q
  else if den < twice then q + 1
  else q + q % 2

/-- The rank nearest to the positive quotient `num / den`, as if exponents had no upper limit. -/
def nearestRank (num den : Nat) : Nat :=
  let gap : Int := Nat.log2 num - Nat.log2 den
  let reaches :=
    if 0 ≤ gap then den * Nat.pow 2 gap.toNat ≤ num else den ≤ num * Nat.pow 2 (-gap).toNat
  let exponent : Int := max ((if reaches then gap else gap - 1) - 52) (-1074)
  let m :=
    if 0 ≤ exponent then roundQuotient num (den * Nat.pow 2 exponent.toNat)
    else roundQuotient (num * Nat.pow 2 (-exponent).toNat) den
  (exponent + 1074).toNat * binade + m

/-- The double nearest to `num / den * 2 ^ power`, if it is finite. -/
def ofQuotient? (negative : Bool) (num den : Nat) (power : Int) : Option Double :=
  if num = 0 then ofRank? negative 0
  else if 0 ≤ power then ofRank? negative (nearestRank (num * Nat.pow 2 power.toNat) den)
  else ofRank? negative (nearestRank num (den * Nat.pow 2 (-power).toNat))

/-- The magnitude of a product, rounded. -/
def times? (a b : Double) : Option Double :=
  ofQuotient? false (a.significand * b.significand) 1 (a.exponent + b.exponent)

/-- The magnitude of a quotient by a number other than zero, rounded. -/
def over? (a b : Double) : Option Double :=
  ofQuotient? false a.significand b.significand (a.exponent - b.exponent)

/-- The double of the same magnitude with the given sign. -/
def withSign? (negative : Bool) (d : Double) : Option Double :=
  ofRank? negative d.rank

/-- How many decimal digits a positive number has. -/
def digitCount (n : Nat) : Nat :=
  (Nat.toDigits 10 n).length

/-- The double nearest to `n * 10 ^ scale`, if it is finite. Powers of ten beyond the range of the
format are not computed. -/
def ofDecimal? (negative : Bool) (n : Nat) (scale : Int) : Option Double :=
  if n = 0 then ofRank? negative 0
  else
    let magnitude : Int := digitCount n + scale
    if 310 < magnitude then none
    else if magnitude < -330 then ofRank? negative 0
    else if 0 ≤ scale then ofQuotient? negative (n * Nat.pow 10 scale.toNat) 1 0
    else ofQuotient? negative n (Nat.pow 10 (-scale).toNat) 0

/-- The double nearest to a power of ten, if there is one. -/
def powerOfTen? (k : Nat) : Option Double :=
  ofDecimal? false 1 k

/-- Equality of numbers: the two zeros are equal. -/
def same (a b : Double) : Bool :=
  a.bits == b.bits || (a.rank == 0 && b.rank == 0)

/-- Whether the number has no fraction. -/
def isIntegral (d : Double) : Bool :=
  0 ≤ d.exponent || d.significand % Nat.pow 2 (-d.exponent).toNat == 0

/-- The value is at least one. -/
def atLeastOne (d : Double) : Bool :=
  !d.isNegative && 1023 * binade ≤ d.rank

end Double

end LintGate
