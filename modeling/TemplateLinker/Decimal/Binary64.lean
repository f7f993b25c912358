/-!
# Decimal.Binary64 — double-precision numbers, in exact integer arithmetic

A number is a sign and a magnitude code below `2 ^ 63`: the top eleven bits are the exponent field,
the other 52 the fraction, so the codes are ordered as the magnitudes are.  A finite number stands
for `significand * 2 ^ exponent`.  `ofRatio` rounds a quotient of natural numbers to the nearest
number, a half going to the even neighbour; `mul` and `div` are the exact results rounded once.
-/

namespace TemplateLinker

structure Binary64 where
  negative : Bool
  magnitude : Fin 0x8000000000000000
  deriving DecidableEq

namespace Binary64

/-- `2 ^ 52`, the number of fractions: from here on a significand has a leading bit. -/
def fractions : Nat := 0x10000000000000

/-- The magnitude of the infinities; what lies above it is no number. -/
def infinityMagnitude : Nat := 0x7FF0000000000000

def isFinite (x : Binary64) : Bool := x.magnitude.val < infinityMagnitude

/-- The number with a code, codes above infinity's taken for infinity. -/
def ofMagnitude (negative : Bool) (code : Nat) : Binary64 :=
  ⟨negative, ⟨min code infinityMagnitude, by unfold infinityMagnitude; omega⟩⟩

def zero (negative : Bool) : Binary64 := ofMagnitude negative 0

def infinity (negative : Bool) : Binary64 := ofMagnitude negative infinityMagnitude

def nan : Binary64 := ⟨false, ⟨0x7FF8000000000000, by omega⟩⟩

/-- The fraction below the leading bit, if the code is large enough to have one. -/
def significand (x : Binary64) : Nat :=
  if x.magnitude.val < fractions then x.magnitude.val
  else fractions + x.magnitude.val % fractions

def exponent (x : Binary64) : Int := (max (x.magnitude.val / fractions) 1 : Nat) - 1075

def neg (x : Binary64) : Binary64 := { x with negative := !x.negative }

/-- Equality of the numbers: the zeros are equal. -/
def same (x y : Binary64) : Bool := x == y || (x.magnitude.val == 0 && y.magnitude.val == 0)

/-! ### Rounding -/

/-- The natural number nearest to `num / den`, a half going to the even neighbour. -/
def roundDiv (num den : Nat) : Nat :=
  let q := num / den
  let r := num % den
  if 2 * r < den then q else if den < 2 * r then q + 1 else q + q % 2

/-- The quotient `num / den / 2 ^ unit` as numerator and denominator. -/
def inUnits (num den : Nat) (unit : Int) : Nat × Nat :=
  if 0 ≤ unit then (num, den * Nat.pow 2 unit.toNat) else (num * Nat.pow 2 (-unit).toNat, den)

/-- The unit in which `num / den` has 53 bits before the point, at least the smallest one. -/
def unitOf (num den : Nat) : Int :=
  let low : Int := (Nat.log2 num : Int) - (Nat.log2 den : Int) - 53
  let (n, d) := inUnits num den low
  max (-1074) (if n < 2 * fractions * d then low else low + 1)

/-- The number nearest to `num / den`; what is too large for a finite one is infinity. -/
def ofRatio (negative : Bool) (num den : Nat) : Binary64 :=
  if num = 0 then
    zero negative
  else
    let unit := unitOf num den
    let (n, d) := inUnits num den unit
    ofMagnitude negative ((unit + 1074).toNat * fractions + roundDiv n d)

def ofNat (n : Nat) : Binary64 := ofRatio false n 1

/-- The number nearest to `num / den * 2 ^ shift`. -/
def ofScaledRatio (negative : Bool) (num den : Nat) (shift : Int) : Binary64 :=
  if 0 ≤ shift then ofRatio negative (num * Nat.pow 2 shift.toNat) den
  else ofRatio negative num (den * Nat.pow 2 (-shift).toNat)

/-- The product of two finite numbers. -/
def mul (x y : Binary64) : Binary64 :=
  ofScaledRatio (x.negative != y.negative) (x.significand * y.significand) 1
    (x.exponent + y.exponent)

/-- The quotient of two finite numbers, the second not zero. -/
def div (x y : Binary64) : Binary64 :=
  ofScaledRatio (x.negative != y.negative) x.significand y.significand (x.exponent - y.exponent)

/-- The magnitude of a finite number as a quotient of natural numbers. -/
def toRatio (x : Binary64) : Nat × Nat :=
  if 0 ≤ x.exponent then (x.significand * Nat.pow 2 x.exponent.toNat, 1)
  else (x.significand, Nat.pow 2 (-x.exponent).toNat)

example : ofRatio false 1 10 = ⟨false, 0x3FB999999999999A⟩ := by decide
example : ofRatio true 3 2 = ⟨true, 0x3FF8000000000000⟩ := by decide
example : ofRatio false 1 (2 ^ 1075) = zero false := by decide +kernel
example : ofRatio false 3 (2 ^ 1075) = ⟨false, 2⟩ := by decide +kernel
example : ofRatio false (2 ^ 1024 - 2 ^ 970) 1 = infinity false := by decide +kernel
example : ofNat (2 ^ 53 + 1) = ofNat (2 ^ 53) := by decide

end Binary64

end TemplateLinker
