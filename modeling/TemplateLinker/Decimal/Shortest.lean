import TemplateLinker.Decimal.Binary64

/-!
# Decimal.Shortest — the fewest decimal digits that read back

The two neighbours of a number on the grid of `n`-digit decimals are tried for `n = 1, 2, …, 17`;
the first grid on which one of them rounds to the number wins, of two that do the nearer, and an
exact tie goes to the even one.  Whatever is found has been read back (`readsBack`), so two numbers
never share their digits.
-/

namespace TemplateLinker.Binary64

/-- A decimal magnitude `digits * 10 ^ exponent`. -/
structure Decimal where
  digits : Nat
  exponent : Int
  deriving DecidableEq, Repr

/-- The number nearest to a decimal. -/
def ofDecimal (negative : Bool) (d : Decimal) : Binary64 :=
  if 0 ≤ d.exponent then ofRatio negative (d.digits * Nat.pow 10 d.exponent.toNat) 1
  else ofRatio negative d.digits (Nat.pow 10 (-d.exponent).toNat)

def digitCount (n : Nat) : Nat := (Nat.toDigits 10 n).length

/-- The greatest `e` with `10 ^ e ≤ num / den`. -/
def leadingExponent (num den : Nat) : Int :=
  if den ≤ num then (digitCount (num / den) : Int) - 1
  else -(digitCount ((den - 1) / num) : Int)

def readsBack (x : Binary64) (d : Decimal) : Bool := ofDecimal x.negative d == x

/-- Of the neighbours of `num / den`, the magnitude of `x`, among the multiples of `10 ^ k`, the
one that rounds to `x`. -/
def gridPoint? (x : Binary64) (num den : Nat) (k : Int) : Option Decimal :=
  let (n, d) :=
    if 0 ≤ k then (num, den * Nat.pow 10 k.toNat) else (num * Nat.pow 10 (-k).toNat, den)
  let below : Decimal := ⟨n / d, k⟩
  let above : Decimal := ⟨n / d + 1, k⟩
  match readsBack x below, readsBack x above with
  | true, true => some ⟨roundDiv n d, k⟩
  | true, false => some below
  | false, true => some above
  | false, false => none

/-- All digits of a finite number. -/
def exactDecimal (x : Binary64) : Decimal :=
  if 0 ≤ x.exponent then ⟨x.significand * Nat.pow 2 x.exponent.toNat, 0⟩
  else ⟨x.significand * Nat.pow 5 (-x.exponent).toNat, x.exponent⟩

/-- The shortest decimal that rounds to a finite number other than zero. -/
def shortest (x : Binary64) : Decimal :=
  let (num, den) := x.toRatio
  let lead := leadingExponent num den
  ((List.range 17).findSome? fun n : Nat => gridPoint? x num den (lead - n)).getD x.exactDecimal

end TemplateLinker.Binary64
