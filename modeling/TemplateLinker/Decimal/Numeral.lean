import TemplateLinker.Decimal.Shortest

/-!
# Decimal.Numeral — the text of a double-precision number

`Binary64.render` writes the shortest digits that read back, positionally for decimal exponents from
-5 to 15 and with an exponent beyond.  `Binary64.parse?` reads a decimal numeral as the nearest
number.
-/

namespace TemplateLinker.Binary64

/-- How a number is laid out. -/
structure Layout where
  /-- The least decimal exponent written positionally. -/
  positionalFrom : Int
  /-- The greatest decimal exponent written positionally. -/
  positionalTo : Int

/-- Positional notation from `0.00001` up to sixteen digits before the point. -/
def layout : Layout := ⟨-5, 15⟩

/-- `0.d…` with zeros before the digits, digits with zeros and `.0` behind them, or digits cut by a
point. -/
def positional (digits : List Char) (lead : Int) : List Char :=
  if lead < 0 then
    ['0', '.'] ++ List.replicate (-lead - 1).toNat '0' ++ digits
  else
    let whole := lead.toNat + 1
    if digits.length ≤ whole then
      digits ++ List.replicate (whole - digits.length) '0' ++ ['.', '0']
    else
      digits.take whole ++ ['.'] ++ digits.drop whole

/-- One digit, the others behind a point if there are any, and a signed exponent. -/
def scientific (digits : List Char) (lead : Int) : List Char :=
  let mantissa := match digits with
    | d :: e :: rest => d :: '.' :: e :: rest
    | _ => digits
  mantissa ++ ['e', if lead < 0 then '-' else '+'] ++ Nat.toDigits 10 lead.natAbs

/-- The digits without the zeros at their end. -/
def trimZeros (digits : List Char) : List Char := (digits.reverse.dropWhile (· == '0')).reverse

def renderMagnitude (x : Binary64) : List Char :=
  if x.significand = 0 then
    ['0', '.', '0']
  else
    let d := x.shortest
    let all := Nat.toDigits 10 d.digits
    let lead : Int := d.exponent + all.length - 1
    let digits := trimZeros all
    if layout.positionalFrom ≤ lead ∧ lead ≤ layout.positionalTo then positional digits lead
    else scientific digits lead

/-- The text of a finite number. -/
def render (x : Binary64) : List Char :=
  if x.negative then '-' :: x.renderMagnitude else x.renderMagnitude

/-! ### Reading -/

def digitValue (c : Char) : Nat := c.toNat - '0'.toNat

/-- The number that a run of decimal digits writes. -/
def naturalOf (digits : List Char) : Nat := digits.foldl (fun n c => 10 * n + digitValue c) 0

/-- The number nearest to a decimal; exponents far outside the range are not raised to a power. -/
def nearest (negative : Bool) (digits : Nat) (exponent : Int) : Binary64 :=
  let lead := exponent + digitCount digits
  if digits = 0 ∨ lead < -330 then zero negative
  else if 310 < lead then infinity negative
  else ofDecimal negative ⟨digits, exponent⟩

/-- An exponent `e`, an optional sign and digits, or nothing. -/
def exponentOf? : List Char → Option Int
  | [] => some 0
  | c :: rest =>
    if c = 'e' ∨ c = 'E' then
      let (negative, digits) := match rest with
        | '-' :: ds => (true, ds)
        | '+' :: ds => (false, ds)
        | ds => (false, ds)
      if digits ≠ [] ∧ digits.all Char.isDigit then
        some (if negative then -naturalOf digits else naturalOf digits)
      else none
    else none

def unsigned? (negative : Bool) (s : List Char) : Option Binary64 :=
  let whole := s.takeWhile Char.isDigit
  let (fraction, rest) := match s.dropWhile Char.isDigit with
    | '.' :: r => (r.takeWhile Char.isDigit, r.dropWhile Char.isDigit)
    | r => ([], r)
  if whole = [] ∧ fraction = [] then none
  else (exponentOf? rest).map fun e =>
    nearest negative (naturalOf (whole ++ fraction)) (e - fraction.length)

/-- Reads a decimal numeral, `NaN`, `inf` or `-inf`. -/
def parse? (s : List Char) : Option Binary64 :=
  match s with
  | ['N', 'a', 'N'] => some nan
  | ['i', 'n', 'f'] => some (infinity false)
  | ['-', 'i', 'n', 'f'] => some (infinity true)
  | '-' :: r => unsigned? true r
  | '+' :: r => unsigned? false r
  | r => unsigned? false r

end TemplateLinker.Binary64
