import Scriptlet.Decimal

/-!
# How a decimal is written

A `Layout` holds the decisions of a number format: which magnitudes are written positionally and
whether a whole number keeps a fraction.
-/

namespace Scriptlet

/-- The decisions of a number format. -/
structure Layout where
  /-- The least exponent of a leading digit that is written positionally. -/
  leastPositional : Int
  /-- The greatest exponent of a leading digit that is written positionally. -/
  greatestPositional : Int
  /-- Whether a whole number that is written positionally ends in `.0`. -/
  wholeFraction : Bool
  /-- The least number of digits of an exponent. -/
  exponentDigits : Nat
  deriving DecidableEq, Repr

namespace Layout

/-- Drops the zeros at the end of a digit sequence, but never its first digit. -/
def significant : List Char → List Char
  | [] => []
  | first :: rest => first :: (rest.reverse.dropWhile (· == '0')).reverse

/-- Writes a decimal point after the digit of exponent zero. -/
def positional (layout : Layout) (digits : List Char) (leading : Int) : List Char :=
  if leading < 0 then
    '0' :: '.' :: List.replicate (-leading - 1).toNat '0' ++ digits
  else
    let whole := leading.toNat + 1
    let fraction := digits.drop whole
    let integer := digits.take whole ++ List.replicate (whole - digits.length) '0'
    if fraction.isEmpty then
      if layout.wholeFraction then integer ++ ['.', '0'] else integer
    else
      integer ++ '.' :: fraction

/-- Writes one digit before the point, then the power of ten. -/
def scientific (layout : Layout) (digits : List Char) (leading : Int) : List Char :=
  let point := if digits.length ≤ 1 then digits else digits.take 1 ++ '.' :: digits.drop 1
  let sign := if leading < 0 then '-' else '+'
  let power := Nat.toDigits 10 leading.natAbs
  point ++ 'e' :: sign :: List.replicate (layout.exponentDigits - power.length) '0' ++ power

/-- Writes a decimal. -/
def write (layout : Layout) (decimal : Decimal) : String :=
  let digits := Nat.toDigits 10 decimal.digits
  let leading := decimal.exponent + digits.length - 1
  let digits := significant digits
  String.ofList <|
    if layout.leastPositional ≤ leading ∧ leading ≤ layout.greatestPositional then
      layout.positional digits leading
    else
      layout.scientific digits leading

end Layout

end Scriptlet
