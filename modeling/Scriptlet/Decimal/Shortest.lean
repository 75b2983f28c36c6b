import Scriptlet.Decimal

/-!
# The shortest decimal that reads back

A positive double stands for an interval of numbers, those that round to it. `shortest` looks for
a decimal of the fewest digits in that interval and, of two with equally many digits, takes the
one nearer to the double.
-/

namespace Scriptlet

/--
The numbers that round to a double, in units of `2 ^ power`: those between `low` and `high`, the
ends included when `closed`. The double itself is `centre`.
-/
structure Span where
  low : Nat
  centre : Nat
  high : Nat
  power : Int
  closed : Bool
  deriving DecidableEq, Repr

namespace Span

/--
The interval of the double `mantissa * 2 ^ exponent`. It reaches half way to both neighbours; the
lower neighbour of a power of two is only half as far away as the upper one. A number half way
between two doubles rounds to the one with the even mantissa.
-/
def around (mantissa : Nat) (exponent : Int) : Span where
  low :=
    if mantissa = Binary.hiddenBit ∧ Binary.leastExponent < exponent then 4 * mantissa - 1
    else 4 * mantissa - 2
  centre := 4 * mantissa
  high := 4 * mantissa + 2
  power := exponent - 2
  closed := mantissa % 2 = 0

/-- The factor that turns units of `2 ^ power` into a common unit with multiples of `10 ^ scale`. -/
def binaryUnit (span : Span) (scale : Int) : Nat :=
  Nat.pow 2 span.power.toNat * Nat.pow 10 (-scale).toNat

/-- The factor that turns multiples of `10 ^ scale` into the same common unit. -/
def decimalUnit (span : Span) (scale : Int) : Nat :=
  Nat.pow 10 scale.toNat * Nat.pow 2 (-span.power).toNat

/-- Whether a decimal lies in the interval. -/
def contains (span : Span) (decimal : Decimal) : Bool :=
  let value := decimal.digits * span.decimalUnit decimal.exponent
  let low := span.low * span.binaryUnit decimal.exponent
  let high := span.high * span.binaryUnit decimal.exponent
  if span.closed then low ≤ value ∧ value ≤ high else low < value ∧ value < high

/-- The centre written out in full. -/
def exact (span : Span) : Decimal :=
  if 0 ≤ span.power then ⟨span.centre * Nat.pow 2 span.power.toNat, 0⟩
  else ⟨span.centre * Nat.pow 5 (-span.power).toNat, span.power⟩

/--
The multiple of `10 ^ scale` in the interval that is nearest to the centre, the even one of two
equally near. Only the two multiples next to the centre are looked at.
-/
def nearest? (span : Span) (scale : Int) : Option Decimal :=
  let centre := span.centre * span.binaryUnit scale
  let unit := span.decimalUnit scale
  let below := centre / unit
  let lower : Decimal := ⟨below, scale⟩
  let upper : Decimal := ⟨below + 1, scale⟩
  match span.contains lower, span.contains upper with
  | false, false => none
  | true, false => some lower
  | false, true => some upper
  | true, true =>
    let twice := 2 * (centre - below * unit)
    if twice < unit ∨ (twice = unit ∧ below % 2 = 0) then some lower else some upper

/-- The exponent of the centre's leading decimal digit. -/
def leadingExponent (span : Span) : Int :=
  let top := span.centre * Nat.pow 2 span.power.toNat
  let bottom := Nat.pow 2 (-span.power).toNat
  if bottom ≤ top then ((Nat.toDigits 10 (top / bottom)).length : Int) - 1
  else -((Nat.toDigits 10 (bottom / top)).length : Int)

/-- Tries ever finer scales, and at last the centre itself. -/
def search (span : Span) : Nat → Int → Decimal
  | 0, _ => span.exact
  | attempts + 1, scale =>
    match span.nearest? scale with
    | some decimal => decimal
    | none => span.search attempts (scale - 1)

end Span

/--
The decimal of fewest digits that rounds to the positive double `mantissa * 2 ^ exponent`.
Seventeen digits always suffice.
-/
def Decimal.shortest (mantissa : Nat) (exponent : Int) : Decimal :=
  let span := Span.around mantissa exponent
  span.search 17 span.leadingExponent

end Scriptlet
