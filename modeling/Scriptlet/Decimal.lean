/-!
# Decimals and binary floating-point numbers

A `Decimal` is a natural number scaled by a power of ten. `Binary` gives the exact value of a
double: a natural mantissa scaled by a power of two, with its sign, or one of the special values.
-/

namespace Scriptlet

/-- The number `digits * 10 ^ exponent`. -/
structure Decimal where
  digits : Nat
  exponent : Int
  deriving DecidableEq, Repr

/-- What the bits of a double stand for. -/
inductive Binary where
  | notANumber
  | infinite (negative : Bool)
  /-- The number `mantissa * 2 ^ exponent`, negated if `negative`. -/
  | finite (negative : Bool) (mantissa : Nat) (exponent : Int)
  deriving DecidableEq, Repr

namespace Binary

/-- The exponent of the least positive double. -/
def leastExponent : Int := -1074

/-- The mantissa at which a double's exponent grows by one. -/
def hiddenBit : Nat := 0x10000000000000

/-- Reads sign, biased exponent and fraction off a double. -/
def ofFloat (number : Float) : Binary :=
  let bits := number.toBits.toNat
  let negative := decide (0x8000000000000000 ≤ bits)
  let biased : Nat := bits / hiddenBit % 0x800
  let fraction := bits % hiddenBit
  if biased = 0x7ff then
    if fraction = 0 then .infinite negative else .notANumber
  else if biased = 0 then
    .finite negative fraction leastExponent
  else
    .finite negative (hiddenBit + fraction) (leastExponent + ((biased - 1 : Nat) : Int))

end Binary

end Scriptlet
