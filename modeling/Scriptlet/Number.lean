import Scriptlet.Decimal.Layout
import Scriptlet.Decimal.Shortest

/-!
# Numbers of the language

Every number of the language is a double. It is written with the fewest digits that read back to
it, positionally from one ten-thousandth up to sixteen integer digits and with an exponent outside
that range.
-/

namespace Scriptlet

namespace Number

/-- The format of numbers in full: a whole number keeps its fraction. -/
def fullLayout : Layout where
  leastPositional := -4
  greatestPositional := 15
  wholeFraction := true
  exponentDigits := 2

/-- The format of printed numbers: a whole number is written without a fraction. -/
def printLayout : Layout := { fullLayout with wholeFraction := false }

/-- Writes a double in a given format. -/
def write (layout : Layout) (number : Float) : String :=
  match Binary.ofFloat number with
  | .notANumber => "nan"
  | .infinite negative => if negative then "-inf" else "inf"
  | .finite negative mantissa exponent =>
    let decimal := if mantissa = 0 then ⟨0, 0⟩ else Decimal.shortest mantissa exponent
    let digits := layout.write decimal
    if negative then "-" ++ digits else digits

/-- The text of a number in full, as in `3.0`. -/
def fullText : Float → String := write fullLayout

/-- The text of a number when it is printed, as in `3`. -/
def text : Float → String := write printLayout

/-- The natural number that a sequence of decimal digits stands for. -/
def ofDigits (digits : List Char) : Nat :=
  digits.foldl (fun number digit => 10 * number + (digit.toNat - '0'.toNat)) 0

/-- The double nearest to a number written as digits, or as digits, a point and digits. -/
def ofLexeme (lexeme : List Char) : Float :=
  let whole := lexeme.takeWhile (· ≠ '.')
  let fraction := (lexeme.dropWhile (· ≠ '.')).drop 1
  Float.ofScientific (ofDigits (whole ++ fraction)) true fraction.length

end Number

end Scriptlet
