import Scriptlet.Text.Lines

/-!
# Integers

An integer is written as decimal digits of any script, with an optional sign before them, single
underscores between them, and blanks around them.
-/

namespace Scriptlet.Text

/-- The zeros of the scripts that have decimal digits; the other nine digits follow each. -/
def zeros : List Nat :=
  [0x30, 0x660, 0x6f0, 0x7c0, 0x966, 0x9e6, 0xa66, 0xae6, 0xb66, 0xbe6, 0xc66, 0xce6, 0xd66, 0xde6,
    0xe50, 0xed0, 0xf20, 0x1040, 0x1090, 0x17e0, 0x1810, 0x1946, 0x19d0, 0x1a80, 0x1a90, 0x1b50,
    0x1bb0, 0x1c40, 0x1c50, 0xa620, 0xa8d0, 0xa900, 0xa9d0, 0xa9f0, 0xaa50, 0xabf0, 0xff10, 0x104a0,
    0x10d30, 0x11066, 0x110f0, 0x11136, 0x111d0, 0x112f0, 0x11450, 0x114d0, 0x11650, 0x116c0,
    0x11730, 0x118e0, 0x11950, 0x11c50, 0x11d50, 0x11da0, 0x16a60, 0x16ac0, 0x16b50, 0x1d7ce,
    0x1d7d8, 0x1d7e2, 0x1d7ec, 0x1d7f6, 0x1e140, 0x1e2f0, 0x1e950, 0x1fbf0]

/-- The value of a decimal digit. -/
def digit? (character : Char) : Option Nat :=
  (zeros.find? fun first => first ≤ character.toNat && character.toNat < first + 10).map
    (character.toNat - ·)

/-- The values of digits with single underscores between them; there has to be a digit. -/
def digits? : List Char → Option (List Nat)
  | [] => none
  | [last] => (digit? last).map ([·])
  | first :: '_' :: rest => do return (← digit? first) :: (← digits? rest)
  | first :: rest => do return (← digit? first) :: (← digits? rest)

/-- The greatest number of digits of an integer. -/
def maxIntegerDigits : Nat := 4300

/-- The number that digits stand for. -/
def natural? (text : List Char) : Option Nat := do
  let digits ← digits? text
  guard (digits.length ≤ maxIntegerDigits)
  return digits.foldl (fun number digit => 10 * number + digit) 0

/-- The integer that a text stands for. -/
def integer? (text : String) : Option Int :=
  match strip text.toList with
  | '-' :: rest => (natural? rest).map fun number => -(number : Int)
  | '+' :: rest => (natural? rest).map fun number => (number : Int)
  | rest => (natural? rest).map fun number => (number : Int)

end Scriptlet.Text
