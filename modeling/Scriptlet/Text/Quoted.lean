import Scriptlet.Text.Printable

/-!
# Quoted strings

A string is quoted with single quotes, or with double quotes if it holds a single quote and no
double one. The quote and the backslash are escaped by a backslash. Newline, tab and carriage
return have letters of their own after the backslash, and other characters that cannot be shown
are written as their code.
-/

namespace Scriptlet.Text

/-- The quote to write a string with. -/
def quoteFor (text : List Char) : Char :=
  if text.contains '\'' && !text.contains '"' then '"' else '\''

/-- A number in hexadecimal, with at least `width` digits. -/
def hex (width number : Nat) : List Char :=
  let digits := Nat.toDigits 16 number
  List.replicate (width - digits.length) '0' ++ digits

/-- The code of a character after a backslash. -/
def escapedCode (character : Char) : List Char :=
  let code := character.toNat
  if code ≤ 0xff then '\\' :: 'x' :: hex 2 code
  else if code ≤ 0xffff then '\\' :: 'u' :: hex 4 code
  else '\\' :: 'U' :: hex 8 code

/-- A character within a quoted string. -/
def escaped (quote character : Char) : List Char :=
  if character = quote ∨ character = '\\' then ['\\', character]
  else if character = '\n' then ['\\', 'n']
  else if character = '\t' then ['\\', 't']
  else if character = '\r' then ['\\', 'r']
  else if isPrintable character then [character]
  else escapedCode character

/-- A string in quotes. -/
def quoted (text : String) : String :=
  let quote := quoteFor text.toList
  String.ofList (quote :: text.toList.flatMap (escaped quote) ++ [quote])

end Scriptlet.Text
