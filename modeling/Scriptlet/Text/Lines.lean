/-!
# Lines and blanks of a text

A line ends at a newline, a carriage return, both together, or one of the characters that Unicode
and ASCII set aside for ending lines, pages and records. The text after the last of them is a line
only if it is not empty. Blanks are the characters that Unicode counts as white space, and the
separators of ASCII.
-/

namespace Scriptlet.Text

/-- The characters that end a line. -/
def lineEnds : List Char :=
  ['\n', '\r', '\x0b', '\x0c', '\x1c', '\x1d', '\x1e', '\u0085', '\u2028', '\u2029']

/-- Puts the lines of a text, whose first line begins with `begun`, after those already found. -/
def linesOnto (found : List String) (begun : List Char) : List Char → List String
  | [] =>
    if begun.isEmpty then found.reverse else (String.ofList begun.reverse :: found).reverse
  | '\r' :: '\n' :: rest => linesOnto (String.ofList begun.reverse :: found) [] rest
  | character :: rest =>
    if character ∈ lineEnds then linesOnto (String.ofList begun.reverse :: found) [] rest
    else linesOnto found (character :: begun) rest

/-- The lines of a text, without what ends them. -/
def lines (text : String) : List String :=
  linesOnto [] [] text.toList

/-- Puts a text with plain newlines after what was already found. -/
def plainNewlinesOnto (found : List Char) : List Char → List Char
  | [] => found.reverse
  | '\r' :: '\n' :: rest => plainNewlinesOnto ('\n' :: found) rest
  | character :: rest =>
    plainNewlinesOnto ((if character = '\r' then '\n' else character) :: found) rest

/-- Ends every line with a newline that ends with a carriage return, or with both. -/
def plainNewlines (text : List Char) : List Char :=
  plainNewlinesOnto [] text

/-- The ranges of blank characters, both ends included. -/
def blankRanges : List (Nat × Nat) :=
  [(0x9, 0xd), (0x1c, 0x20), (0x85, 0x85), (0xa0, 0xa0), (0x1680, 0x1680), (0x2000, 0x200a),
    (0x2028, 0x2029), (0x202f, 0x202f), (0x205f, 0x205f), (0x3000, 0x3000)]

/-- Whether a character is blank. -/
def isBlank (character : Char) : Bool :=
  blankRanges.any fun (first, last) => first ≤ character.toNat && character.toNat ≤ last

/-- A text without the blanks at its ends. -/
def strip (text : List Char) : List Char :=
  ((text.dropWhile isBlank).reverse.dropWhile isBlank).reverse

end Scriptlet.Text
