import Scriptlet.Token

/-!
# Segments of a program text

`Segment.cut` cuts a text into segments: lexemes of tokens, blanks, newlines, comments, characters
that can begin nothing, and a string that is never closed. Every segment is as long as it can be,
and the segments together are the text.
-/

namespace Scriptlet

/-- A piece of program text that is read as a whole. -/
inductive Segment where
  /-- The lexeme of a token of the given kind. -/
  | token (kind : Token.Kind) (lexeme : List Char)
  /-- A space, carriage return or tab. -/
  | blank (character : Char)
  | newline
  /-- Two slashes and all that follows them on the line. -/
  | comment (body : List Char)
  /-- A character that can begin no other segment. -/
  | unexpected (character : Char)
  /-- A quote without a later quote, and all that follows it. -/
  | unterminated (body : List Char)
  deriving DecidableEq, Repr

namespace Segment

/-- The characters of a segment. -/
def text : Segment → List Char
  | token _ lexeme => lexeme
  | blank character => [character]
  | newline => ['\n']
  | comment body => '/' :: '/' :: body
  | unexpected character => [character]
  | unterminated body => '"' :: body

/-- The number of newlines in a segment. -/
def newlines (segment : Segment) : Nat :=
  segment.text.count '\n'

/-- The kind of a token that is a single character whatever follows. -/
def single? : Char → Option Token.Kind
  | '(' => some .leftParen
  | ')' => some .rightParen
  | '{' => some .leftBrace
  | '}' => some .rightBrace
  | ',' => some .comma
  | '-' => some .minus
  | '+' => some .plus
  | ';' => some .semicolon
  | '*' => some .star
  | _ => none

/-- The kinds of a character with an equals sign after it, and of the character alone. -/
def double? : Char → Option (Token.Kind × Token.Kind)
  | '!' => some (.bangEqual, .bang)
  | '=' => some (.equalEqual, .equal)
  | '<' => some (.lessEqual, .less)
  | '>' => some (.greaterEqual, .greater)
  | _ => none

/-- Whether a character is skipped between tokens on a line. -/
def isBlank (character : Char) : Bool :=
  character == ' ' || character == '\r' || character == '\t'

/-- Whether a word can begin with a character. -/
def isWordStart (character : Char) : Bool :=
  character.isAlpha || character == '_'

/-- Whether a word can go on with a character. -/
def isWordPart (character : Char) : Bool :=
  isWordStart character || character.isDigit

/-- The number that begins a text, after its first digit, and what is left. -/
def readNumber (first : Char) (rest : List Char) : Segment × List Char :=
  let whole := first :: rest.takeWhile Char.isDigit
  match rest.dropWhile Char.isDigit with
  | '.' :: digit :: rest' =>
    if digit.isDigit then
      (token .number (whole ++ '.' :: digit :: rest'.takeWhile Char.isDigit),
        rest'.dropWhile Char.isDigit)
    else
      (token .number whole, '.' :: digit :: rest')
  | rest' => (token .number whole, rest')

/-- The keyword or identifier that begins a text, after its first character, and what is left. -/
def readWord (first : Char) (rest : List Char) : Segment × List Char :=
  let word := first :: rest.takeWhile isWordPart
  (token (.ofWord (String.ofList word)) word, rest.dropWhile isWordPart)

/-- The string that begins a text, after its opening quote, and what is left. -/
def readString (rest : List Char) : Segment × List Char :=
  match rest.dropWhile (· ≠ '"') with
  | [] => (unterminated rest, [])
  | _ :: rest' => (token .string ('"' :: rest.takeWhile (· ≠ '"') ++ ['"']), rest')

/-- The comment or division sign that begins a text, after its first slash, and what is left. -/
def readSlash : List Char → Segment × List Char
  | '/' :: rest => (comment (rest.takeWhile (· ≠ '\n')), rest.dropWhile (· ≠ '\n'))
  | rest => (token .slash ['/'], rest)

/-- The longer of two tokens if an equals sign follows, otherwise the shorter, and what is left. -/
def readDouble (first : Char) (withEqual alone : Token.Kind) : List Char → Segment × List Char
  | '=' :: rest => (token withEqual [first, '='], rest)
  | rest => (token alone [first], rest)

/-- The longest segment that begins the text `first :: rest`, and what is left of the text. -/
def read (first : Char) (rest : List Char) : Segment × List Char :=
  match single? first with
  | some kind => (token kind [first], rest)
  | none =>
    match double? first with
    | some (withEqual, alone) => readDouble first withEqual alone rest
    | none =>
      if first = '/' then readSlash rest
      else if isBlank first then (blank first, rest)
      else if first = '\n' then (newline, rest)
      else if first = '"' then readString rest
      else if first.isDigit then readNumber first rest
      else if isWordStart first then readWord first rest
      else (unexpected first, rest)

/-- Puts the segments of a text, of at most `bound` characters, before those already found. -/
def cutOnto (found : List Segment) : Nat → List Char → List Segment
  | bound + 1, first :: rest =>
    let (segment, rest') := read first rest
    cutOnto (segment :: found) bound rest'
  | _, _ => found.reverse

/-- The segments of a text, in order. -/
def cut (text : List Char) : List Segment :=
  cutOnto [] text.length text

/-- The constant that a token of a given kind and lexeme stands for. -/
def literal (kind : Token.Kind) (lexeme : List Char) : Constant :=
  match kind with
  | .number => .number (Number.ofLexeme lexeme)
  | .string => .string (String.ofList (lexeme.drop 1).dropLast)
  | _ => .null

end Segment

end Scriptlet
