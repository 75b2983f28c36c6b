import Scriptlet.Constant

/-!
# Tokens

A token is a piece of program text with the kind it has in the grammar, the constant it stands
for, and the line on which it ends.
-/

namespace Scriptlet

/-- The kinds of tokens. -/
inductive Token.Kind where
  | leftParen
  | rightParen
  | leftBrace
  | rightBrace
  | comma
  | minus
  | plus
  | semicolon
  | slash
  | star
  | bang
  | bangEqual
  | equal
  | equalEqual
  | greater
  | greaterEqual
  | less
  | lessEqual
  | identifier
  | string
  | number
  | kwAnd
  | kwElse
  | kwFalse
  | kwFor
  | kwFun
  | kwIf
  | kwNull
  | kwOr
  | kwPrint
  | kwReturn
  | kwTrue
  | kwVar
  | kwWhile
  | eof
  deriving DecidableEq, Repr, Inhabited

/-- A token: a kind, its text, the constant it stands for (null for most) and its last line. -/
structure Token where
  kind : Token.Kind
  lexeme : String
  literal : Constant
  line : Int
  deriving Inhabited

namespace Token

namespace Kind

/-- The words that are not identifiers. -/
def keywords : List (String × Kind) :=
  [("and", kwAnd), ("else", kwElse), ("false", kwFalse), ("for", kwFor), ("fun", kwFun),
    ("if", kwIf), ("null", kwNull), ("or", kwOr), ("print", kwPrint), ("return", kwReturn),
    ("true", kwTrue), ("var", kwVar), ("while", kwWhile)]

/-- The kind of a word: its keyword if it is one, otherwise an identifier. -/
def ofWord (word : String) : Kind :=
  (keywords.lookup word).getD identifier

/-- The name of a kind in the description of a token. -/
def label : Kind → String
  | leftParen => "LEFT_PAREN"
  | rightParen => "RIGHT_PAREN"
  | leftBrace => "LEFT_BRACE"
  | rightBrace => "RIGHT_BRACE"
  | comma => "COMMA"
  | minus => "MINUS"
  | plus => "PLUS"
  | semicolon => "SEMICOLON"
  | slash => "SLASH"
  | star => "STAR"
  | bang => "BANG"
  | bangEqual => "BANG_EQUAL"
  | equal => "EQUAL"
  | equalEqual => "EQUAL_EQUAL"
  | greater => "GREATER"
  | greaterEqual => "GREATER_EQUAL"
  | less => "LESS"
  | lessEqual => "LESS_EQUAL"
  | identifier => "IDENTIFIER"
  | string => "STRING"
  | number => "NUMBER"
  | kwAnd => "AND"
  | kwElse => "ELSE"
  | kwFalse => "FALSE"
  | kwFor => "FOR"
  | kwFun => "FUN"
  | kwIf => "IF"
  | kwNull => "NULL"
  | kwOr => "OR"
  | kwPrint => "PRINT"
  | kwReturn => "RETURN"
  | kwTrue => "TRUE"
  | kwVar => "VAR"
  | kwWhile => "WHILE"
  | eof => "EOF"

end Kind

/-- A token's kind, text and literal on one line. -/
def description (token : Token) : String :=
  token.kind.label ++ " " ++ token.lexeme ++ " " ++ token.literal.description

/-- The token that ends a text whose last line is `line`. -/
def endOfText (line : Int) : Token where
  kind := .eof
  lexeme := ""
  literal := .null
  line := line

end Token

end Scriptlet
