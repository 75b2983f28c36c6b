import Scriptlet.Diagnostic
import Scriptlet.Token

/-!
# Syntax errors

A syntax error is a cause and the token it was found at. Where something is missing, reading stops
and resumes at a later statement; the other errors are only noted down.
-/

namespace Scriptlet

/-- What the grammar asks for and a text does not have. -/
inductive Missing where
  | expression
  | variableName
  | functionName
  | parameterName
  | parenAfterFunctionName
  | parenAfterParameters
  | braceBeforeBody
  | braceAfterBlock
  | parenAfterIf
  | parenAfterIfCondition
  | parenAfterWhile
  | parenAfterCondition
  | parenAfterFor
  | parenAfterClauses
  | parenAfterArguments
  | parenAfterExpression
  | semicolonAfterDeclaration
  | semicolonAfterValue
  | semicolonAfterLoopCondition
  | semicolonAfterReturnValue
  | semicolonAfterExpression
  deriving DecidableEq, Repr

/-- What can be wrong with a sequence of tokens. -/
inductive SyntaxError.Cause where
  | missing (what : Missing)
  | invalidTarget
  | tooManyParameters
  | tooManyArguments
  | topLevelReturn
  deriving DecidableEq, Repr

/-- A syntax error and the token it was found at. -/
structure SyntaxError where
  cause : SyntaxError.Cause
  token : Token

/-- The greatest number of parameters of a function. -/
def maxParameters : Nat := 8

/-- The greatest number of arguments of a call. -/
def maxArguments : Nat := 255

/-- The message about something that is missing. -/
def Missing.message : Missing → String
  | expression => "Expect expression."
  | variableName => "Expect variable name."
  | functionName => "Expect function name."
  | parameterName => "Expect parameter name."
  | parenAfterFunctionName => "Expect '(' after function name."
  | parenAfterParameters => "Expect ')' after parameters."
  | braceBeforeBody => "Expect '\x7b' before function body."
  | braceAfterBlock => "Expect '\x7d' after block."
  | parenAfterIf => "Expect '(' after 'if'."
  | parenAfterIfCondition => "Expect ')' after if condition."
  | parenAfterWhile => "Expect '(' after 'while'."
  | parenAfterCondition => "Expect ')' after condition."
  | parenAfterFor => "Expect '(' after 'for'."
  | parenAfterClauses => "Expect ')' after for clauses."
  | parenAfterArguments => "Expect ')' after arguments."
  | parenAfterExpression => "Expect ')' after expression."
  | semicolonAfterDeclaration => "Expect ';' after variable declaration."
  | semicolonAfterValue => "Expect ';' after value."
  | semicolonAfterLoopCondition => "Expect ';' after loop condition."
  | semicolonAfterReturnValue => "Expect ';' after return value."
  | semicolonAfterExpression => "Expect ';' after expression."

namespace SyntaxError

/-- The message of a syntax error. -/
def Cause.message : Cause → String
  | missing what => what.message
  | invalidTarget => "Invalid assignment target."
  | tooManyParameters => "Can't have more than " ++ toString maxParameters ++ " parameters."
  | tooManyArguments => "Can't have more than " ++ toString maxArguments ++ " arguments."
  | topLevelReturn => "Can't return from top-level code."

end SyntaxError

/-- A message about a token, which is described as the end of the text or quoted. -/
def Diagnostic.atToken (token : Token) (message : String) : Diagnostic :=
  if token.kind = .eof then
    { line := some token.line, message := message, place := " at end" }
  else
    { line := some token.line
      message := message
      place := " at '" ++ token.lexeme ++ "'"
      lexeme := token.lexeme }

/-- The error as the user sees it. -/
def SyntaxError.diagnostic (error : SyntaxError) : Diagnostic :=
  .atToken error.token error.cause.message

end Scriptlet
