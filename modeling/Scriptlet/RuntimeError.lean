import Scriptlet.Diagnostic
import Scriptlet.Token

/-!
# Runtime errors

A runtime error is a cause and the token of the program at which it arose.
-/

namespace Scriptlet

/-- What can go wrong while a program runs. -/
inductive RuntimeError.Cause where
  /-- An addition of something else than two numbers or two strings. -/
  | notAddable
  /-- An operation on something else than two numbers. -/
  | notNumbers
  /-- A negation of something else than a number. -/
  | notNumber
  /-- A binary operation that has no meaning. -/
  | unknownOperator
  /-- A name that is bound nowhere in sight. -/
  | undefinedVariable
  /-- A call of something else than a function. -/
  | notCallable
  /-- A call with the wrong number of arguments. -/
  | wrongArity (expected given : Nat)
  deriving DecidableEq, Repr

/-- A runtime error and the token at which it arose. -/
structure RuntimeError where
  cause : RuntimeError.Cause
  token : Token

namespace RuntimeError

/-- The message of a runtime error. -/
def message (error : RuntimeError) : String :=
  match error.cause with
  | .notAddable => "Operands must be two numbers or two strings."
  | .notNumbers => "Operands must be numbers."
  | .notNumber => "Operand must be a number."
  | .unknownOperator => "Unknown binary operator '" ++ error.token.lexeme ++ "'."
  | .undefinedVariable => "Undefined variable '" ++ error.token.lexeme ++ "'."
  | .notCallable => "Can only call functions."
  | .wrongArity expected given =>
    "Expected " ++ toString expected ++ " arguments but got " ++ toString given ++ "."

end RuntimeError

/-- A message about what went wrong at a token while a program ran. -/
def Diagnostic.whileRunning (token : Token) (message : String) : Diagnostic where
  kind := .runtime
  line := some token.line
  message := message
  lexeme := token.lexeme

/-- The error as the user sees it. -/
def RuntimeError.diagnostic (error : RuntimeError) : Diagnostic :=
  .whileRunning error.token error.message

end Scriptlet
