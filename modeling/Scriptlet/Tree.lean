import Scriptlet.Token

/-!
# Syntax trees

Expressions have values and statements have effects. Nodes keep the tokens that errors point at.
There is no node for `for`: `Stmt.forLoop` builds the loop from blocks and `while`.
-/

namespace Scriptlet

/-- An expression. -/
inductive Expr where
  | literal (value : Constant)
  | grouping (inner : Expr)
  | unary (operator : Token) (operand : Expr)
  | binary (left : Expr) (operator : Token) (right : Expr)
  /-- A binary operator that may leave its right operand unevaluated. -/
  | logical (left : Expr) (operator : Token) (right : Expr)
  /-- The value of a variable. -/
  | read (name : Token)
  | assign (name : Token) (value : Expr)
  /-- A call; errors in it point at the closing parenthesis. -/
  | call (callee : Expr) (paren : Token) (arguments : List Expr)
  deriving Inhabited

/-- A statement. -/
inductive Stmt where
  | expression (value : Expr)
  | print (value : Expr)
  | declare (name : Token) (initializer : Option Expr)
  | block (body : List Stmt)
  | ifThen (condition : Expr) (thenBranch : Stmt)
  | ifElse (condition : Expr) (thenBranch elseBranch : Stmt)
  | whileDo (condition : Expr) (body : Stmt)
  | function (name : Token) (parameters : List Token) (body : List Stmt)
  | ret (keyword : Token) (value : Option Expr)
  deriving Inhabited

namespace Stmt

/--
A `for` loop. The increment runs after the body in one block, a missing condition is `true`, and
the initializer opens a block around the whole loop; what is missing leaves no trace.
-/
def forLoop (initializer : Option Stmt) (condition increment : Option Expr) (body : Stmt) : Stmt :=
  let body :=
    match increment with
    | some increment => block [body, expression increment]
    | none => body
  let loop := whileDo (condition.getD (.literal (.bool true))) body
  match initializer with
  | some initializer => block [initializer, loop]
  | none => loop

end Stmt

end Scriptlet
