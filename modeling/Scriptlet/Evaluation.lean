import Scriptlet.Limits
import Scriptlet.Machine

/-!
# Evaluation

Evaluating an expression gives a value; executing a statement tells whether to go on or to return.
`interpret` runs a program. Every rule takes the depth to which rules may still nest, and the
number of rounds that a loop may go.
-/

namespace Scriptlet

mutual

/-- Evaluates an expression, nested to the given depth at most. -/
def Expr.evaluate (rounds : Nat) : Nat → Expr → Eval Value
  | 0, _ => throw .tooDeep
  | depth + 1, expr =>
    match expr with
    | .literal value => return .constant value
    | .grouping inner => Expr.evaluate rounds depth inner
    | .unary operator operand => do
      let value ← Expr.evaluate rounds depth operand
      Eval.ofExcept (applyUnary operator value)
    | .binary left operator right => do
      let left ← Expr.evaluate rounds depth left
      let right ← Expr.evaluate rounds depth right
      Eval.ofExcept (applyBinary operator left right)
    | .logical left operator right => do
      let value ← Expr.evaluate rounds depth left
      -- A disjunction is settled by a truthy operand, every other operator by a falsy one.
      if value.isTruthy = decide (operator.kind = .kwOr) then return value
      Expr.evaluate rounds depth right
    | .read name => Eval.lookup name
    | .assign name value => do
      let value ← Expr.evaluate rounds depth value
      Eval.assign name value
      return value
    | .call callee paren arguments => do
      let callee ← Expr.evaluate rounds depth callee
      let arguments ← Eval.forEach (Expr.evaluate rounds depth) arguments
      Eval.call (Stmt.execute rounds depth) paren callee arguments

/-- Executes a statement, nested to the given depth at most. -/
def Stmt.execute (rounds : Nat) : Nat → Stmt → Eval Flow
  | 0, _ => throw .tooDeep
  | depth + 1, statement =>
    match statement with
    | .expression value => do
      let _ ← Expr.evaluate rounds depth value
      return .next
    | .print value => do
      let value ← Expr.evaluate rounds depth value
      Eval.printLine value.text
      return .next
    | .declare name none => do
      Eval.define name .null
      return .next
    | .declare name (some value) => do
      let value ← Expr.evaluate rounds depth value
      Eval.define name value
      return .next
    | .block body => do
      let scope ← Eval.create ⟨some (← get).current, []⟩
      Eval.within scope (Eval.sequence (Stmt.execute rounds depth) body)
    | .ifThen condition thenBranch => do
      if (← Expr.evaluate rounds depth condition).isTruthy then
        Stmt.execute rounds depth thenBranch
      else
        return .next
    | .ifElse condition thenBranch elseBranch => do
      if (← Expr.evaluate rounds depth condition).isTruthy then
        Stmt.execute rounds depth thenBranch
      else
        Stmt.execute rounds depth elseBranch
    | .whileDo condition body =>
      Eval.loop (Expr.evaluate rounds depth condition) (Stmt.execute rounds depth body) rounds
    | .function name parameters body => do
      Eval.define name (← Eval.close name parameters body)
      return .next
    | .ret _ none => return .returned .null
    | .ret _ (some value) => do
      let value ← Expr.evaluate rounds depth value
      return .returned value

end

/--
Runs statements in a scope until one of them returns or a runtime error stops them, and gives that
error.
-/
def interpret (limits : Limits) (statements : List Stmt) (scope : ScopeId) :
    Eval (Option RuntimeError) :=
  fun machine =>
    match Eval.within scope (Eval.sequence (Stmt.execute limits.rounds limits.depth) statements)
      machine with
    | .ok _ machine => .ok none machine
    | .error (.error error) machine => .ok (some error) machine
    | .error stop machine => .error stop machine

end Scriptlet
