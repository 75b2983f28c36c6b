import Scriptlet.Parser

/-!
# Grammar of expressions

```
expression -> assignment
assignment -> IDENTIFIER "=" assignment | disjunction
disjunction -> conjunction ("or" conjunction)*
conjunction -> equality ("and" equality)*
equality   -> comparison (("!=" | "==") comparison)*
comparison -> sum ((">" | ">=" | "<" | "<=") sum)*
sum        -> product (("-" | "+") product)*
product    -> unary (("/" | "*") unary)*
unary      -> ("!" | "-") unary | call
call       -> primary ("(" arguments? ")")*
primary    -> NUMBER | STRING | IDENTIFIER | "false" | "true" | "null" | "(" expression ")"
```

Every rule takes the depth to which rules may still nest.
-/

namespace Scriptlet

/-- The levels of binary operators, from the loosest to the tightest. -/
inductive Tier where
  | disjunction
  | conjunction
  | equality
  | comparison
  | sum
  | product
  deriving DecidableEq, Repr

namespace Tier

/-- The operators of a level. -/
def operators : Tier → List Token.Kind
  | disjunction => [.kwOr]
  | conjunction => [.kwAnd]
  | equality => [.bangEqual, .equalEqual]
  | comparison => [.greater, .greaterEqual, .less, .lessEqual]
  | sum => [.minus, .plus]
  | product => [.slash, .star]

/-- The level of the operands; those of the tightest level are unary. -/
def tighter? : Tier → Option Tier
  | disjunction => some conjunction
  | conjunction => some equality
  | equality => some comparison
  | comparison => some sum
  | sum => some product
  | product => none

/-- The node of an operator of a level. -/
def combine : Tier → Expr → Token → Expr → Expr
  | disjunction | conjunction => .logical
  | equality | comparison | sum | product => .binary

end Tier

namespace Grammar

open Scriptlet.Parser

/-- Calls of `callee` with argument lists, one after the other. -/
def calls (argument : Parser Expr) : List Token → Expr → Parser Expr
  | [], _ => halt .missingEnd
  | _ :: rounds, callee => do
    match ← accept [.leftParen] with
    | none => return callee
    | some _ =>
      let arguments ← commaList maxArguments .tooManyArguments argument
      let paren ← expect .rightParen .parenAfterArguments
      calls argument rounds (.call callee paren arguments)

/-- The assignment of `value`; a target that is no variable is noted down and keeps its value. -/
def assignment (target : Expr) (equals : Token) (value : Expr) : Parser Expr :=
  match target with
  | .read name => return .assign name value
  | _ => do
    note .invalidTarget equals
    return target

/-- The atom that a single token makes, if it makes one. -/
def atom? (token : Token) : Option Expr :=
  match token.kind with
  | .kwFalse => some (.literal (.bool false))
  | .kwTrue => some (.literal (.bool true))
  | .kwNull => some (.literal .null)
  | .number | .string => some (.literal token.literal)
  | .identifier => some (.read token)
  | _ => none

/-- A single token that is an expression, or else what `parenthesised` reads after a parenthesis. -/
def atomOr (parenthesised : Parser Expr) : Parser Expr
  | [] => .halted .missingEnd
  | token :: rest =>
    match atom? token with
    | some expr => .done expr rest []
    | none =>
      if token.kind = .leftParen then parenthesised rest
      else fail .expression (token :: rest)

mutual

/-- An assignment, which is grouped to the right, or an operation. -/
def expression : Nat → Parser Expr
  | 0 => halt .tooDeep
  | depth + 1 => do
    let target ← operation depth .disjunction
    match ← accept [.equal] with
    | none => return target
    | some equals =>
      let value ← expression depth
      assignment target equals value

/-- Operations of a level. -/
def operation : Nat → Tier → Parser Expr
  | 0, _ => halt .tooDeep
  | depth + 1, tier => do
    let operand :=
      match tier.tighter? with
      | some tighter => operation depth tighter
      | none => unary depth
    let first ← operand
    bounded fun rounds => operations tier.operators operand tier.combine rounds first

/-- Unary operators, grouped to the right, before a call. -/
def unary : Nat → Parser Expr
  | 0 => halt .tooDeep
  | depth + 1 => do
    match ← accept [.bang, .minus] with
    | some operator =>
      let operand ← unary depth
      return .unary operator operand
    | none => call depth

/-- A primary expression and the calls after it. -/
def call : Nat → Parser Expr
  | 0 => halt .tooDeep
  | depth + 1 => do
    let callee ← primary depth
    bounded fun rounds => calls (expression depth) rounds callee

/-- A single token or an expression in parentheses. -/
def primary : Nat → Parser Expr
  | 0 => halt .tooDeep
  | depth + 1 => atomOr do
    let inner ← expression depth
    let _ ← expect .rightParen .parenAfterExpression
    return .grouping inner

end

end Grammar

end Scriptlet
