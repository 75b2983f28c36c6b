import Scriptlet.Grammar.Expression

/-!
# Grammar of statements

```
program     -> declaration* EOF
declaration -> variable | function | statement
variable    -> "var" IDENTIFIER ("=" expression)? ";"
function    -> "fun" IDENTIFIER "(" parameters? ")" block
statement   -> expression ";" | "print" expression ";" | block | if | while | for | return
block       -> "{" declaration* "}"
if          -> "if" "(" expression ")" statement ("else" statement)?
while       -> "while" "(" expression ")" statement
for         -> "for" "(" (variable | expression ";" | ";") expression? ";" expression? ")" statement
return      -> "return" expression? ";"
```

A declaration that cannot be read is given up, and reading resumes at the next statement.
Statements know whether they stand in the body of a function, where alone they may return.
-/

namespace Scriptlet

namespace Grammar

open Scriptlet.Parser

/-- An expression and its semicolon. -/
def terminated (depth : Nat) (missing : Missing) : Parser Expr := do
  let value ← expression depth
  let _ ← expect .semicolon missing
  return value

/-- An expression, unless a token of the kind `stop` is next. -/
def optional (depth : Nat) (stop : Token.Kind) : Parser (Option Expr) := do
  if ← isNext stop then return none
  return some (← expression depth)

/-- A condition in parentheses. -/
def condition (depth : Nat) (before after : Missing) : Parser Expr := do
  let _ ← expect .leftParen before
  let condition ← expression depth
  let _ ← expect .rightParen after
  return condition

/-- A variable declaration, after its keyword. -/
def variableDeclaration (depth : Nat) : Parser Stmt := do
  let name ← expect .identifier .variableName
  match ← accept [.equal] with
  | none =>
    let _ ← expect .semicolon .semicolonAfterDeclaration
    return .declare name none
  | some _ =>
    let value ← terminated depth .semicolonAfterDeclaration
    return .declare name (some value)

/-- A statement that is only an expression. -/
def expressionStatement (depth : Nat) : Parser Stmt := do
  let value ← terminated depth .semicolonAfterExpression
  return .expression value

/-- The first clause of a `for` loop. -/
def initializer (depth : Nat) : Parser (Option Stmt) := do
  match ← accept [.semicolon, .kwVar] with
  | none => return some (← expressionStatement depth)
  | some token =>
    if token.kind = .semicolon then return none
    return some (← variableDeclaration depth)

/-- A `return`, after its keyword. -/
def returnStatement (depth : Nat) (inFunction : Bool) (keyword : Token) : Parser Stmt := do
  if !inFunction then note .topLevelReturn keyword
  let value ← optional depth .semicolon
  let _ ← expect .semicolon .semicolonAfterReturnValue
  return .ret keyword value

/-- The name and parameters of a function, up to the brace that opens its body. -/
def functionHead : Parser (Token × List Token) := do
  let name ← expect .identifier .functionName
  let _ ← expect .leftParen .parenAfterFunctionName
  let parameters ←
    commaList maxParameters .tooManyParameters (expect .identifier .parameterName)
  let _ ← expect .rightParen .parenAfterParameters
  let _ ← expect .leftBrace .braceBeforeBody
  return (name, parameters)

mutual

/-- A declaration or statement, or nothing where it had to be given up. -/
def declaration : Nat → Bool → Parser (Option Stmt)
  | 0, _ => halt .tooDeep
  | depth + 1, inFunction => recovering do
    match ← accept [.kwVar, .kwFun] with
    | none => statement depth inFunction
    | some token =>
      if token.kind = .kwVar then variableDeclaration depth
      else
        let (name, parameters) ← functionHead
        let body ← block depth true
        return .function name parameters body

/-- A statement. -/
def statement : Nat → Bool → Parser Stmt
  | 0, _ => halt .tooDeep
  | depth + 1, inFunction => do
    match ← accept [.kwPrint, .leftBrace, .kwIf, .kwWhile, .kwFor, .kwReturn] with
    | none => expressionStatement depth
    | some token =>
      match token.kind with
      | .kwPrint =>
        let value ← terminated depth .semicolonAfterValue
        return .print value
      | .leftBrace =>
        let body ← block depth inFunction
        return .block body
      | .kwIf =>
        let test ← condition depth .parenAfterIf .parenAfterIfCondition
        let thenBranch ← statement depth inFunction
        match ← accept [.kwElse] with
        | none => return .ifThen test thenBranch
        | some _ =>
          let elseBranch ← statement depth inFunction
          return .ifElse test thenBranch elseBranch
      | .kwWhile =>
        let test ← condition depth .parenAfterWhile .parenAfterCondition
        let body ← statement depth inFunction
        return .whileDo test body
      | .kwFor =>
        let _ ← expect .leftParen .parenAfterFor
        let first ← initializer depth
        let test ← optional depth .semicolon
        let _ ← expect .semicolon .semicolonAfterLoopCondition
        let increment ← optional depth .rightParen
        let _ ← expect .rightParen .parenAfterClauses
        let body ← statement depth inFunction
        return .forLoop first test increment body
      | _ => returnStatement depth inFunction token

/-- Declarations up to a closing brace, after the opening one. -/
def block : Nat → Bool → Parser (List Stmt)
  | 0, _ => halt .tooDeep
  | depth + 1, inFunction => do
    let body ← bounded (statements .rightBrace (declaration depth inFunction))
    let _ ← expect .rightBrace .braceAfterBlock
    return body

end

end Grammar

/-- The statements of a program and the errors in it, in the order they were found. -/
structure Parsed where
  statements : List Stmt
  errors : List SyntaxError

/-- Reads tokens as a program, with rules nested to `depth` at most. -/
def parse (depth : Nat) (tokens : List Token) : Except Halt Parsed :=
  match Parser.bounded (Parser.statements .eof (Grammar.declaration depth false)) tokens with
  | .done statements _ noted => .ok ⟨statements, noted⟩
  | .failed error _ noted => .ok ⟨[], noted ++ [error]⟩
  | .halted reason => .error reason

end Scriptlet
