import Scriptlet.Grammar.Statement

/-!
# Reading with a cursor

The grammar can also be read with a cursor that is moved along the tokens. All tokens are at hand at
any time, and may be looked up by their index. Nothing bounds the rules and loops: neither is it
counted how deeply rules nest, nor how often loops go round, so that it is not clear from the
definitions that reading ends. What the cursor does to the tokens is recorded.
-/

namespace Scriptlet

/-- What a cursor does to the tokens. -/
inductive Access where
  | read (index : Int)
  | move (position : Nat)

/-- A reader's place in the tokens, its errors, and the number of function bodies around it. -/
structure Cursor where
  position : Nat
  errors : List SyntaxError
  functions : Nat
  /-- What was done to the tokens so far. -/
  trace : List Access

namespace Cursor

/-- Why reading was broken off. -/
inductive Abort where
  | rejected (error : SyntaxError)
  | outOfRange

/-- Reading that moves the cursor, may be broken off, or may go on forever. -/
abbrev Reader (α : Type) : Type :=
  ExceptT Abort (StateT Cursor Option) α

/-- Notes down an error and goes on. -/
def record (cause : SyntaxError.Cause) (token : Token) : Reader Unit :=
  modify fun cursor => { cursor with errors := cursor.errors ++ [⟨cause, token⟩] }

/-- Moves on by one token. -/
def moveOn : Reader Unit :=
  modify fun cursor =>
    { cursor with
      position := cursor.position + 1
      trace := cursor.trace ++ [.move (cursor.position + 1)] }

/-- The tokens that a cursor is moved along. -/
abbrev Tokens : Type :=
  List Token

namespace Tokens

/-- The token at an index. A negative index counts from the end. -/
def token? (tokens : Tokens) (index : Int) : Option Token :=
  if 0 ≤ index then tokens[index.toNat]?
  else if -tokens.length ≤ index then tokens[(tokens.length + index).toNat]?
  else none

/-- Looks up a token. -/
def lookup (tokens : Tokens) (index : Int) : Reader Token := do
  modify fun cursor => { cursor with trace := cursor.trace ++ [.read index] }
  match tokens.token? index with
  | some token => return token
  | none => throw .outOfRange

def peek (tokens : Tokens) : Reader Token := do
  tokens.lookup (← get).position

def previous (tokens : Tokens) : Reader Token := do
  tokens.lookup ((← get).position - 1)

def isAtEnd (tokens : Tokens) : Reader Bool := do
  return (← tokens.peek).kind = .eof

/-- Moves on by one token, but not beyond an end mark, and gives the token before the cursor. -/
def advance (tokens : Tokens) : Reader Token := do
  if !(← tokens.isAtEnd) then moveOn
  tokens.previous

/-- Whether the token at the cursor is of a kind, and no end mark. -/
def check (tokens : Tokens) (kind : Token.Kind) : Reader Bool := do
  if ← tokens.isAtEnd then return false
  return (← tokens.peek).kind = kind

/-- Whether a block ends at the cursor. -/
def isClosing (tokens : Tokens) : Reader Bool := do
  if ← tokens.check .rightBrace then return true
  tokens.isAtEnd

/-- Moves on if the token at the cursor is of one of the given kinds. -/
def matches? (tokens : Tokens) : List Token.Kind → Reader Bool
  | [] => return false
  | kind :: kinds => do
    if ← tokens.check kind then
      let _ ← tokens.advance
      return true
    tokens.matches? kinds

def consume (tokens : Tokens) (kind : Token.Kind) (missing : Missing) : Reader Token := do
  if ← tokens.check kind then tokens.advance
  else throw (.rejected ⟨.missing missing, ← tokens.peek⟩)

/-- Notes down that an item is one too many. -/
def recordExcess (tokens : Tokens) (limit : Nat) (excess : SyntaxError.Cause) (count : Nat) :
    Reader Unit := do
  if limit ≤ count then record excess (← tokens.peek)

/-- Moves on up to the likely beginning of a statement. -/
def skip (tokens : Tokens) : Reader Unit := do
  if ← tokens.isAtEnd then return
  if (← tokens.previous).kind = .semicolon then return
  if (← tokens.peek).kind ∈ Parser.statementStarts then return
  let _ ← tokens.advance
  tokens |>.skip
partial_fixpoint

def synchronize (tokens : Tokens) : Reader Unit := do
  let _ ← tokens.advance
  tokens.skip

mutual

def expression (tokens : Tokens) : Reader Expr := do
  let target ← tokens |>.operation .disjunction
  if ← tokens.matches? [.equal] then
    let equals ← tokens.previous
    let value ← tokens |>.expression
    match target with
    | .read name => return .assign name value
    | _ =>
      record .invalidTarget equals
      return target
  return target
partial_fixpoint

def operation (tokens : Tokens) (tier : Tier) : Reader Expr := do
  tokens |>.operations tier (← tokens |>.operand tier)
partial_fixpoint

/-- The operands of a level. -/
def operand (tokens : Tokens) (tier : Tier) : Reader Expr :=
  match tier.tighter? with
  | some tighter => tokens |>.operation tighter
  | none => tokens |>.unary
partial_fixpoint

/-- Goes on from `left` with operators and right operands. -/
def operations (tokens : Tokens) (tier : Tier) (left : Expr) : Reader Expr := do
  if ← tokens.matches? tier.operators then
    let operator ← tokens.previous
    let right ← tokens |>.operand tier
    tokens |>.operations tier (tier.combine left operator right)
  else
    return left
partial_fixpoint

def unary (tokens : Tokens) : Reader Expr := do
  if ← tokens.matches? [.bang, .minus] then
    let operator ← tokens.previous
    return .unary operator (← tokens |>.unary)
  tokens |>.call
partial_fixpoint

def call (tokens : Tokens) : Reader Expr := do
  tokens |>.calls (← tokens |>.primary)
partial_fixpoint

/-- Calls of `callee` with argument lists, one after the other. -/
def calls (tokens : Tokens) (callee : Expr) : Reader Expr := do
  if ← tokens.matches? [.leftParen] then
    tokens |>.calls (← tokens |>.finishCall callee)
  else
    return callee
partial_fixpoint

def finishCall (tokens : Tokens) (callee : Expr) : Reader Expr := do
  let arguments ← tokens |>.arguments
  let paren ← tokens.consume .rightParen .parenAfterArguments
  return .call callee paren arguments
partial_fixpoint

def arguments (tokens : Tokens) : Reader (List Expr) := do
  if ← tokens.check .rightParen then return []
  tokens |>.moreArguments []
partial_fixpoint

/-- Arguments with commas between them, after those that were read. -/
def moreArguments (tokens : Tokens) (arguments : List Expr) : Reader (List Expr) := do
  tokens.recordExcess maxArguments .tooManyArguments arguments.length
  let argument ← tokens |>.expression
  if ← tokens.matches? [.comma] then tokens |>.moreArguments (arguments ++ [argument])
  else return arguments ++ [argument]
partial_fixpoint

def primary (tokens : Tokens) : Reader Expr := do
  if ← tokens.matches? [.kwFalse] then return .literal (.bool false)
  if ← tokens.matches? [.kwTrue] then return .literal (.bool true)
  if ← tokens.matches? [.kwNull] then return .literal .null
  if ← tokens.matches? [.number, .string] then return .literal (← tokens.previous).literal
  if ← tokens.matches? [.identifier] then return .read (← tokens.previous)
  if ← tokens.matches? [.leftParen] then
    let inner ← tokens |>.expression
    let _ ← tokens.consume .rightParen .parenAfterExpression
    return .grouping inner
  throw (.rejected ⟨.missing .expression, ← tokens.peek⟩)
partial_fixpoint

end

/-- An expression, unless a token of the kind `stop` is next. -/
def optional (tokens : Tokens) (stop : Token.Kind) : Reader (Option Expr) := do
  if ← tokens.check stop then return none
  return some (← tokens.expression)

def initialValue (tokens : Tokens) : Reader (Option Expr) := do
  if ← tokens.matches? [.equal] then return some (← tokens.expression)
  return none

def variableDeclaration (tokens : Tokens) : Reader Stmt := do
  let name ← tokens.consume .identifier .variableName
  let value ← tokens.initialValue
  let _ ← tokens.consume .semicolon .semicolonAfterDeclaration
  return .declare name value

def expressionStatement (tokens : Tokens) : Reader Stmt := do
  let value ← tokens.expression
  let _ ← tokens.consume .semicolon .semicolonAfterExpression
  return .expression value

def printStatement (tokens : Tokens) : Reader Stmt := do
  let value ← tokens.expression
  let _ ← tokens.consume .semicolon .semicolonAfterValue
  return .print value

def returnStatement (tokens : Tokens) : Reader Stmt := do
  let keyword ← tokens.previous
  if (← get).functions = 0 then record .topLevelReturn keyword
  let value ← tokens.optional .semicolon
  let _ ← tokens.consume .semicolon .semicolonAfterReturnValue
  return .ret keyword value

/-- The first clause of a `for` loop. -/
def initializer (tokens : Tokens) : Reader (Option Stmt) := do
  if ← tokens.matches? [.semicolon] then return none
  if ← tokens.matches? [.kwVar] then return some (← tokens.variableDeclaration)
  return some (← tokens.expressionStatement)

/-- Parameters with commas between them, after those that were read. -/
def moreParameters (tokens : Tokens) (parameters : List Token) : Reader (List Token) := do
  tokens.recordExcess maxParameters .tooManyParameters parameters.length
  let parameter ← tokens.consume .identifier .parameterName
  if ← tokens.matches? [.comma] then tokens |>.moreParameters (parameters ++ [parameter])
  else return parameters ++ [parameter]
partial_fixpoint

def parameters (tokens : Tokens) : Reader (List Token) := do
  if ← tokens.check .rightParen then return []
  tokens.moreParameters []

mutual

/-- A declaration or statement, or nothing where it had to be given up. -/
def declaration (tokens : Tokens) : Reader (Option Stmt) := fun cursor => do
  let (result, cursor) ← (tokens |>.declared).run.run cursor
  match result with
  | .ok statement => return (.ok (some statement), cursor)
  | .error .outOfRange => return (.error .outOfRange, cursor)
  | .error (.rejected error) =>
    let cursor := { cursor with errors := cursor.errors ++ [error] }
    let (result, cursor) ← tokens.synchronize.run.run cursor
    return (result.map fun _ => none, cursor)
partial_fixpoint

def declared (tokens : Tokens) : Reader Stmt := do
  if ← tokens.matches? [.kwVar] then return ← tokens.variableDeclaration
  if ← tokens.matches? [.kwFun] then return ← tokens |>.function
  tokens |>.statement
partial_fixpoint

def function (tokens : Tokens) : Reader Stmt := do
  let name ← tokens.consume .identifier .functionName
  let _ ← tokens.consume .leftParen .parenAfterFunctionName
  let parameters ← tokens.parameters
  let _ ← tokens.consume .rightParen .parenAfterParameters
  let _ ← tokens.consume .leftBrace .braceBeforeBody
  let body ← tokens |>.functionBody
  return .function name parameters body
partial_fixpoint

/-- The body of a function, which is left in any case. -/
def functionBody (tokens : Tokens) : Reader (List Stmt) := fun cursor => do
  let cursor := { cursor with functions := cursor.functions + 1 }
  let (result, cursor) ← (tokens |>.block).run.run cursor
  return (result, { cursor with functions := cursor.functions - 1 })
partial_fixpoint

def statement (tokens : Tokens) : Reader Stmt := do
  if ← tokens.matches? [.kwPrint] then return ← tokens.printStatement
  if ← tokens.matches? [.leftBrace] then return .block (← tokens |>.block)
  if ← tokens.matches? [.kwIf] then return ← tokens |>.ifStatement
  if ← tokens.matches? [.kwWhile] then return ← tokens |>.whileStatement
  if ← tokens.matches? [.kwFor] then return ← tokens |>.forStatement
  if ← tokens.matches? [.kwReturn] then return ← tokens.returnStatement
  tokens.expressionStatement
partial_fixpoint

/-- Declarations up to a closing brace, after the opening one. -/
def block (tokens : Tokens) : Reader (List Stmt) := do
  let body ← tokens |>.declarations []
  let _ ← tokens.consume .rightBrace .braceAfterBlock
  return body
partial_fixpoint

/-- Declarations up to a closing brace or the end, after those that were read. -/
def declarations (tokens : Tokens) (body : List Stmt) : Reader (List Stmt) := do
  if ← tokens.isClosing then return body
  let next ← tokens |>.declaration
  tokens |>.declarations (body ++ next.toList)
partial_fixpoint

def ifStatement (tokens : Tokens) : Reader Stmt := do
  let _ ← tokens.consume .leftParen .parenAfterIf
  let test ← tokens.expression
  let _ ← tokens.consume .rightParen .parenAfterIfCondition
  let thenBranch ← tokens |>.statement
  if ← tokens.matches? [.kwElse] then return .ifElse test thenBranch (← tokens |>.statement)
  return .ifThen test thenBranch
partial_fixpoint

def whileStatement (tokens : Tokens) : Reader Stmt := do
  let _ ← tokens.consume .leftParen .parenAfterWhile
  let test ← tokens.expression
  let _ ← tokens.consume .rightParen .parenAfterCondition
  return .whileDo test (← tokens |>.statement)
partial_fixpoint

def forStatement (tokens : Tokens) : Reader Stmt := do
  let _ ← tokens.consume .leftParen .parenAfterFor
  let first ← tokens.initializer
  let test ← tokens.optional .semicolon
  let _ ← tokens.consume .semicolon .semicolonAfterLoopCondition
  let increment ← tokens.optional .rightParen
  let _ ← tokens.consume .rightParen .parenAfterClauses
  return .forLoop first test increment (← tokens |>.statement)
partial_fixpoint

end

/-- Declarations up to the end, after those that were read. -/
def program (tokens : Tokens) (statements : List Stmt) : Reader (List Stmt) := do
  if ← tokens.isAtEnd then return statements
  let next ← tokens.declaration
  tokens |>.program (statements ++ next.toList)
partial_fixpoint

end Tokens

/-- Reads tokens as a program. There is nothing to show for it if reading goes on forever. -/
def parse (tokens : Tokens) : Option (Except Abort (List Stmt) × Cursor) :=
  (tokens.program []).run.run ⟨0, [], 0, []⟩

end Cursor

end Scriptlet
