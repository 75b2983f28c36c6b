import Scriptlet.Proofs.Phrase.Expression

/-!
# Phrases of statements

A `StmtPhrase` is a derivation in the grammar of statements, with the same views as a phrase of an
expression. The grammar is the relaxed one: a function can have any number of parameters, and a
statement can return wherever it stands.

An `else` belongs to the nearest `if` that can take it. The symbol of a statement therefore tells
whether the statement ends in an `if` without an `else`, and no such statement stands before an
`else`.
-/

namespace Scriptlet

abbrev OptionalPhrase := Option (ExprPhrase .expression)

namespace OptionalPhrase

def tokens (phrase : OptionalPhrase) : List Token :=
  phrase.elim [] ExprPhrase.tokens

def tree (phrase : OptionalPhrase) : Option Expr :=
  phrase.map ExprPhrase.tree

/-- The tree of a condition. One that is left out is true. -/
def orTrue (phrase : OptionalPhrase) : Expr :=
  phrase.elim (.literal (.bool true)) ExprPhrase.tree

/-- The body of a loop, with an increment after it in one block. -/
def after (phrase : OptionalPhrase) (body : Stmt) : Stmt :=
  phrase.elim body fun increment => .block [body, .expression increment.tree]

def errors (phrase : OptionalPhrase) : List SyntaxError :=
  phrase.elim [] ExprPhrase.errors

def height (phrase : OptionalPhrase) : Nat :=
  phrase.elim 0 ExprPhrase.height

def Conforms (phrase : OptionalPhrase) : Prop :=
  phrase.elim True ExprPhrase.Conforms

end OptionalPhrase

structure VariablePhrase where
  keyword : Terminal [.kwVar]
  name : Terminal [.identifier]
  initializer : Option (Terminal [.equal] × ExprPhrase .expression)
  semicolon : Terminal [.semicolon]

namespace VariablePhrase

/-- The expression that a declaration begins with, if there is one. -/
def value (phrase : VariablePhrase) : OptionalPhrase :=
  phrase.initializer.map Prod.snd

/-- The tokens of a declaration after its keyword. -/
def tail (phrase : VariablePhrase) : List Token :=
  phrase.name.token ::
    (phrase.initializer.elim [] (fun (equals, value) => equals.token :: value.tokens) ++
      [phrase.semicolon.token])

def tokens (phrase : VariablePhrase) : List Token :=
  phrase.keyword.token :: phrase.tail

def tree (phrase : VariablePhrase) : Stmt :=
  .declare phrase.name.token phrase.value.tree

end VariablePhrase

/-- The first clause of a `for` loop. -/
inductive ClausePhrase where
  | absent (semicolon : Terminal [.semicolon])
  | declaration (phrase : VariablePhrase)
  | expression (value : ExprPhrase .expression) (semicolon : Terminal [.semicolon])

namespace ClausePhrase

def tokens : ClausePhrase → List Token
  | absent semicolon => [semicolon.token]
  | declaration phrase => phrase.tokens
  | expression value semicolon => value.tokens ++ [semicolon.token]

/-- The statement that a first clause stands for, if there is one. -/
def tree : ClausePhrase → Option Stmt
  | absent _ => none
  | declaration phrase => some phrase.tree
  | expression value _ => some (.expression value.tree)

/-- A loop, with its first clause before it in one block. -/
def before (loop : Stmt) : ClausePhrase → Stmt
  | absent _ => loop
  | declaration phrase => .block [phrase.tree, loop]
  | expression value _ => .block [.expression value.tree, loop]

/-- The expression in a first clause, if there is one. -/
def value : ClausePhrase → OptionalPhrase
  | absent _ => none
  | declaration phrase => phrase.value
  | expression value _ => some value

end ClausePhrase

inductive ParameterPhrase where
  | last (name : Terminal [.identifier])
  | next (name : Terminal [.identifier]) (comma : Terminal [.comma]) (rest : ParameterPhrase)

namespace ParameterPhrase

def tokens : ParameterPhrase → List Token
  | last name => [name.token]
  | next name comma rest => name.token :: comma.token :: rest.tokens

def names : ParameterPhrase → List Token
  | last name => [name.token]
  | next name _ rest => name.token :: rest.names

end ParameterPhrase

/-- The head of a function, up to the brace that opens its body. -/
structure HeadPhrase where
  name : Terminal [.identifier]
  opening : Terminal [.leftParen]
  list : Option ParameterPhrase
  closing : Terminal [.rightParen]
  brace : Terminal [.leftBrace]

namespace HeadPhrase

def tokens (phrase : HeadPhrase) : List Token :=
  phrase.name.token :: phrase.opening.token ::
    (phrase.list.elim [] ParameterPhrase.tokens ++ [phrase.closing.token, phrase.brace.token])

def parameters (phrase : HeadPhrase) : List Token :=
  phrase.list.elim [] ParameterPhrase.names

/-- The errors at the parameters that are too many. -/
def errors (phrase : HeadPhrase) : List SyntaxError :=
  (phrase.parameters.drop maxParameters).map (⟨.tooManyParameters, ·⟩)

end HeadPhrase

inductive StmtPhrase.Symbol where
  | declaration
  | declarations
  /-- A statement, and whether it ends in an `if` without an `else`. -/
  | statement (endsOpen : Bool)

open StmtPhrase (Symbol)

inductive StmtPhrase : Symbol → Type where
  | declare (phrase : VariablePhrase) : StmtPhrase .declaration
  | function (keyword : Terminal [.kwFun]) (head : HeadPhrase) (body : StmtPhrase .declarations)
      (closing : Terminal [.rightBrace]) : StmtPhrase .declaration
  | statement {endsOpen : Bool} (phrase : StmtPhrase (.statement endsOpen)) :
      StmtPhrase .declaration
  | noDeclaration : StmtPhrase .declarations
  | nextDeclaration (first : StmtPhrase .declaration) (rest : StmtPhrase .declarations) :
      StmtPhrase .declarations
  | expression (value : ExprPhrase .expression) (semicolon : Terminal [.semicolon]) :
      StmtPhrase (.statement false)
  | print (keyword : Terminal [.kwPrint]) (value : ExprPhrase .expression)
      (semicolon : Terminal [.semicolon]) : StmtPhrase (.statement false)
  | block (opening : Terminal [.leftBrace]) (body : StmtPhrase .declarations)
      (closing : Terminal [.rightBrace]) : StmtPhrase (.statement false)
  | ifThen {endsOpen : Bool} (keyword : Terminal [.kwIf]) (opening : Terminal [.leftParen])
      (condition : ExprPhrase .expression) (closing : Terminal [.rightParen])
      (thenBranch : StmtPhrase (.statement endsOpen)) : StmtPhrase (.statement true)
  -- The `else` would belong to an `if` at the end of the first branch.
  | ifElse {endsOpen : Bool} (keyword : Terminal [.kwIf]) (opening : Terminal [.leftParen])
      (condition : ExprPhrase .expression) (closing : Terminal [.rightParen])
      (thenBranch : StmtPhrase (.statement false)) (otherwise : Terminal [.kwElse])
      (elseBranch : StmtPhrase (.statement endsOpen)) : StmtPhrase (.statement endsOpen)
  | whileDo {endsOpen : Bool} (keyword : Terminal [.kwWhile]) (opening : Terminal [.leftParen])
      (condition : ExprPhrase .expression) (closing : Terminal [.rightParen])
      (body : StmtPhrase (.statement endsOpen)) : StmtPhrase (.statement endsOpen)
  | forLoop {endsOpen : Bool} (keyword : Terminal [.kwFor]) (opening : Terminal [.leftParen])
      (first : ClausePhrase) (condition : OptionalPhrase) (semicolon : Terminal [.semicolon])
      (increment : OptionalPhrase) (closing : Terminal [.rightParen])
      (body : StmtPhrase (.statement endsOpen)) : StmtPhrase (.statement endsOpen)
  | ret (keyword : Terminal [.kwReturn]) (value : OptionalPhrase)
      (semicolon : Terminal [.semicolon]) : StmtPhrase (.statement false)

namespace StmtPhrase

@[simp]
def tokens {symbol : Symbol} : StmtPhrase symbol → List Token
  | declare phrase => phrase.tokens
  | function keyword head body closing =>
    keyword.token :: (head.tokens ++ (body.tokens ++ [closing.token]))
  | statement phrase => phrase.tokens
  | noDeclaration => []
  | nextDeclaration first rest => first.tokens ++ rest.tokens
  | expression value semicolon => value.tokens ++ [semicolon.token]
  | print keyword value semicolon => keyword.token :: (value.tokens ++ [semicolon.token])
  | block opening body closing => opening.token :: (body.tokens ++ [closing.token])
  | ifThen keyword opening condition closing thenBranch =>
    keyword.token :: opening.token :: (condition.tokens ++ closing.token :: thenBranch.tokens)
  | ifElse keyword opening condition closing thenBranch otherwise elseBranch =>
    keyword.token :: opening.token ::
      (condition.tokens ++ closing.token ::
        (thenBranch.tokens ++ otherwise.token :: elseBranch.tokens))
  | whileDo keyword opening condition closing body =>
    keyword.token :: opening.token :: (condition.tokens ++ closing.token :: body.tokens)
  | forLoop keyword opening first condition semicolon increment closing body =>
    keyword.token :: opening.token ::
      (first.tokens ++ (condition.tokens ++ semicolon.token ::
        (increment.tokens ++ closing.token :: body.tokens)))
  | ret keyword value semicolon => keyword.token :: (value.tokens ++ [semicolon.token])

abbrev Symbol.Tree : Symbol → Type
  | declaration | statement _ => Stmt
  | declarations => List Stmt

@[simp]
def tree {symbol : Symbol} : StmtPhrase symbol → symbol.Tree
  | declare phrase => phrase.tree
  | function _ head body _ => Stmt.function head.name.token head.parameters body.tree
  | statement phrase => phrase.tree
  | noDeclaration => []
  | nextDeclaration first rest => first.tree :: rest.tree
  | expression value _ => Stmt.expression value.tree
  | print _ value _ => Stmt.print value.tree
  | block _ body _ => Stmt.block body.tree
  | ifThen _ _ condition _ thenBranch => Stmt.ifThen condition.tree thenBranch.tree
  | ifElse _ _ condition _ thenBranch _ elseBranch =>
    Stmt.ifElse condition.tree thenBranch.tree elseBranch.tree
  | whileDo _ _ condition _ body => Stmt.whileDo condition.tree body.tree
  | forLoop _ _ first condition _ increment _ body =>
    first.before (Stmt.whileDo condition.orTrue (increment.after body.tree))
  | ret keyword value _ => Stmt.ret keyword.token value.tree

/-- The blocks around a `for` loop are those of `Stmt.forLoop`. -/
theorem tree_forLoop {endsOpen : Bool} (keyword : Terminal [.kwFor])
    (opening : Terminal [.leftParen]) (first : ClausePhrase) (condition : OptionalPhrase)
    (semicolon : Terminal [.semicolon]) (increment : OptionalPhrase)
    (closing : Terminal [.rightParen]) (body : StmtPhrase (.statement endsOpen)) :
    (forLoop keyword opening first condition semicolon increment closing body).tree =
      Stmt.forLoop first.tree condition.tree increment.tree body.tree := by
  cases first <;> cases condition <;> cases increment <;> rfl

/-- The places where a phrase, inside or outside of a function, breaks a rule of the language. -/
@[simp]
def errors {symbol : Symbol} (inFunction : Bool) : StmtPhrase symbol → List SyntaxError
  | declare phrase => phrase.value.errors
  | function _ head body _ => head.errors ++ body.errors true
  | statement phrase => phrase.errors inFunction
  | noDeclaration => []
  | nextDeclaration first rest => first.errors inFunction ++ rest.errors inFunction
  | expression value _ => value.errors
  | print _ value _ => value.errors
  | block _ body _ => body.errors inFunction
  | ifThen _ _ condition _ thenBranch => condition.errors ++ thenBranch.errors inFunction
  | ifElse _ _ condition _ thenBranch _ elseBranch =>
    condition.errors ++ (thenBranch.errors inFunction ++ elseBranch.errors inFunction)
  | whileDo _ _ condition _ body => condition.errors ++ body.errors inFunction
  | forLoop _ _ first condition _ increment _ body =>
    first.value.errors ++ (condition.errors ++ (increment.errors ++ body.errors inFunction))
  | ret keyword value _ =>
    (if inFunction then [] else [⟨.topLevelReturn, keyword.token⟩]) ++ value.errors

/-- How deeply the rules that read a phrase nest. Repetition does not add to it. -/
@[simp]
def height {symbol : Symbol} : StmtPhrase symbol → Nat
  | declare phrase => phrase.value.height + 1
  | function _ _ body _ => body.height + 1 + 1
  | statement phrase => phrase.height + 1
  | noDeclaration => 0
  | nextDeclaration first rest => max first.height rest.height
  | expression value _ => value.height + 1
  | print _ value _ => value.height + 1
  | block _ body _ => body.height + 1 + 1
  | ifThen _ _ condition _ thenBranch => max condition.height thenBranch.height + 1
  | ifElse _ _ condition _ thenBranch _ elseBranch =>
    max condition.height (max thenBranch.height elseBranch.height) + 1
  | whileDo _ _ condition _ body => max condition.height body.height + 1
  | forLoop _ _ first condition _ increment _ body =>
    max first.value.height (max condition.height (max increment.height body.height)) + 1
  | ret _ value _ => value.height + 1

/--
Whether a phrase, inside or outside of a function, belongs to the language proper: functions have
no more parameters than are allowed, and only what stands in the body of a function returns.
-/
@[simp]
def Conforms {symbol : Symbol} (inFunction : Bool) : StmtPhrase symbol → Prop
  | declare phrase => phrase.value.Conforms
  | function _ head body _ => head.parameters.length ≤ maxParameters ∧ body.Conforms true
  | statement phrase => phrase.Conforms inFunction
  | noDeclaration => True
  | nextDeclaration first rest => first.Conforms inFunction ∧ rest.Conforms inFunction
  | expression value _ => value.Conforms
  | print _ value _ => value.Conforms
  | block _ body _ => body.Conforms inFunction
  | ifThen _ _ condition _ thenBranch => condition.Conforms ∧ thenBranch.Conforms inFunction
  | ifElse _ _ condition _ thenBranch _ elseBranch =>
    condition.Conforms ∧ thenBranch.Conforms inFunction ∧ elseBranch.Conforms inFunction
  | whileDo _ _ condition _ body => condition.Conforms ∧ body.Conforms inFunction
  | forLoop _ _ first condition _ increment _ body =>
    first.value.Conforms ∧ condition.Conforms ∧ increment.Conforms ∧ body.Conforms inFunction
  | ret _ value _ => inFunction = true ∧ value.Conforms

end StmtPhrase

/-- A program: declarations one after the other. -/
abbrev ProgramPhrase := List (StmtPhrase .declaration)

namespace ProgramPhrase

def tokens (program : ProgramPhrase) : List Token :=
  program.flatMap StmtPhrase.tokens

/-- The statements that a program stands for, one for each declaration. -/
def tree (program : ProgramPhrase) : List Stmt :=
  program.map StmtPhrase.tree

def errors (program : ProgramPhrase) : List SyntaxError :=
  program.flatMap (StmtPhrase.errors false)

def height (program : ProgramPhrase) : Nat :=
  (program.map StmtPhrase.height).foldr max 0

def Conforms (program : ProgramPhrase) : Prop :=
  ∀ declaration ∈ program, declaration.Conforms false

end ProgramPhrase

namespace StmtPhrase

/-- The declarations of a program as one phrase. -/
def ofProgram : ProgramPhrase → StmtPhrase .declarations
  | [] => noDeclaration
  | first :: rest => nextDeclaration first (ofProgram rest)

variable (program : ProgramPhrase)

theorem tokens_ofProgram : (ofProgram program).tokens = program.tokens := by
  induction program with
  | nil => rfl
  | cons first rest ih => simp [ofProgram, ProgramPhrase.tokens, ih]

theorem tree_ofProgram : (ofProgram program).tree = program.tree := by
  induction program with
  | nil => rfl
  | cons first rest ih => simp [ofProgram, ProgramPhrase.tree, ih]

theorem errors_ofProgram (inFunction : Bool) :
    (ofProgram program).errors inFunction = program.flatMap (errors inFunction) := by
  induction program with
  | nil => rfl
  | cons first rest ih => simp [ofProgram, ih]

theorem height_ofProgram : (ofProgram program).height = program.height := by
  induction program with
  | nil => rfl
  | cons first rest ih => simp [ofProgram, ProgramPhrase.height, ih]

end StmtPhrase

end Scriptlet
