import Scriptlet.Tree

/-!
# Roles of tokens

An expression keeps the tokens that errors may point at, each of them in a role. Nothing in a tree
by itself ties the kind of a token to its role. `Expr.Fits` and `Stmt.Fits` say that all tokens of a
piece of code, the bodies of functions included, are such as their roles ask for.
-/

namespace Scriptlet

/-- What a token stands for in an expression. -/
inductive Token.Role where
  | unary
  | binary
  | logical
  /-- A variable that is read or assigned to. -/
  | name
  /-- The parenthesis that closes the arguments of a call. -/
  | closing

/-- The kinds of tokens that the language has for a role. -/
def Token.Role.kinds : Token.Role → List Token.Kind
  | unary => [.bang, .minus]
  | binary =>
    [.bangEqual, .equalEqual, .greater, .greaterEqual, .less, .lessEqual, .minus, .plus, .slash,
      .star]
  | logical => [.kwOr, .kwAnd]
  | name => [.identifier]
  | closing => [.rightParen]

inductive Expr.Fits (allows : Token.Role → Token → Prop) : Expr → Prop
  | literal (value : Constant) : Fits allows (.literal value)
  | grouping {inner : Expr} (innerFits : Fits allows inner) : Fits allows (.grouping inner)
  | unary {operator : Token} {operand : Expr} (allowed : allows .unary operator)
      (operandFits : Fits allows operand) : Fits allows (.unary operator operand)
  | binary {left right : Expr} {operator : Token} (leftFits : Fits allows left)
      (allowed : allows .binary operator) (rightFits : Fits allows right) :
      Fits allows (.binary left operator right)
  | logical {left right : Expr} {operator : Token} (leftFits : Fits allows left)
      (allowed : allows .logical operator) (rightFits : Fits allows right) :
      Fits allows (.logical left operator right)
  | read {name : Token} (allowed : allows .name name) : Fits allows (.read name)
  | assign {name : Token} {value : Expr} (allowed : allows .name name)
      (valueFits : Fits allows value) : Fits allows (.assign name value)
  | call {callee : Expr} {paren : Token} {arguments : List Expr} (calleeFits : Fits allows callee)
      (allowed : allows .closing paren)
      (argumentsFit : ∀ argument ∈ arguments, Fits allows argument) :
      Fits allows (.call callee paren arguments)

inductive Stmt.Fits (allows : Token.Role → Token → Prop) : Stmt → Prop
  | expression {value : Expr} (valueFits : value.Fits allows) : Fits allows (.expression value)
  | print {value : Expr} (valueFits : value.Fits allows) : Fits allows (.print value)
  | declare (name : Token) {initializer : Option Expr}
      (initializerFits : ∀ value ∈ initializer, value.Fits allows) :
      Fits allows (.declare name initializer)
  | block {body : List Stmt} (bodyFits : ∀ statement ∈ body, Fits allows statement) :
      Fits allows (.block body)
  | ifThen {condition : Expr} {thenBranch : Stmt} (conditionFits : condition.Fits allows)
      (thenFits : Fits allows thenBranch) : Fits allows (.ifThen condition thenBranch)
  | ifElse {condition : Expr} {thenBranch elseBranch : Stmt}
      (conditionFits : condition.Fits allows) (thenFits : Fits allows thenBranch)
      (elseFits : Fits allows elseBranch) : Fits allows (.ifElse condition thenBranch elseBranch)
  | whileDo {condition : Expr} {body : Stmt} (conditionFits : condition.Fits allows)
      (bodyFits : Fits allows body) : Fits allows (.whileDo condition body)
  | function (name : Token) (parameters : List Token) {body : List Stmt}
      (bodyFits : ∀ statement ∈ body, Fits allows statement) :
      Fits allows (.function name parameters body)
  | ret (keyword : Token) {result : Option Expr}
      (resultFits : ∀ value ∈ result, value.Fits allows) : Fits allows (.ret keyword result)

section

variable {allows others : Token.Role → Token → Prop}
  (implied : ∀ role token, allows role token → others role token)

include implied

theorem Expr.Fits.mono {expr : Expr} (fits : expr.Fits allows) : expr.Fits others := by
  induction fits with
  | literal value => exact .literal value
  | grouping _ innerFits => exact .grouping innerFits
  | unary allowed _ operandFits => exact .unary (implied _ _ allowed) operandFits
  | binary _ allowed _ leftFits rightFits => exact .binary leftFits (implied _ _ allowed) rightFits
  | logical _ allowed _ leftFits rightFits =>
      exact .logical leftFits (implied _ _ allowed) rightFits
  | read allowed => exact .read (implied _ _ allowed)
  | assign allowed _ valueFits => exact .assign (implied _ _ allowed) valueFits
  | call _ allowed _ calleeFits argumentsFit =>
      exact .call calleeFits (implied _ _ allowed) argumentsFit

theorem Stmt.Fits.mono {statement : Stmt} (fits : statement.Fits allows) :
    statement.Fits others := by
  induction fits with
  | expression valueFits => exact .expression (valueFits.mono implied)
  | print valueFits => exact .print (valueFits.mono implied)
  | declare name initializerFits =>
      exact .declare name fun value member => (initializerFits value member).mono implied
  | block _ bodyFits => exact .block bodyFits
  | ifThen conditionFits _ thenFits => exact .ifThen (conditionFits.mono implied) thenFits
  | ifElse conditionFits _ _ thenFits elseFits =>
      exact .ifElse (conditionFits.mono implied) thenFits elseFits
  | whileDo conditionFits _ bodyFits => exact .whileDo (conditionFits.mono implied) bodyFits
  | function name parameters _ bodyFits => exact .function name parameters bodyFits
  | ret keyword resultFits =>
      exact .ret keyword fun value member => (resultFits value member).mono implied

end

section

variable {allows : Token.Role → Token → Prop} (all : ∀ role token, allows role token)

include all

theorem Expr.fits_of_all (expr : Expr) : expr.Fits allows := by
  match expr with
  | .literal value => exact .literal value
  | .grouping inner => exact .grouping inner.fits_of_all
  | .unary operator operand => exact .unary (all _ _) operand.fits_of_all
  | .binary left operator right => exact .binary left.fits_of_all (all _ _) right.fits_of_all
  | .logical left operator right => exact .logical left.fits_of_all (all _ _) right.fits_of_all
  | .read name => exact .read (all _ _)
  | .assign name value => exact .assign (all _ _) value.fits_of_all
  | .call callee paren arguments =>
      exact .call callee.fits_of_all (all _ _) fun argument _ => argument.fits_of_all

theorem Stmt.fits_of_all (statement : Stmt) : statement.Fits allows := by
  match statement with
  | .expression value => exact .expression (value.fits_of_all all)
  | .print value => exact .print (value.fits_of_all all)
  | .declare name initializer => exact .declare name fun value _ => value.fits_of_all all
  | .block body => exact .block fun statement _ => statement.fits_of_all
  | .ifThen condition thenBranch =>
      exact .ifThen (condition.fits_of_all all) thenBranch.fits_of_all
  | .ifElse condition thenBranch elseBranch =>
      exact .ifElse (condition.fits_of_all all) thenBranch.fits_of_all elseBranch.fits_of_all
  | .whileDo condition body => exact .whileDo (condition.fits_of_all all) body.fits_of_all
  | .function name parameters body =>
      exact .function name parameters fun statement _ => statement.fits_of_all
  | .ret keyword result => exact .ret keyword fun value _ => value.fits_of_all all

end

end Scriptlet
