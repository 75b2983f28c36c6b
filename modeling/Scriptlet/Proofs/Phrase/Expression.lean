import Scriptlet.SyntaxError
import Scriptlet.Tree

/-!
# Phrases of expressions

An `ExprPhrase` is a derivation in the grammar of expressions. It keeps the tokens it is made of in
the order of the text (`tokens`), and tells which tree it stands for (`tree`) and where it breaks a
rule of the language that the grammar itself does not express (`errors`). Binary operators bind
more or less tightly: `levels` is the table of their levels, and the operands of an operator are
operations of the levels that bind more tightly.

The grammar is the relaxed one: any operation can stand on the left of an equals sign, and a call
can have any number of arguments. `Conforms` singles out the phrases of the language proper.
-/

namespace Scriptlet

/-- A token of one of the given kinds. -/
structure Terminal (kinds : List Token.Kind) where
  token : Token
  kind_mem : token.kind ∈ kinds

namespace ExprPhrase

/-- A level of binary operators. -/
structure Level where
  operators : List Token.Kind
  /-- Whether an operator may leave its right operand unevaluated. -/
  isLazy : Bool
  deriving DecidableEq, Repr

/-- The node that an operator of a level makes. -/
def Level.node (level : Level) : Expr → Token → Expr → Expr :=
  if level.isLazy then .logical else .binary

/-- The levels of binary operators, from the loosest to the tightest. -/
def levels : List Level := [
  { operators := [.kwOr], isLazy := true },
  { operators := [.kwAnd], isLazy := true },
  { operators := [.bangEqual, .equalEqual], isLazy := false },
  { operators := [.greater, .greaterEqual, .less, .lessEqual], isLazy := false },
  { operators := [.minus, .plus], isLazy := false },
  { operators := [.slash, .star], isLazy := false }]

inductive Symbol where
  | expression
  /-- An operation of the first of some levels. Without levels, it is a unary expression. -/
  | operation (levels : List Level)
  /-- Operators of a level, each with its right operand, which is of a tighter level. -/
  | operations (level : Level) (tighter : List Level)
  | unary
  | call
  /-- Argument lists in parentheses, one after the other. -/
  | calls
  | arguments
  /-- At least one argument, when `before` of them stand to the left. -/
  | argumentList (before : Nat)
  | primary

end ExprPhrase

open ExprPhrase (Symbol Level)

/-- The kinds of tokens that are expressions by themselves. -/
def Grammar.atomKinds : List Token.Kind :=
  [.kwFalse, .kwTrue, .kwNull, .number, .string, .identifier]

inductive ExprPhrase : Symbol → Type where
  | plain (value : ExprPhrase (.operation ExprPhrase.levels)) : ExprPhrase .expression
  | assignment (target : ExprPhrase (.operation ExprPhrase.levels)) (equals : Terminal [.equal])
      (value : ExprPhrase .expression) : ExprPhrase .expression
  | operation {level : Level} {tighter : List Level} (first : ExprPhrase (.operation tighter))
      (more : ExprPhrase (.operations level tighter)) : ExprPhrase (.operation (level :: tighter))
  | tightest (value : ExprPhrase .unary) : ExprPhrase (.operation [])
  | noOperation {level : Level} {tighter : List Level} : ExprPhrase (.operations level tighter)
  | nextOperation {level : Level} {tighter : List Level} (operator : Terminal level.operators)
      (right : ExprPhrase (.operation tighter)) (more : ExprPhrase (.operations level tighter)) :
      ExprPhrase (.operations level tighter)
  | unaryOperation (operator : Terminal [.bang, .minus]) (operand : ExprPhrase .unary) :
      ExprPhrase .unary
  | unaryCall (value : ExprPhrase .call) : ExprPhrase .unary
  | call (callee : ExprPhrase .primary) (more : ExprPhrase .calls) : ExprPhrase .call
  | noCall : ExprPhrase .calls
  | nextCall (opening : Terminal [.leftParen]) (arguments : ExprPhrase .arguments)
      (closing : Terminal [.rightParen]) (more : ExprPhrase .calls) : ExprPhrase .calls
  | noArguments : ExprPhrase .arguments
  | someArguments (list : ExprPhrase (.argumentList 0)) : ExprPhrase .arguments
  | lastArgument {before : Nat} (value : ExprPhrase .expression) :
      ExprPhrase (.argumentList before)
  | nextArgument {before : Nat} (value : ExprPhrase .expression) (comma : Terminal [.comma])
      (rest : ExprPhrase (.argumentList (before + 1))) : ExprPhrase (.argumentList before)
  | atom (token : Terminal Grammar.atomKinds) : ExprPhrase .primary
  | parenthesised (opening : Terminal [.leftParen]) (inner : ExprPhrase .expression)
      (closing : Terminal [.rightParen]) : ExprPhrase .primary

namespace ExprPhrase

@[simp]
def tokens {symbol : Symbol} : ExprPhrase symbol → List Token
  | plain value => value.tokens
  | assignment target equals value => target.tokens ++ equals.token :: value.tokens
  | operation first more => first.tokens ++ more.tokens
  | tightest value => value.tokens
  | noOperation => []
  | nextOperation operator right more => operator.token :: (right.tokens ++ more.tokens)
  | unaryOperation operator operand => operator.token :: operand.tokens
  | unaryCall value => value.tokens
  | call callee more => callee.tokens ++ more.tokens
  | noCall => []
  | nextCall opening arguments closing more =>
    opening.token :: (arguments.tokens ++ closing.token :: more.tokens)
  | noArguments => []
  | someArguments list => list.tokens
  | lastArgument value => value.tokens
  | nextArgument value comma rest => value.tokens ++ comma.token :: rest.tokens
  | atom token => [token.token]
  | parenthesised opening inner closing =>
    opening.token :: (inner.tokens ++ [closing.token])

/-- What a derivation of a symbol stands for. What follows a left operand maps it to a tree. -/
abbrev Symbol.Tree : Symbol → Type
  | expression | operation _ | unary | call | primary => Expr
  | operations _ _ | calls => Expr → Expr
  | arguments | argumentList _ => List Expr

/-- The tree of an assignment. A target that is no variable stands for itself alone. -/
def assigned (target value : Expr) : Expr :=
  match target with
  | .read name => .assign name value
  | _ => target

/-- The tree of a token that is an expression by itself. -/
def atomTree (token : Token) : Expr :=
  match token.kind with
  | .kwFalse => .literal (.bool false)
  | .kwTrue => .literal (.bool true)
  | .kwNull => .literal .null
  | .identifier => .read token
  | _ => .literal token.literal

@[simp]
def tree {symbol : Symbol} : ExprPhrase symbol → symbol.Tree
  | plain value => value.tree
  | assignment target _ value => assigned target.tree value.tree
  | operation first more => more.tree first.tree
  | tightest value => value.tree
  | noOperation => fun left => left
  | @nextOperation level _ operator right more =>
    fun left => more.tree (level.node left operator.token right.tree)
  | unaryOperation operator operand => Expr.unary operator.token operand.tree
  | unaryCall value => value.tree
  | call callee more => more.tree callee.tree
  | noCall => fun callee => callee
  | nextCall _ arguments closing more =>
    fun callee => more.tree (.call callee closing.token arguments.tree)
  | noArguments => []
  | someArguments list => list.tree
  | lastArgument value => [value.tree]
  | nextArgument value _ rest => value.tree :: rest.tree
  | atom token => atomTree token.token
  | parenthesised _ inner _ => Expr.grouping inner.tree

/-- The error at an equals sign whose left side is no variable. -/
def targetErrors (target : Expr) (equals : Token) : List SyntaxError :=
  match target with
  | .read _ => []
  | _ => [⟨.invalidTarget, equals⟩]

/-- The error at the first token of an item of a list, when too many items stand before it. -/
def excessErrors (limit : Nat) (cause : SyntaxError.Cause) (before : Nat) (item : List Token) :
    List SyntaxError :=
  if limit ≤ before then (item.take 1).map (⟨cause, ·⟩) else []

/-- The places where a phrase breaks a rule of the language. -/
@[simp]
def errors {symbol : Symbol} : ExprPhrase symbol → List SyntaxError
  | plain value => value.errors
  -- The right side counts even if the tree does without it.
  | assignment target equals value =>
    target.errors ++ (value.errors ++ targetErrors target.tree equals.token)
  | operation first more => first.errors ++ more.errors
  | tightest value => value.errors
  | noOperation => []
  | nextOperation _ right more => right.errors ++ more.errors
  | unaryOperation _ operand => operand.errors
  | unaryCall value => value.errors
  | call callee more => callee.errors ++ more.errors
  | noCall => []
  | nextCall _ arguments _ more => arguments.errors ++ more.errors
  | noArguments => []
  | someArguments list => list.errors
  | @lastArgument before value =>
    excessErrors maxArguments .tooManyArguments before value.tokens ++ value.errors
  | @nextArgument before value _ rest =>
    excessErrors maxArguments .tooManyArguments before value.tokens ++
      (value.errors ++ rest.errors)
  | atom _ => []
  | parenthesised _ inner _ => inner.errors

/-- How deeply the rules that read a phrase nest. Repetition does not add to it. -/
@[simp]
def height {symbol : Symbol} : ExprPhrase symbol → Nat
  | plain value => value.height + 1
  | assignment target _ value => max target.height value.height + 1
  | operation first more => max first.height more.height + 1
  | tightest value => value.height
  | noOperation => 0
  | nextOperation _ right more => max right.height more.height
  | unaryOperation _ operand => operand.height + 1
  | unaryCall value => value.height + 1
  | call callee more => max callee.height more.height + 1
  | noCall => 0
  | nextCall _ arguments _ more => max arguments.height more.height
  | noArguments => 0
  | someArguments list => list.height
  | lastArgument value => value.height
  | nextArgument value _ rest => max value.height rest.height
  | atom _ => 1
  | parenthesised _ inner _ => inner.height + 1

/--
Whether a phrase belongs to the language proper: what stands on the left of an equals sign is an
identifier, and a call has no more arguments than are allowed.
-/
@[simp]
def Conforms {symbol : Symbol} : ExprPhrase symbol → Prop
  | plain value => value.Conforms
  | assignment target _ value =>
    (∃ name : Terminal [.identifier], target.tokens = [name.token]) ∧ value.Conforms
  | operation first more => first.Conforms ∧ more.Conforms
  | tightest value => value.Conforms
  | noOperation => True
  | nextOperation _ right more => right.Conforms ∧ more.Conforms
  | unaryOperation _ operand => operand.Conforms
  | unaryCall value => value.Conforms
  | call callee more => callee.Conforms ∧ more.Conforms
  | noCall => True
  | nextCall _ arguments _ more =>
    (arguments.tree : List Expr).length ≤ maxArguments ∧ arguments.Conforms ∧ more.Conforms
  | noArguments => True
  | someArguments list => list.Conforms
  | lastArgument value => value.Conforms
  | nextArgument value _ rest => value.Conforms ∧ rest.Conforms
  | atom _ => True
  | parenthesised _ inner _ => inner.Conforms

end ExprPhrase

end Scriptlet
