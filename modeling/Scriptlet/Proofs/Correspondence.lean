import Mathlib.Data.List.Forall2
import Scriptlet.Tree

/-!
# Corresponding trees

Two trees correspond if they have the same shape and constants, and the tokens at the same places
correspond. Which tokens do is left open: `Token.Alike` is the weakest relation that is used, under
which tokens differ in their lines only. A tree corresponds to what `Expr.mapTokens` or
`Stmt.mapTokens` makes of it, as far as its tokens do to their images.
-/

namespace Scriptlet

/-- That two tokens differ in their lines at most. -/
structure Token.Alike (token other : Token) : Prop where
  kind : token.kind = other.kind
  lexeme : token.lexeme = other.lexeme
  literal : token.literal = other.literal

/-- A way in which tokens can correspond: only tokens alike do. -/
structure Likeness where
  Holds : Token → Token → Prop
  alike : ∀ {token other}, Holds token other → token.Alike other

/-- That each token of a set corresponds to its image. -/
def Likeness.along (tokens : Token → Prop) (image : Token → Token)
    (alike : ∀ token : Token, token.Alike (image token)) : Likeness where
  Holds token other := tokens token ∧ other = image token
  alike := by
    rintro token _ ⟨_, rfl⟩
    exact alike token

/-- That each token of a set corresponds to itself. -/
def Likeness.only (tokens : Token → Prop) : Likeness :=
  .along tokens id fun _ => ⟨rfl, rfl, rfl⟩

theorem Likeness.forall₂_only {tokens : Token → Prop} {list : List Token}
    (all : ∀ token ∈ list, tokens token) : List.Forall₂ (Likeness.only tokens).Holds list list :=
  List.forall₂_same.2 fun token member => ⟨all token member, rfl⟩

/-- That two expressions have the same shape and corresponding tokens. -/
inductive Expr.Corresponds (likeness : Likeness) : Expr → Expr → Prop
  | literal (value : Constant) : Corresponds likeness (.literal value) (.literal value)
  | grouping {inner inner' : Expr} (inners : Corresponds likeness inner inner') :
      Corresponds likeness (.grouping inner) (.grouping inner')
  | unary {operator operator' : Token} {operand operand' : Expr}
      (operators : likeness.Holds operator operator')
      (operands : Corresponds likeness operand operand') :
      Corresponds likeness (.unary operator operand) (.unary operator' operand')
  | binary {left left' right right' : Expr} {operator operator' : Token}
      (lefts : Corresponds likeness left left') (operators : likeness.Holds operator operator')
      (rights : Corresponds likeness right right') :
      Corresponds likeness (.binary left operator right) (.binary left' operator' right')
  | logical {left left' right right' : Expr} {operator operator' : Token}
      (lefts : Corresponds likeness left left') (operators : likeness.Holds operator operator')
      (rights : Corresponds likeness right right') :
      Corresponds likeness (.logical left operator right) (.logical left' operator' right')
  | read {name name' : Token} (names : likeness.Holds name name') :
      Corresponds likeness (.read name) (.read name')
  | assign {name name' : Token} {value value' : Expr} (names : likeness.Holds name name')
      (values : Corresponds likeness value value') :
      Corresponds likeness (.assign name value) (.assign name' value')
  | call {callee callee' : Expr} {paren paren' : Token} {arguments arguments' : List Expr}
      (callees : Corresponds likeness callee callee') (parens : likeness.Holds paren paren')
      (argumentLists : List.Forall₂ (Corresponds likeness) arguments arguments') :
      Corresponds likeness (.call callee paren arguments) (.call callee' paren' arguments')

/-- That two statements have the same shape and corresponding tokens. -/
inductive Stmt.Corresponds (likeness : Likeness) : Stmt → Stmt → Prop
  | expression {value value' : Expr} (values : value.Corresponds likeness value') :
      Corresponds likeness (.expression value) (.expression value')
  | print {value value' : Expr} (values : value.Corresponds likeness value') :
      Corresponds likeness (.print value) (.print value')
  | declare {name name' : Token} {value value' : Option Expr}
      (names : likeness.Holds name name')
      (values : Option.Rel (Expr.Corresponds likeness) value value') :
      Corresponds likeness (.declare name value) (.declare name' value')
  | block {body body' : List Stmt} (bodies : List.Forall₂ (Corresponds likeness) body body') :
      Corresponds likeness (.block body) (.block body')
  | ifThen {condition condition' : Expr} {thenBranch thenBranch' : Stmt}
      (conditions : condition.Corresponds likeness condition')
      (thenBranches : Corresponds likeness thenBranch thenBranch') :
      Corresponds likeness (.ifThen condition thenBranch) (.ifThen condition' thenBranch')
  | ifElse {condition condition' : Expr} {thenBranch thenBranch' elseBranch elseBranch' : Stmt}
      (conditions : condition.Corresponds likeness condition')
      (thenBranches : Corresponds likeness thenBranch thenBranch')
      (elseBranches : Corresponds likeness elseBranch elseBranch') :
      Corresponds likeness (.ifElse condition thenBranch elseBranch)
        (.ifElse condition' thenBranch' elseBranch')
  | whileDo {condition condition' : Expr} {body body' : Stmt}
      (conditions : condition.Corresponds likeness condition')
      (bodies : Corresponds likeness body body') :
      Corresponds likeness (.whileDo condition body) (.whileDo condition' body')
  | function {name name' : Token} {parameters parameters' : List Token} {body body' : List Stmt}
      (names : likeness.Holds name name')
      (parameterLists : List.Forall₂ likeness.Holds parameters parameters')
      (bodies : List.Forall₂ (Corresponds likeness) body body') :
      Corresponds likeness (.function name parameters body) (.function name' parameters' body')
  | ret {keyword keyword' : Token} {value value' : Option Expr}
      (keywords : likeness.Holds keyword keyword')
      (values : Option.Rel (Expr.Corresponds likeness) value value') :
      Corresponds likeness (.ret keyword value) (.ret keyword' value')

mutual

/-- The tokens that an expression keeps. -/
def Expr.tokens : Expr → List Token
  | .literal _ => []
  | .grouping inner => inner.tokens
  | .unary operator operand => operator :: operand.tokens
  | .binary left operator right => left.tokens ++ operator :: right.tokens
  | .logical left operator right => left.tokens ++ operator :: right.tokens
  | .read name => [name]
  | .assign name value => name :: value.tokens
  | .call callee paren arguments => callee.tokens ++ paren :: Expr.tokensOfAll arguments

/-- The tokens that some expressions keep. -/
def Expr.tokensOfAll : List Expr → List Token
  | [] => []
  | expr :: exprs => expr.tokens ++ Expr.tokensOfAll exprs

end

mutual

/-- The tokens that a statement keeps. -/
def Stmt.tokens : Stmt → List Token
  | .expression value => value.tokens
  | .print value => value.tokens
  | .declare name none => [name]
  | .declare name (some value) => name :: value.tokens
  | .block body => Stmt.tokensOfAll body
  | .ifThen condition thenBranch => condition.tokens ++ thenBranch.tokens
  | .ifElse condition thenBranch elseBranch =>
    condition.tokens ++ thenBranch.tokens ++ elseBranch.tokens
  | .whileDo condition body => condition.tokens ++ body.tokens
  | .function name parameters body => name :: parameters ++ Stmt.tokensOfAll body
  | .ret keyword none => [keyword]
  | .ret keyword (some value) => keyword :: value.tokens

/-- The tokens that some statements keep. -/
def Stmt.tokensOfAll : List Stmt → List Token
  | [] => []
  | statement :: statements => statement.tokens ++ Stmt.tokensOfAll statements

end

mutual

/-- An expression with an image in the place of every token. -/
def Expr.mapTokens (image : Token → Token) : Expr → Expr
  | .literal value => .literal value
  | .grouping inner => .grouping (inner.mapTokens image)
  | .unary operator operand => .unary (image operator) (operand.mapTokens image)
  | .binary left operator right =>
    .binary (left.mapTokens image) (image operator) (right.mapTokens image)
  | .logical left operator right =>
    .logical (left.mapTokens image) (image operator) (right.mapTokens image)
  | .read name => .read (image name)
  | .assign name value => .assign (image name) (value.mapTokens image)
  | .call callee paren arguments =>
    .call (callee.mapTokens image) (image paren) (Expr.mapAllTokens image arguments)

def Expr.mapAllTokens (image : Token → Token) : List Expr → List Expr
  | [] => []
  | first :: rest => first.mapTokens image :: Expr.mapAllTokens image rest

end

mutual

/-- A statement with an image in the place of every token. -/
def Stmt.mapTokens (image : Token → Token) : Stmt → Stmt
  | .expression value => .expression (value.mapTokens image)
  | .print value => .print (value.mapTokens image)
  | .declare name initializer =>
    .declare (image name) (initializer.map (Expr.mapTokens image))
  | .block body => .block (Stmt.mapAllTokens image body)
  | .ifThen condition thenBranch =>
    .ifThen (condition.mapTokens image) (thenBranch.mapTokens image)
  | .ifElse condition thenBranch elseBranch =>
    .ifElse (condition.mapTokens image) (thenBranch.mapTokens image) (elseBranch.mapTokens image)
  | .whileDo condition body => .whileDo (condition.mapTokens image) (body.mapTokens image)
  | .function name parameters body =>
    .function (image name) (parameters.map image) (Stmt.mapAllTokens image body)
  | .ret keyword value => .ret (image keyword) (value.map (Expr.mapTokens image))

def Stmt.mapAllTokens (image : Token → Token) : List Stmt → List Stmt
  | [] => []
  | first :: rest => first.mapTokens image :: Stmt.mapAllTokens image rest

end

theorem Stmt.mapAllTokens_eq (image : Token → Token) (statements : List Stmt) :
    mapAllTokens image statements = statements.map (mapTokens image) := by
  induction statements with
  | nil => rfl
  | cons first rest ih => rw [mapAllTokens, ih, List.map_cons]

section Images

variable {likeness : Likeness} {image : Token → Token}

mutual

/-- An expression corresponds to its image if its tokens do. -/
theorem Expr.corresponds_mapTokens (expr : Expr)
    (holds : ∀ token ∈ expr.tokens, likeness.Holds token (image token)) :
    expr.Corresponds likeness (expr.mapTokens image) := by
  cases expr with
  | literal value => exact .literal value
  | grouping inner => exact .grouping (inner.corresponds_mapTokens holds)
  | unary operator operand =>
      rw [Expr.tokens, List.forall_mem_cons] at holds
      exact .unary holds.1 (operand.corresponds_mapTokens holds.2)
  | binary left operator right =>
      simp only [Expr.tokens, List.forall_mem_append, List.forall_mem_cons] at holds
      exact .binary (left.corresponds_mapTokens holds.1) holds.2.1
        (right.corresponds_mapTokens holds.2.2)
  | logical left operator right =>
      simp only [Expr.tokens, List.forall_mem_append, List.forall_mem_cons] at holds
      exact .logical (left.corresponds_mapTokens holds.1) holds.2.1
        (right.corresponds_mapTokens holds.2.2)
  | read name => exact .read (holds name (by simp [Expr.tokens]))
  | assign name value =>
      rw [Expr.tokens, List.forall_mem_cons] at holds
      exact .assign holds.1 (value.corresponds_mapTokens holds.2)
  | call callee paren arguments =>
      simp only [Expr.tokens, List.forall_mem_append, List.forall_mem_cons] at holds
      exact .call (callee.corresponds_mapTokens holds.1) holds.2.1
        (Expr.correspond_mapAllTokens arguments holds.2.2)

theorem Expr.correspond_mapAllTokens (exprs : List Expr)
    (holds : ∀ token ∈ Expr.tokensOfAll exprs, likeness.Holds token (image token)) :
    List.Forall₂ (Expr.Corresponds likeness) exprs (Expr.mapAllTokens image exprs) := by
  cases exprs with
  | nil => exact .nil
  | cons first rest =>
      rw [Expr.tokensOfAll, List.forall_mem_append] at holds
      exact .cons (first.corresponds_mapTokens holds.1)
        (Expr.correspond_mapAllTokens rest holds.2)

end

mutual

/-- A statement corresponds to its image if its tokens do. -/
theorem Stmt.corresponds_mapTokens (statement : Stmt)
    (holds : ∀ token ∈ statement.tokens, likeness.Holds token (image token)) :
    statement.Corresponds likeness (statement.mapTokens image) := by
  cases statement with
  | expression value => exact .expression (value.corresponds_mapTokens holds)
  | print value => exact .print (value.corresponds_mapTokens holds)
  | declare name initializer =>
      cases initializer with
      | none => exact .declare (holds name (by simp [Stmt.tokens])) .none
      | some value =>
          rw [Stmt.tokens, List.forall_mem_cons] at holds
          exact .declare holds.1 (.some (value.corresponds_mapTokens holds.2))
  | block body => exact .block (Stmt.correspond_mapAllTokens body holds)
  | ifThen condition thenBranch =>
      rw [Stmt.tokens, List.forall_mem_append] at holds
      exact .ifThen (condition.corresponds_mapTokens holds.1)
        (thenBranch.corresponds_mapTokens holds.2)
  | ifElse condition thenBranch elseBranch =>
      rw [Stmt.tokens, List.forall_mem_append, List.forall_mem_append] at holds
      exact .ifElse (condition.corresponds_mapTokens holds.1.1)
        (thenBranch.corresponds_mapTokens holds.1.2) (elseBranch.corresponds_mapTokens holds.2)
  | whileDo condition body =>
      rw [Stmt.tokens, List.forall_mem_append] at holds
      exact .whileDo (condition.corresponds_mapTokens holds.1) (body.corresponds_mapTokens holds.2)
  | function name parameters body =>
      simp only [Stmt.tokens, List.forall_mem_append, List.forall_mem_cons] at holds
      exact .function holds.1.1
        (List.forall₂_map_right_iff.2 (List.forall₂_same.2 holds.1.2))
        (Stmt.correspond_mapAllTokens body holds.2)
  | ret keyword value =>
      cases value with
      | none => exact .ret (holds keyword (by simp [Stmt.tokens])) .none
      | some value =>
          rw [Stmt.tokens, List.forall_mem_cons] at holds
          exact .ret holds.1 (.some (value.corresponds_mapTokens holds.2))

theorem Stmt.correspond_mapAllTokens (statements : List Stmt)
    (holds : ∀ token ∈ Stmt.tokensOfAll statements, likeness.Holds token (image token)) :
    List.Forall₂ (Stmt.Corresponds likeness) statements (Stmt.mapAllTokens image statements) := by
  cases statements with
  | nil => exact .nil
  | cons first rest =>
      rw [Stmt.tokensOfAll, List.forall_mem_append] at holds
      exact .cons (first.corresponds_mapTokens holds.1)
        (Stmt.correspond_mapAllTokens rest holds.2)

end

end Images

section Identity

variable {tokens : Token → Prop}

theorem Likeness.eq_of_forall₂_only {list list' : List Token}
    (holds : List.Forall₂ (Likeness.only tokens).Holds list list') : list' = list := by
  induction holds with
  | nil => rfl
  | cons same _ ih => rw [same.2, ih, id]

mutual

/-- Expressions whose tokens are the same are equal. -/
theorem Expr.Corresponds.eq_of_only {expr expr' : Expr}
    (exprs : expr.Corresponds (.only tokens) expr') : expr' = expr := by
  cases exprs with
  | literal value => rfl
  | grouping inners => rw [inners.eq_of_only]
  | unary operators operands => rw [operators.2, operands.eq_of_only, id]
  | binary lefts operators rights =>
      rw [lefts.eq_of_only, operators.2, rights.eq_of_only, id]
  | logical lefts operators rights =>
      rw [lefts.eq_of_only, operators.2, rights.eq_of_only, id]
  | read names => rw [names.2, id]
  | assign names values => rw [names.2, values.eq_of_only, id]
  | call callees parens argumentLists =>
      rw [callees.eq_of_only, parens.2, Expr.eq_of_forall₂_only argumentLists, id]

theorem Expr.eq_of_forall₂_only {exprs exprs' : List Expr}
    (correspond : List.Forall₂ (Expr.Corresponds (.only tokens)) exprs exprs') :
    exprs' = exprs := by
  cases correspond with
  | nil => rfl
  | cons firsts rests => rw [firsts.eq_of_only, Expr.eq_of_forall₂_only rests]

end

theorem Expr.eq_of_rel_only {expr expr' : Option Expr}
    (exprs : Option.Rel (Expr.Corresponds (.only tokens)) expr expr') : expr' = expr := by
  cases exprs with
  | none => rfl
  | some exprs => rw [exprs.eq_of_only]

mutual

/-- Statements whose tokens are the same are equal. -/
theorem Stmt.Corresponds.eq_of_only {statement statement' : Stmt}
    (statements : statement.Corresponds (.only tokens) statement') : statement' = statement := by
  cases statements with
  | expression values => rw [values.eq_of_only]
  | print values => rw [values.eq_of_only]
  | declare names values => rw [names.2, Expr.eq_of_rel_only values, id]
  | block bodies => rw [Stmt.eq_of_forall₂_only bodies]
  | ifThen conditions thenBranches => rw [conditions.eq_of_only, thenBranches.eq_of_only]
  | ifElse conditions thenBranches elseBranches =>
      rw [conditions.eq_of_only, thenBranches.eq_of_only, elseBranches.eq_of_only]
  | whileDo conditions bodies => rw [conditions.eq_of_only, bodies.eq_of_only]
  | function names parameterLists bodies =>
      rw [names.2, Likeness.eq_of_forall₂_only parameterLists, Stmt.eq_of_forall₂_only bodies, id]
  | ret keywords values => rw [keywords.2, Expr.eq_of_rel_only values, id]

theorem Stmt.eq_of_forall₂_only {statements statements' : List Stmt}
    (correspond : List.Forall₂ (Stmt.Corresponds (.only tokens)) statements statements') :
    statements' = statements := by
  cases correspond with
  | nil => rfl
  | cons firsts rests => rw [firsts.eq_of_only, Stmt.eq_of_forall₂_only rests]

end

end Identity

section Reflexivity

variable {likeness : Likeness}

/-- An expression corresponds to itself if its tokens do. -/
theorem Expr.corresponds_self (expr : Expr)
    (holds : ∀ token ∈ expr.tokens, likeness.Holds token token) :
    expr.Corresponds likeness expr := by
  have images : expr.Corresponds likeness (expr.mapTokens id) := expr.corresponds_mapTokens holds
  have same : expr.Corresponds (.only fun _ => True) (expr.mapTokens id) :=
    expr.corresponds_mapTokens fun _ _ => ⟨trivial, rfl⟩
  rwa [same.eq_of_only] at images

/-- A statement corresponds to itself if its tokens do. -/
theorem Stmt.corresponds_self (statement : Stmt)
    (holds : ∀ token ∈ statement.tokens, likeness.Holds token token) :
    statement.Corresponds likeness statement := by
  have images : statement.Corresponds likeness (statement.mapTokens id) :=
    statement.corresponds_mapTokens holds
  have same : statement.Corresponds (.only fun _ => True) (statement.mapTokens id) :=
    statement.corresponds_mapTokens fun _ _ => ⟨trivial, rfl⟩
  rwa [same.eq_of_only] at images

theorem Stmt.correspond_selves (statements : List Stmt)
    (holds : ∀ token ∈ Stmt.tokensOfAll statements, likeness.Holds token token) :
    List.Forall₂ (Stmt.Corresponds likeness) statements statements := by
  induction statements with
  | nil => exact .nil
  | cons statement statements ih =>
      rw [Stmt.tokensOfAll, List.forall_mem_append] at holds
      exact .cons (statement.corresponds_self holds.1) (ih holds.2)

end Reflexivity

end Scriptlet
