import Scriptlet.Tree

/-!
# Listings

`Stmt.listing` writes a tree in a fully parenthesised form with the operator in front, so that
`print 1 + 2 * 3;` is listed as `(print (+ 1 (* 2 3)))`. The `nesting` of a tree is the number of
nodes on its longest path; listing a tree nests as deeply as the tree does.
-/

namespace Scriptlet

/-- A form of the listing: its parts, separated by spaces, in parentheses. -/
def listingForm (parts : List String) : String :=
  "(" ++ " ".intercalate parts ++ ")"

mutual

/-- The listing of an expression. -/
def Expr.listing : Expr → String
  | .literal value => value.listing
  | .grouping inner => listingForm ["group", inner.listing]
  | .unary operator operand => listingForm [operator.lexeme, operand.listing]
  | .binary left operator right =>
    listingForm [operator.lexeme, left.listing, right.listing]
  | .logical left operator right =>
    listingForm [operator.lexeme, left.listing, right.listing]
  | .read name => name.lexeme
  | .assign name value => listingForm ["=", name.lexeme, value.listing]
  | .call callee _ arguments =>
    listingForm ("call" :: callee.listing :: Expr.listings arguments)

/-- The listings of expressions. -/
def Expr.listings : List Expr → List String
  | [] => []
  | first :: rest => first.listing :: Expr.listings rest

end

mutual

/-- The listing of a statement. -/
def Stmt.listing : Stmt → String
  | .expression value => listingForm [";", value.listing]
  | .print value => listingForm ["print", value.listing]
  | .declare name none => listingForm ["var", name.lexeme]
  | .declare name (some value) => listingForm ["var", name.lexeme, "=", value.listing]
  | .block body => listingForm ("block" :: Stmt.listings body)
  | .ifThen condition thenBranch =>
    listingForm ["if", condition.listing, thenBranch.listing]
  | .ifElse condition thenBranch elseBranch =>
    listingForm ["if", condition.listing, thenBranch.listing, elseBranch.listing]
  | .whileDo condition body => listingForm ["while", condition.listing, body.listing]
  | .function name parameters body =>
    listingForm ("fun" :: (name.lexeme ++ listingForm (parameters.map Token.lexeme)) ::
      Stmt.listings body)
  | .ret _ none => listingForm ["return"]
  | .ret _ (some value) => listingForm ["return", value.listing]

/-- The listings of statements. -/
def Stmt.listings : List Stmt → List String
  | [] => []
  | first :: rest => first.listing :: Stmt.listings rest

end

/-- The listing of a program, one statement after the other on lines of their own. -/
def listing (statements : List Stmt) : String :=
  "\n".intercalate (Stmt.listings statements)

mutual

/-- The number of nodes on the longest path of an expression. -/
def Expr.nesting : Expr → Nat
  | .literal _ => 1
  | .grouping inner => inner.nesting + 1
  | .unary _ operand => operand.nesting + 1
  | .binary left _ right => max left.nesting right.nesting + 1
  | .logical left _ right => max left.nesting right.nesting + 1
  | .read _ => 1
  | .assign _ value => value.nesting + 1
  | .call callee _ arguments => max callee.nesting (Expr.greatestNesting arguments) + 1

/-- The greatest nesting among expressions. -/
def Expr.greatestNesting : List Expr → Nat
  | [] => 0
  | first :: rest => max first.nesting (Expr.greatestNesting rest)

end

mutual

/-- The number of nodes on the longest path of a statement. -/
def Stmt.nesting : Stmt → Nat
  | .expression value => value.nesting + 1
  | .print value => value.nesting + 1
  | .declare _ none => 1
  | .declare _ (some value) => value.nesting + 1
  | .block body => Stmt.greatestNesting body + 1
  | .ifThen condition thenBranch => max condition.nesting thenBranch.nesting + 1
  | .ifElse condition thenBranch elseBranch =>
    max condition.nesting (max thenBranch.nesting elseBranch.nesting) + 1
  | .whileDo condition body => max condition.nesting body.nesting + 1
  | .function _ _ body => Stmt.greatestNesting body + 1
  | .ret _ none => 1
  | .ret _ (some value) => value.nesting + 1

/-- The greatest nesting among statements. -/
def Stmt.greatestNesting : List Stmt → Nat
  | [] => 0
  | first :: rest => max first.nesting (Stmt.greatestNesting rest)

end

end Scriptlet
