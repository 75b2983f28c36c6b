import Scriptlet.SyntaxError
import Scriptlet.Tree

/-!
# Parsers

A parser reads a beginning of a token list. It either succeeds with a value, or fails at the token
that comes next, and in both cases leaves the tokens it did not read and the errors it noted down
on the way. Apart from that it can come to a halt, when it nests too deeply or runs off a token
list that has no end mark; nothing is then read any further.

A loop is bounded by the tokens themselves: each round reads at least one of them, and sets one of
the bounding list aside.
-/

namespace Scriptlet

/-- Why parsing came to a halt. -/
inductive Halt where
  | tooDeep
  | missingEnd
  deriving DecidableEq, Repr

/-- What a parser comes to. -/
inductive Reply (α : Type) where
  | done (value : α) (rest : List Token) (noted : List SyntaxError)
  | failed (error : SyntaxError) (rest : List Token) (noted : List SyntaxError)
  | halted (reason : Halt)

namespace Reply

/-- The same reply with errors noted down before it. -/
def noting {α : Type} (noted : List SyntaxError) : Reply α → Reply α
  | done value rest later => done value rest (noted ++ later)
  | failed error rest later => failed error rest (noted ++ later)
  | halted reason => halted reason

@[simp]
theorem noting_nil {α : Type} (reply : Reply α) : reply.noting [] = reply := by
  cases reply <;> rfl

@[simp]
theorem noting_noting {α : Type} (first second : List SyntaxError) (reply : Reply α) :
    (reply.noting second).noting first = reply.noting (first ++ second) := by
  cases reply <;> simp [noting]

end Reply

/-- A reader of a beginning of a token list. -/
def Parser (α : Type) : Type :=
  List Token → Reply α

namespace Parser

variable {α β : Type}

/-- Reads nothing. -/
protected def pure (value : α) : Parser α :=
  fun tokens => .done value tokens []

/-- Reads with one parser, then with the one that its value selects. -/
protected def bind (first : Parser α) (next : α → Parser β) : Parser β :=
  fun tokens =>
    match first tokens with
    | .done value rest noted => (next value rest).noting noted
    | .failed error rest noted => .failed error rest noted
    | .halted reason => .halted reason

instance : Monad Parser where
  pure := Parser.pure
  bind := Parser.bind

/-- Reading in three stages can be grouped either way. -/
theorem bind_assoc {γ : Type} (first : Parser α) (second : α → Parser β) (third : β → Parser γ) :
    (first >>= second) >>= third = first >>= fun value => second value >>= third := by
  funext tokens
  change Parser.bind (Parser.bind first second) third tokens =
    Parser.bind first (fun value => Parser.bind (second value) third) tokens
  unfold Parser.bind
  cases first tokens with
  | halted reason => rfl
  | failed error rest noted => rfl
  | done value rest noted =>
    dsimp only
    cases second value rest with
    | halted reason => rfl
    | failed error rest later => rfl
    | done next rest later => exact (Reply.noting_noting ..).symm

instance : LawfulMonad Parser :=
  LawfulMonad.mk' Parser
    (fun first => by
      funext tokens
      change Parser.bind first Parser.pure tokens = first tokens
      unfold Parser.bind
      cases first tokens <;> simp [Parser.pure, Reply.noting])
    (fun value next => by
      funext tokens
      change (next value tokens).noting [] = next value tokens
      simp)
    bind_assoc

/-- Comes to a halt. -/
def halt (reason : Halt) : Parser α :=
  fun _ => .halted reason

/-- The next token, which is not read yet. -/
def peek : Parser Token
  | [] => .halted .missingEnd
  | token :: rest => .done token (token :: rest) []

/-- Reads the next token if it is of one of the given kinds. -/
def accept (kinds : List Token.Kind) : Parser (Option Token)
  | [] => .halted .missingEnd
  | token :: rest =>
    if token.kind ∈ kinds then .done (some token) rest [] else .done none (token :: rest) []

/-- Fails at the next token. -/
def fail (missing : Missing) : Parser α
  | [] => .halted .missingEnd
  | token :: rest => .failed ⟨.missing missing, token⟩ (token :: rest) []

/-- Reads a token of the given kind. -/
def expect (kind : Token.Kind) (missing : Missing) : Parser Token
  | [] => .halted .missingEnd
  | token :: rest =>
    if token.kind = kind then .done token rest []
    else .failed ⟨.missing missing, token⟩ (token :: rest) []

/-- Notes down an error and goes on. -/
def note (cause : SyntaxError.Cause) (token : Token) : Parser Unit :=
  fun tokens => .done () tokens [⟨cause, token⟩]

/-- Runs a loop that goes round at most once for each of the tokens. -/
def bounded (loop : List Token → Parser α) : Parser α :=
  fun tokens => loop tokens tokens

/-- Whether the next token is of the given kind. -/
def isNext (kind : Token.Kind) : Parser Bool := do
  return (← peek).kind = kind

/-- Goes on from `left` with operators and right operands, grouped to the left. -/
def operations (operators : List Token.Kind) (operand : Parser Expr)
    (combine : Expr → Token → Expr → Expr) : List Token → Expr → Parser Expr
  | [], _ => halt .missingEnd
  | _ :: rounds, left => do
    match ← accept operators with
    | none => return left
    | some operator =>
      let right ← operand
      operations operators operand combine rounds (combine left operator right)

/--
Items with commas between them, at least one, when `count` items stand before them. From the
`limit`-th item on, an error is noted down at the beginning of each.
-/
def separated (limit : Nat) (excess : SyntaxError.Cause) (item : Parser α) :
    List Token → Nat → Parser (List α)
  | [], _ => halt .missingEnd
  | _ :: rounds, count => do
    if limit ≤ count then note excess (← peek)
    let first ← item
    match ← accept [.comma] with
    | none => return [first]
    | some _ =>
      let rest ← separated limit excess item rounds (count + 1)
      return first :: rest

/-- Items with commas between them, none if a closing parenthesis is next. -/
def commaList (limit : Nat) (excess : SyntaxError.Cause) (item : Parser α) : Parser (List α) := do
  if ← isNext .rightParen then return []
  bounded fun rounds => separated limit excess item rounds 0

/-- Statements up to a token of the kind `stop` or the end. Those that were given up are left out. -/
def statements (stop : Token.Kind) (declaration : Parser (Option Stmt)) :
    List Token → Parser (List Stmt)
  | [] => halt .missingEnd
  | _ :: rounds => do
    let next ← peek
    if next.kind = .eof ∨ next.kind = stop then return []
    let first ← declaration
    let rest ← statements stop declaration rounds
    return first.toList ++ rest

/-- The kinds of tokens that most likely begin a statement. -/
def statementStarts : List Token.Kind :=
  [.kwFun, .kwVar, .kwFor, .kwIf, .kwWhile, .kwPrint, .kwReturn]

/-- Skips tokens up to the likely beginning of a statement, after a token of kind `previous`. -/
def skipFrom (previous : Token.Kind) : List Token → Option (List Token)
  | [] => none
  | token :: rest =>
    if token.kind = .eof ∨ previous = .semicolon ∨ token.kind ∈ statementStarts then
      some (token :: rest)
    else
      skipFrom token.kind rest

/--
Skips at least one token, unless the end is reached, up to the likely beginning of a statement.
There is none if the tokens have no end mark.
-/
def resume? : List Token → Option (List Token)
  | [] => none
  | token :: rest => if token.kind = .eof then some (token :: rest) else skipFrom token.kind rest

/-- Gives up at a failure, notes the error down, and resumes at the next statement. -/
def recovering (parser : Parser α) : Parser (Option α) :=
  fun tokens =>
    match parser tokens with
    | .done value rest noted => .done (some value) rest noted
    | .failed error rest noted =>
      match resume? rest with
      | some rest => .done none rest (noted ++ [error])
      | none => .halted .missingEnd
    | .halted reason => .halted reason

end Parser

end Scriptlet
