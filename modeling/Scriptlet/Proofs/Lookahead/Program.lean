import Scriptlet.Proofs.Lookahead.Statement
import Scriptlet.Proofs.Sequel

/-!
# The first error is at the first impossible token

Programs are foreseen. The tokens before the first error at which something is given up can
therefore be completed to a program, and no program goes on with the token at the error
(`first_error_at_impossible_token`).
-/

namespace Scriptlet

open Scriptlet.Parser

/-- That errors were only noted down, and nothing was given up at them. -/
def OnlyMinor (errors : List SyntaxError) : Prop :=
  ∀ error ∈ errors, error.IsMinor

@[simp]
theorem onlyMinor_nil : OnlyMinor [] := by
  simp [OnlyMinor]

@[simp]
theorem onlyMinor_append {errors others : List SyntaxError} :
    OnlyMinor (errors ++ others) ↔ OnlyMinor errors ∧ OnlyMinor others := by
  simp [OnlyMinor, or_imp, forall_and]

theorem onlyMinor_map {cause : SyntaxError.Cause} (isMinor : ∀ what, cause ≠ .missing what)
    (tokens : List Token) : OnlyMinor (tokens.map (⟨cause, ·⟩)) := by
  intro error mem
  rcases List.mem_map.1 mem with ⟨token, _, rfl⟩
  exact isMinor

namespace ExprPhrase

@[simp]
theorem onlyMinor_targetErrors (target : Expr) (equals : Token) :
    OnlyMinor (targetErrors target equals) := by
  unfold targetErrors
  split
  · exact onlyMinor_nil
  · exact onlyMinor_map (by simp) [equals]

@[simp]
theorem onlyMinor_excessErrors (before : Nat) (item : List Token) :
    OnlyMinor (excessErrors maxArguments .tooManyArguments before item) := by
  unfold excessErrors
  split
  · exact onlyMinor_map (by simp) _
  · exact onlyMinor_nil

@[simp]
theorem onlyMinor_errors {symbol : Symbol} (phrase : ExprPhrase symbol) :
    OnlyMinor phrase.errors := by
  induction phrase <;> simp [*]

end ExprPhrase

@[simp]
theorem OptionalPhrase.onlyMinor_errors (phrase : OptionalPhrase) : OnlyMinor phrase.errors := by
  cases phrase <;> simp [OptionalPhrase.errors]

theorem StmtPhrase.onlyMinor_errors {symbol : Symbol} (phrase : StmtPhrase symbol)
    (inFunction : Bool) : OnlyMinor (phrase.errors inFunction) := by
  induction phrase generalizing inFunction with
  | function keyword head body closing ih =>
      rw [errors, onlyMinor_append]
      exact ⟨onlyMinor_map (by simp) _, ih true⟩
  | ret keyword value semicolon =>
      rw [errors, onlyMinor_append]
      refine ⟨?_, value.onlyMinor_errors⟩
      split
      · exact onlyMinor_nil
      · exact onlyMinor_map (by simp) [keyword.token]
  | _ => simp [*]

theorem ProgramPhrase.onlyMinor_errors (program : ProgramPhrase) : OnlyMinor program.errors := by
  intro error mem
  rcases List.mem_flatMap.1 mem with ⟨declaration, _, isError⟩
  exact declaration.onlyMinor_errors false error isError

/-- That tokens are the beginning of a program with its end mark. -/
def Viable (tokens : List Token) : Prop :=
  ∃ (program : ProgramPhrase) (ending : Terminal [.eof]),
    tokens <+: program.tokens ++ [ending.token]

theorem Grammar.program_foresees (depth : Nat) (rounds : List Token) :
    Foresees (fun tokens => ∃ program : ProgramPhrase, program.tokens = tokens)
      (fun bounds => program bounds.depth) ⟨depth, rounds⟩ :=
  statements_foresees rounds .eof (declaration · false) (declaration_foresees depth false)

/--
The first error at which something is given up is at the first impossible token: what stands before
that token is the beginning of a program, and with the token it is not.
-/
theorem first_error_at_impossible_token {depth : Nat} {tokens : List Token} {parsed : Parsed}
    (read : parse depth tokens = .ok parsed) {error : SyntaxError}
    (isFirst : parsed.errors.find? SyntaxError.isMajor = some error) :
    ∃ before after, tokens = before ++ error.token :: after ∧ Viable before ∧
      ¬Viable (before ++ [error.token]) := by
  rcases Grammar.program_of_parse read with ⟨_, programRead⟩
  have isMajor : (Grammar.program depth tokens).major? = some error := by
    rw [programRead]
    exact isFirst
  rcases (Grammar.program_foresees depth [] tokens).broken isMajor with
    ⟨before, rest, rfl, isError, ⟨completion, program, isProgram⟩, settled⟩
  rcases List.head?_eq_some_iff.1 isError with ⟨after, rfl⟩
  refine ⟨before, after, rfl, ⟨program, default, ?_⟩, ?_⟩
  · rw [isProgram, List.append_assoc]
    exact List.prefix_append before _
  · rintro ⟨other, ending, behind, isOther⟩
    rw [List.append_assoc, List.singleton_append] at isOther
    have otherRead := parse_program other ending other.height
    rw [if_pos (Nat.le_refl _), ← isOther] at otherRead
    rcases Grammar.program_of_parse otherRead with ⟨_, isDone⟩
    -- Reading a program that goes on with this token would be given up there, too.
    have gaveUp := settled (error.token :: behind) rfl ⟨other.height, []⟩
    simp only [isDone] at gaveUp
    rcases gaveUp with ⟨_, isHalted⟩ | isFound
    · contradiction
    · exact SyntaxError.isMajor_iff.1 (List.find?_some isFound)
        (other.onlyMinor_errors error (List.mem_of_find?_eq_some isFound))

/--
In `1 = a; if (a) b; else else c;` the error at `=` is only noted down, and the first impossible
token is the second `else`.
-/
theorem first_error_at_impossible_token_else :
    let token := fun (kind : Token.Kind) (lexeme : String) => Token.mk kind lexeme .null 1
    let tokens :=
      [token .number "1", token .equal "=", token .identifier "a", token .semicolon ";",
        token .kwIf "if", token .leftParen "(", token .identifier "a", token .rightParen ")",
        token .identifier "b", token .semicolon ";", token .kwElse "else", token .kwElse "else",
        token .identifier "c", token .semicolon ";", token .eof ""]
    let error := SyntaxError.mk (.missing .expression) (token .kwElse "else")
    ∃ parsed, parse 20 tokens = .ok parsed ∧
      parsed.errors = [⟨.invalidTarget, token .equal "="⟩, error] ∧
      parsed.errors.find? SyntaxError.isMajor = some error ∧
      ∃ before after, tokens = before ++ token .kwElse "else" :: after ∧ Viable before ∧
        ¬Viable (before ++ [token .kwElse "else"]) := by
  intro token tokens error
  have read : parse 20 tokens =
      .ok ⟨[.expression (.literal .null)], [⟨.invalidTarget, token .equal "="⟩, error]⟩ := rfl
  exact ⟨_, read, rfl, rfl, first_error_at_impossible_token read rfl⟩

end Scriptlet
