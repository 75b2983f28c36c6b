import Scriptlet.Proofs.Completeness.Program
import Scriptlet.Proofs.Soundness.Program
import Scriptlet.Proofs.Truncation.Grammar

/-!
# What follows a program

A program is read one declaration after the other, and no declaration looks further than the token
behind it, where alone an `else` would make a difference. Tokens behind a program without errors
are therefore read as if the program were not there, whatever is wrong with them
(`parse_after_program`).
-/

namespace Scriptlet

open Scriptlet.Parser

namespace Parser

/-- Two sequences agree if their first parsers do, and what follows agrees where these leave off. -/
theorem bind_eq_bind {α β : Type} {first first' : Parser α} {next next' : α → Parser β}
    {tokens : List Token} (same : first tokens = first' tokens)
    (sameNext : ∀ value rest noted, first tokens = .done value rest noted →
      next value rest = next' value rest) :
    (first >>= next) tokens = (first' >>= next') tokens := by
  cases read : first tokens with
  | done value rest noted =>
      rw [bind_of_done read, bind_of_done (same.symm.trans read), sameNext value rest noted read]
  | failed error rest noted => rw [bind_of_failed read, bind_of_failed (same.symm.trans read)]
  | halted reason => rw [bind_of_halted read, bind_of_halted (same.symm.trans read)]

/-- As many rounds as there are tokens are enough, and more make no difference. -/
theorem statements_rounds {stop : Token.Kind} {declaration : Parser (Option Stmt)}
    (shorter : ∀ {token tokens result rest noted}, token.kind ≠ .eof →
      declaration (token :: tokens) = .done result rest noted →
      rest.length < (token :: tokens).length)
    {rounds rounds' tokens : List Token} (enough : tokens.length ≤ rounds.length)
    (enough' : tokens.length ≤ rounds'.length) :
    statements stop declaration rounds tokens = statements stop declaration rounds' tokens := by
  induction rounds generalizing rounds' tokens with
  | nil =>
      obtain rfl := List.length_eq_zero_iff.1 (Nat.le_zero.1 enough)
      cases rounds' <;> rfl
  | cons round rounds ih =>
      cases tokens with
      | nil => cases rounds' <;> rfl
      | cons token tokens =>
          cases rounds' with
          | nil => contradiction
          | cons round' rounds' =>
              rw [statements, statements, peek_bind, peek_bind]
              split
              · rfl
              · rename_i goesOn
                refine bind_eq_bind rfl fun first rest noted read => ?_
                have isShorter := shorter (fun isEnd => goesOn (.inl isEnd)) read
                simp only [List.length_cons] at enough enough' isShorter
                exact bind_eq_bind (ih (by omega) (by omega)) fun _ _ _ _ => rfl

end Parser

namespace Grammar

variable {depth : Nat} {token : Token} {tokens : List Token}

theorem program_of_eof (isEnd : token.kind = .eof) :
    program depth (token :: tokens) = .done [] (token :: tokens) [] := by
  unfold program bounded
  rw [statements, peek_bind, if_pos (.inl isEnd)]
  rfl

/-- A program is a declaration and the rest of the program, whatever the rounds. -/
theorem program_cons (goesOn : token.kind ≠ .eof) :
    program depth (token :: tokens) =
      (declaration depth false >>= fun first =>
        program depth >>= fun others => pure (first.toList ++ others)) (token :: tokens) := by
  have ends : ¬(token.kind = .eof ∨ token.kind = .eof) := by simpa using goesOn
  unfold program bounded
  rw [statements, peek_bind, if_neg ends]
  refine bind_eq_bind rfl fun first rest noted read => ?_
  have isShorter := declaration_length_lt goesOn read
  exact bind_eq_bind
    (statements_rounds (fun goesOn read => declaration_length_lt goesOn read)
      (Nat.le_of_lt_succ isShorter) (Nat.le_refl _))
    fun _ _ _ _ => rfl

/-- Reading a program is never given up as a whole. -/
theorem program_of_parse {parsed : Parsed} (read : parse depth tokens = .ok parsed) :
    ∃ rest, program depth tokens = .done parsed.statements rest parsed.errors := by
  have stops : (program depth tokens).StopsAt [.eof, .eof] :=
    statements_stopsAt (declaration_recovers depth false) _ _
  cases isReply : program depth tokens with
  | done statements rest noted =>
      rw [parse_of_done isReply] at read
      cases read
      exact ⟨rest, rfl⟩
  | failed error rest noted =>
      rw [isReply] at stops
      cases stops
  | halted reason =>
      rw [parse_of_halted isReply] at read
      contradiction

/-- That tokens before a tail are read to statements and errors, and the tail by itself. -/
def Passes (depth : Nat) (tail tokens : List Token) (statements : List Stmt)
    (noted : List SyntaxError) : Prop :=
  program depth (tokens ++ tail) =
    ((program depth >>= fun others => pure (statements ++ others)) tail).noting noted

namespace Passes

variable {tail rest : List Token} {statements : List Stmt} {noted : List SyntaxError}

theorem nil (depth : Nat) (tail : List Token) : Passes depth tail [] [] [] := by
  simp [Passes]

/-- A declaration is read first, and then the rest of the tokens. -/
theorem cons (goesOn : token.kind ≠ .eof) {first : Option Stmt} {firstNoted : List SyntaxError}
    (read : declaration depth false (token :: tokens ++ tail) =
      .done first (rest ++ tail) firstNoted)
    (passes : Passes depth tail rest statements noted) :
    Passes depth tail (token :: tokens) (first.toList ++ statements) (firstNoted ++ noted) := by
  unfold Passes at passes ⊢
  rw [List.cons_append] at read ⊢
  rw [program_cons goesOn, bind_of_done read]
  cases tailRead : program depth tail with
  | done others after later =>
      rw [bind_of_done tailRead] at passes ⊢
      rw [bind_of_done passes]
      simp
  | failed error after later =>
      rw [bind_of_failed tailRead] at passes ⊢
      rw [bind_of_failed passes, ← Reply.noting_noting]
      rfl
  | halted reason =>
      rw [bind_of_halted tailRead] at passes ⊢
      rw [bind_of_halted passes]
      rfl

theorem parse_eq (passes : Passes depth tail tokens statements noted) {parsed : Parsed}
    (read : parse depth tail = .ok parsed) :
    parse depth (tokens ++ tail) =
      .ok ⟨statements ++ parsed.statements, noted ++ parsed.errors⟩ := by
  rcases program_of_parse read with ⟨rest, tailRead⟩
  unfold Passes at passes
  rw [bind_of_done tailRead] at passes
  simpa using parse_of_done passes

end Passes

end Grammar

namespace ProgramPhrase

/-- No `else` follows a declaration of a program, unless one follows the program. -/
theorem avoids_else (program : ProgramPhrase) {tail : List Token}
    (notElse : Avoids [.kwElse] tail) : Avoids [.kwElse] (program.tokens ++ tail) := by
  cases program with
  | nil => exact notElse
  | cons first rest =>
      exact ((first.beginsWith_declaration.append _).append tail).avoids (by decide)

/-- A program is read back from before a tail, if rules may nest deeply enough. -/
theorem passes (program : ProgramPhrase) {depth : Nat} (fits : program.height ≤ depth)
    {tail : List Token} (notElse : Avoids [.kwElse] tail) :
    Grammar.Passes depth tail program.tokens program.tree program.errors := by
  induction program with
  | nil => exact .nil depth tail
  | cons first rest ih =>
      have fitsFirst : first.height ≤ depth := Nat.le_trans (Nat.le_max_left _ _) fits
      have fitsRest : height rest ≤ depth := Nat.le_trans (Nat.le_max_right _ _) fits
      have firstRead := first.read depth false _ (avoids_else rest notElse)
      rw [Reply.upTo, if_pos fitsFirst] at firstRead
      rcases first.beginsWith_declaration with ⟨opener, inner, begins, isOpener⟩
      have goesOn : opener.kind ≠ .eof := by
        intro isEnd
        rw [isEnd] at isOpener
        exact absurd isOpener (by decide)
      have isTokens : tokens (first :: rest) = opener :: (inner ++ tokens rest) := by
        rw [tokens, List.flatMap_cons, begins]
        rfl
      rw [begins, ← List.append_assoc] at firstRead
      rw [isTokens]
      exact Grammar.Passes.cons goesOn firstRead (ih fitsRest)

end ProgramPhrase

/--
Tokens behind a program without errors are read as if the program were not there: the statements
are those of the program and then those of the tokens behind it, and all errors are in these. It
does not matter what is wrong with them, except that they must not begin with an `else`.
-/
theorem parse_after_program {body : List Token} (noEnd : ∀ token ∈ body, token.kind ≠ .eof)
    (ending : Terminal [.eof]) {depth : Nat} {statements others : List Stmt}
    (read : parse depth (body ++ [ending.token]) = .ok ⟨statements, []⟩) {tail : List Token}
    (notElse : Avoids [.kwElse] tail) {errors : List SyntaxError}
    (tailRead : parse depth tail = .ok ⟨others, errors⟩) :
    parse depth (body ++ tail) = .ok ⟨statements ++ others, errors⟩ := by
  rcases parse_derives ending noEnd read (by simp) with ⟨program, rfl, rfl, noErrors⟩
  have fits : program.height ≤ depth := by
    by_contra tooHigh
    rw [parse_program, if_neg tooHigh] at read
    contradiction
  have together := (program.passes fits notElse).parse_eq tailRead
  rwa [noErrors] at together

/-- Behind `if (a) b;`, the faulty `) ; print c;` is read with its own error and statement. -/
theorem parse_after_program_faulty :
    let token := fun (kind : Token.Kind) (lexeme : String) => Token.mk kind lexeme .null 1
    let body :=
      [token .kwIf "if", token .leftParen "(", token .identifier "a", token .rightParen ")",
        token .identifier "b", token .semicolon ";"]
    let tail :=
      [token .rightParen ")", token .semicolon ";", token .kwPrint "print", token .identifier "c",
        token .semicolon ";", token .eof ""]
    let statement :=
      Stmt.ifThen (.read (token .identifier "a")) (.expression (.read (token .identifier "b")))
    let other := Stmt.print (.read (token .identifier "c"))
    let error := SyntaxError.mk (.missing .expression) (token .rightParen ")")
    parse 20 (body ++ [token .eof ""]) = .ok ⟨[statement], []⟩ ∧
      parse 20 tail = .ok ⟨[other], [error]⟩ ∧
      parse 20 (body ++ tail) = .ok ⟨[statement, other], [error]⟩ := by
  intro token body tail statement other error
  have noEnd : ∀ token ∈ body, token.kind ≠ .eof := by simp [body, token]
  have read : parse 20 (body ++ [token .eof ""]) = .ok ⟨[statement], []⟩ := rfl
  have notElse : Avoids [.kwElse] tail := .cons (by decide)
  have tailRead : parse 20 tail = .ok ⟨[other], [error]⟩ := rfl
  exact ⟨read, tailRead, parse_after_program noEnd ⟨token .eof "", List.mem_singleton_self _⟩ read
    notElse tailRead⟩

end Scriptlet
