import Scriptlet.Proofs.Phrase.Conformance
import Scriptlet.Proofs.Soundness.Statement

/-!
# What is read as a program is one

Where `parse` notes down only minor errors, the tokens before the end mark are those of a program
of the relaxed grammar; where it notes down none, they are a program of the language proper.
-/

namespace Scriptlet

open Scriptlet.Parser

/-- The tokens before an end mark are determined by where the first end mark stands. -/
theorem eq_of_append_eof {body read rest : List Token} {ending : Token}
    (noEnd : ∀ token ∈ body, token.kind ≠ .eof) (ends : BeginsWith [.eof, .eof] rest)
    (same : body ++ [ending] = read ++ rest) : body = read := by
  rcases ends with ⟨mark, more, rfl, isMark⟩
  have isEof : mark.kind = .eof := by simpa using isMark
  induction body generalizing read with
  | nil =>
      cases read with
      | nil => rfl
      | cons token tokens => simp at same
  | cons token tokens ih =>
      cases read with
      | nil =>
          simp only [List.cons_append, List.nil_append, List.cons.injEq] at same
          exact absurd (same.1 ▸ isEof) (noEnd token List.mem_cons_self)
      | cons other others =>
          simp only [List.cons_append, List.cons.injEq] at same
          rw [same.1, ih (fun token mem => noEnd token (List.mem_cons_of_mem _ mem)) same.2]

/-- Tokens that are read with minor errors only are those of a program with just these errors. -/
theorem parse_derives {body : List Token} (ending : Terminal [.eof])
    (noEnd : ∀ token ∈ body, token.kind ≠ .eof) {depth : Nat} {parsed : Parsed}
    (read : parse depth (body ++ [ending.token]) = .ok parsed)
    (minor : ∀ error ∈ parsed.errors, error.IsMinor) :
    ∃ program : ProgramPhrase,
      program.tokens = body ∧ program.tree = parsed.statements ∧
      program.errors = parsed.errors := by
  have derives := declaration_derives depth false
  unfold parse bounded at read
  cases bodyRead : statements .eof (Grammar.declaration depth false) (body ++ [ending.token])
      (body ++ [ending.token]) with
  | done value rest noted =>
      rw [bodyRead] at read
      cases read
      rcases statements_derive derives bodyRead minor with ⟨program, same, rfl, rfl, ends⟩
      exact ⟨program, (eq_of_append_eof noEnd ends same).symm, rfl, rfl⟩
  | failed error rest noted =>
      rw [bodyRead] at read
      cases read
      -- Giving up is itself an error that is not minor.
      have isMissing : ¬error.IsMinor :=
        ((Grammar.declaration_corresponds depth false).statements
          (Likeness.forall₂_only fun _ _ => trivial)).not_isMinor bodyRead
      exact absurd (minor error (by simp)) isMissing
  | halted reason =>
      rw [bodyRead] at read
      contradiction

/--
Tokens that are read without errors are a program of the language proper, and the statements are
the tree that this program stands for.
-/
theorem parse_sound {body : List Token} (ending : Terminal [.eof])
    (noEnd : ∀ token ∈ body, token.kind ≠ .eof) {depth : Nat} {statements : List Stmt}
    (read : parse depth (body ++ [ending.token]) = .ok ⟨statements, []⟩) :
    ∃ program : ProgramPhrase,
      program.Conforms ∧ program.tokens = body ∧ program.tree = statements := by
  rcases parse_derives ending noEnd read (by simp) with ⟨program, same, isTree, noErrors⟩
  exact ⟨program, program.errors_eq_nil_iff.mp noErrors, same, isTree⟩

/-- In `if (a) if (b) c; else d = e;` the `else` belongs to the second `if`. -/
theorem parse_sound_nested_if :
    let token := fun (kind : Token.Kind) (lexeme : String) => Token.mk kind lexeme .null 1
    let body :=
      [token .kwIf "if", token .leftParen "(", token .identifier "a", token .rightParen ")",
        token .kwIf "if", token .leftParen "(", token .identifier "b", token .rightParen ")",
        token .identifier "c", token .semicolon ";", token .kwElse "else", token .identifier "d",
        token .equal "=", token .identifier "e", token .semicolon ";"]
    let tree :=
      [Stmt.ifThen (.read (token .identifier "a"))
        (.ifElse (.read (token .identifier "b"))
          (.expression (.read (token .identifier "c")))
          (.expression (.assign (token .identifier "d") (.read (token .identifier "e")))))]
    parse 20 (body ++ [token .eof ""]) = .ok ⟨tree, []⟩ ∧
      ∃ program : ProgramPhrase,
        program.Conforms ∧ program.tokens = body ∧ program.tree = tree := by
  intro token body tree
  have read : parse 20 (body ++ [token .eof ""]) = .ok ⟨tree, []⟩ := rfl
  exact ⟨read, parse_sound ⟨token .eof "", List.mem_singleton.mpr rfl⟩ (by simp [body, token]) read⟩

end Scriptlet
