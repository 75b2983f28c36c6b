import Scriptlet.Proofs.Phrase.Conformance

/-!
# Reading whole programs

A program followed by an end mark is read whole, to the depth that its phrases need
(`parse_program`).
-/

namespace Scriptlet

/-- A program is read back, unless its phrases nest too deeply. -/
theorem parse_program (program : ProgramPhrase) (ending : Terminal [.eof]) (depth : Nat) :
    parse depth (program.tokens ++ [ending.token]) =
      if program.height ≤ depth then .ok ⟨program.tree, program.errors⟩
      else .error .tooDeep := by
  have bodyRead := (StmtPhrase.ofProgram program).read .eof depth false [ending.token]
    (program.tokens ++ [ending.token]) (by decide) ⟨_, _, rfl, ending.kind_mem⟩
    (by simp [StmtPhrase.tokens_ofProgram])
  rw [StmtPhrase.tokens_ofProgram, StmtPhrase.tree_ofProgram, StmtPhrase.errors_ofProgram,
    StmtPhrase.height_ofProgram] at bodyRead
  unfold parse Parser.bounded
  rw [bodyRead]
  by_cases fits : program.height ≤ depth <;> simp [Reply.upTo, fits, ProgramPhrase.errors]

/--
Every program of the relaxed grammar is read back from its tokens and an end mark: one statement
for each declaration, and exactly the errors of the program. That fails only where the rules may
not nest deeply enough. The errors are empty exactly if the program belongs to the language proper;
their causes are four, with a message each.
-/
theorem parse_relaxed_program (program : ProgramPhrase) (ending : Terminal [.eof]) :
    (∀ depth, parse depth (program.tokens ++ [ending.token]) =
      if program.height ≤ depth then
        .ok ⟨program.map StmtPhrase.tree, program.flatMap (StmtPhrase.errors false)⟩
      else .error .tooDeep) ∧
    (program.errors = [] ↔ program.Conforms) ∧
    [.invalidTarget, .tooManyParameters, .tooManyArguments, .topLevelReturn].map
        SyntaxError.Cause.message =
      ["Invalid assignment target.", "Can't have more than 8 parameters.",
        "Can't have more than 255 arguments.", "Can't return from top-level code."] := by
  refine ⟨parse_program program ending, program.errors_eq_nil_iff, ?_⟩
  decide

end Scriptlet
