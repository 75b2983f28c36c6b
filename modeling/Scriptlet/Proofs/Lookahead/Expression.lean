import Scriptlet.Proofs.Lookahead

/-!
# Expressions are foreseen

Each rule of the grammar of expressions foresees the phrases of its symbol. Wherever it gives up,
the tokens before that are the beginning of a phrase.
-/

namespace Scriptlet

open Scriptlet.Parser

namespace ExprPhrase

/-- That tokens are those of a phrase of a symbol. -/
def Spells (symbol : Symbol) (tokens : List Token) : Prop :=
  ∃ phrase : ExprPhrase symbol, phrase.tokens = tokens

theorem spells {symbol : Symbol} (phrase : ExprPhrase symbol) : Spells symbol phrase.tokens :=
  ⟨phrase, rfl⟩

theorem exists_spells_primary : ∃ tokens, Spells .primary tokens :=
  ⟨_, (atom ⟨⟨.kwNull, "", .null, 0⟩, by decide⟩).spells⟩

theorem exists_spells_call : ∃ tokens, Spells .call tokens := by
  rcases exists_spells_primary with ⟨_, callee, _⟩
  exact ⟨_, (call callee noCall).spells⟩

theorem exists_spells_unary : ∃ tokens, Spells .unary tokens := by
  rcases exists_spells_call with ⟨_, value, _⟩
  exact ⟨_, (unaryCall value).spells⟩

theorem exists_spells_operation (levels : List Level) :
    ∃ tokens, Spells (.operation levels) tokens := by
  induction levels with
  | nil =>
      rcases exists_spells_unary with ⟨_, value, _⟩
      exact ⟨_, (tightest value).spells⟩
  | cons level tighter ih =>
      rcases ih with ⟨_, value, _⟩
      exact ⟨_, (operation value noOperation).spells⟩

theorem exists_spells_expression : ∃ tokens, Spells .expression tokens := by
  rcases exists_spells_operation levels with ⟨_, value, _⟩
  exact ⟨_, (plain value).spells⟩

end ExprPhrase

open ExprPhrase (Level Spells)

namespace Grammar

variable {depth : Nat}

theorem operations_foresees (level : Level) {tighter : List Level}
    (operands : ∀ rounds, Foresees (Spells (.operation tighter))
      (fun bounds => operationOf bounds.depth tighter) ⟨depth, rounds⟩) (left : Expr)
    (rounds : List Token) :
    Foresees (Spells (.operations level tighter))
      (fun bounds => bounded fun rounds =>
        operations level.operators (operationOf bounds.depth tighter) level.node rounds left)
      ⟨depth, rounds⟩ := by
  apply Foresees.loop (fun _ => ⟨_, ExprPhrase.noOperation.spells⟩)
    (fun depth => operations level.operators (operationOf depth tighter) level.node)
    (fun _ _ => rfl) fun _ _ _ _ _ => rfl
  intro rounds round again left
  apply Foresees.accept_bind
  · exact .pure ExprPhrase.noOperation.spells left
  · intro operator
    apply (operands rounds).bind
    rintro right _ ⟨rightPhrase, rfl⟩
    apply (again _).mono
    rintro _ ⟨more, rfl⟩
    exact (ExprPhrase.nextOperation operator rightPhrase more).spells

theorem arguments_foresees
    (arguments : ∀ rounds, Foresees (Spells .expression)
      (fun bounds => expression bounds.depth) ⟨depth, rounds⟩) (rounds : List Token) :
    Foresees (Spells .arguments)
      (fun bounds => commaList maxArguments .tooManyArguments (expression bounds.depth))
      ⟨depth, rounds⟩ := by
  apply Foresees.commaList (by simp) maxArguments expression arguments
    fun count => Spells (.argumentList count)
  · rintro before _ ⟨value, rfl⟩
    exact (ExprPhrase.lastArgument value).spells
  · rintro before _ _ comma ⟨value, rfl⟩ ⟨rest, rfl⟩
    exact (ExprPhrase.nextArgument value comma rest).spells
  · exact ExprPhrase.noArguments.spells
  · rintro _ ⟨list, rfl⟩
    exact (ExprPhrase.someArguments list).spells

theorem calls_foresees
    (arguments : ∀ rounds, Foresees (Spells .expression)
      (fun bounds => expression bounds.depth) ⟨depth, rounds⟩) (callee : Expr)
    (rounds : List Token) :
    Foresees (Spells .calls)
      (fun bounds => bounded fun rounds => calls (expression bounds.depth) rounds callee)
      ⟨depth, rounds⟩ := by
  apply Foresees.loop (fun _ => ⟨_, ExprPhrase.noCall.spells⟩)
    (fun depth => calls (expression depth)) (fun _ _ => rfl) fun _ _ _ _ _ => rfl
  intro rounds round again callee
  apply Foresees.accept_bind
  · exact .pure ExprPhrase.noCall.spells callee
  · intro opening
    apply (arguments_foresees arguments rounds).bind
    rintro values _ ⟨list, rfl⟩
    apply Foresees.expect_bind
    intro closing
    apply (again _).mono
    rintro _ ⟨more, rfl⟩
    exact (ExprPhrase.nextCall opening list closing more).spells

/-- An assignment is only a matter of what is done with the phrases around the equals sign. -/
theorem assignment_foresees {whole : List Token → Prop} (isWhole : whole []) (target : Expr)
    (equals : Token) (value : Expr) {bounds : Bounds} :
    Foresees whole (fun _ => assignment target equals value) bounds := by
  unfold assignment
  split
  · exact .pure isWhole _
  · apply (Foresees.note (by simp) equals).bind
    rintro _ _ rfl
    exact .pure isWhole target

theorem atomOr_eq (parenthesised : Parser Expr) :
    atomOr parenthesised = accept atomKinds >>= fun
      | some token => pure (ExprPhrase.atomTree token)
      | none => expect .leftParen .expression >>= fun _ => parenthesised := by
  funext tokens
  cases tokens with
  | nil => rfl
  | cons token rest =>
      by_cases isAtom : token.kind ∈ atomKinds
      · rw [accept_bind_of_mem _ _ isAtom, atomOr, ExprPhrase.atom?_eq isAtom]
        rfl
      · have noAtom : atom? token = none := by
          cases isSome : atom? token with
          | none => rfl
          | some value => exact absurd (ExprPhrase.atom?_eq_some isSome) isAtom
        rw [accept_bind_of_not_mem _ _ isAtom, atomOr, noAtom]
        dsimp only
        split
        · rename_i isOpening
          rw [Parser.expect_bind _ _ _ isOpening]
        · rename_i isOther
          rw [bind_of_failed (by rw [expect, if_neg isOther])]
          rfl

mutual

theorem expression_foresees (depth : Nat) (rounds : List Token) :
    Foresees (Spells .expression) (fun bounds => expression bounds.depth) ⟨depth, rounds⟩ := by
  match depth with
  | 0 => exact .halt ExprPhrase.exists_spells_expression (by rw [expression])
  | depth + 1 =>
      apply Foresees.deeper expression (by rw [expression])
      simp only [expression_succ]
      apply (operation_foresees depth ExprPhrase.levels rounds).bind
      rintro target _ ⟨targetPhrase, rfl⟩
      apply Foresees.accept_bind
      · apply Foresees.pure
        simpa using (ExprPhrase.plain targetPhrase).spells
      · intro equals
        apply (expression_foresees depth rounds).bind
        rintro value _ ⟨valuePhrase, rfl⟩
        apply assignment_foresees
        simpa using (ExprPhrase.assignment targetPhrase equals valuePhrase).spells

theorem operation_foresees (depth : Nat) (levels : List Level) (rounds : List Token) :
    Foresees (Spells (.operation levels)) (fun bounds => operationOf bounds.depth levels)
      ⟨depth, rounds⟩ := by
  match depth, levels with
  | depth, [] =>
      simp only [operationOf]
      apply (unary_foresees depth rounds).mono
      rintro _ ⟨value, rfl⟩
      exact (ExprPhrase.tightest value).spells
  | 0, level :: tighter =>
      exact .halt (ExprPhrase.exists_spells_operation _) (by rw [operationOf])
  | depth + 1, level :: tighter =>
      apply Foresees.deeper (fun depth => operationOf depth (level :: tighter))
        (by rw [operationOf])
      simp only [operationOf]
      apply (operation_foresees depth tighter rounds).bind
      rintro first _ ⟨firstPhrase, rfl⟩
      apply (operations_foresees level (operation_foresees depth tighter) first rounds).mono
      rintro _ ⟨more, rfl⟩
      exact (ExprPhrase.operation firstPhrase more).spells

theorem unary_foresees (depth : Nat) (rounds : List Token) :
    Foresees (Spells .unary) (fun bounds => unary bounds.depth) ⟨depth, rounds⟩ := by
  match depth with
  | 0 => exact .halt ExprPhrase.exists_spells_unary (by rw [unary])
  | depth + 1 =>
      apply Foresees.deeper unary (by rw [unary])
      simp only [unary]
      apply Foresees.accept_bind
      · apply (call_foresees depth rounds).mono
        rintro _ ⟨value, rfl⟩
        exact (ExprPhrase.unaryCall value).spells
      · intro operator
        apply (unary_foresees depth rounds).bind
        rintro operand _ ⟨operandPhrase, rfl⟩
        apply Foresees.pure
        simpa using (ExprPhrase.unaryOperation operator operandPhrase).spells

theorem call_foresees (depth : Nat) (rounds : List Token) :
    Foresees (Spells .call) (fun bounds => call bounds.depth) ⟨depth, rounds⟩ := by
  match depth with
  | 0 => exact .halt ExprPhrase.exists_spells_call (by rw [call])
  | depth + 1 =>
      apply Foresees.deeper call (by rw [call])
      simp only [call]
      apply (primary_foresees depth rounds).bind
      rintro callee _ ⟨calleePhrase, rfl⟩
      apply (calls_foresees (expression_foresees depth) callee rounds).mono
      rintro _ ⟨more, rfl⟩
      exact (ExprPhrase.call calleePhrase more).spells

theorem primary_foresees (depth : Nat) (rounds : List Token) :
    Foresees (Spells .primary) (fun bounds => primary bounds.depth) ⟨depth, rounds⟩ := by
  match depth with
  | 0 => exact .halt ExprPhrase.exists_spells_primary (by rw [primary])
  | depth + 1 =>
      apply Foresees.deeper primary (by rw [primary])
      simp only [primary, atomOr_eq]
      apply Foresees.accept_bind
      · apply Foresees.expect_bind
        intro opening
        apply (expression_foresees depth rounds).bind
        rintro inner _ ⟨innerPhrase, rfl⟩
        apply Foresees.expect_bind
        intro closing
        exact .pure (ExprPhrase.parenthesised opening innerPhrase closing).spells _
      · intro token
        exact .pure (ExprPhrase.atom token).spells _

end

end Grammar

end Scriptlet
