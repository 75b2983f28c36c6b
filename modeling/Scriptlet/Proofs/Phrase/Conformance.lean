import Scriptlet.Proofs.Completeness.Statement

/-!
# Conforming phrases have no errors

The errors of a phrase are empty exactly if the phrase belongs to the language proper.
-/

namespace Scriptlet

namespace ExprPhrase

/-- That the tree of a phrase is a variable exactly if the phrase is an identifier. -/
def VariableIff : {symbol : Symbol} → ExprPhrase symbol → Prop
  | .operation _, phrase | .unary, phrase | .call, phrase | .primary, phrase =>
    ∀ name, phrase.tree = Expr.read name ↔ phrase.tokens = [name] ∧ name.kind = .identifier
  | .operations _ _, phrase | .calls, phrase =>
    ∀ left name, phrase.tree left = Expr.read name ↔ phrase.tokens = [] ∧ left = .read name
  | .expression, _ | .arguments, _ | .argumentList _, _ => True

/-- Tokens that are not empty leave no room before or after them in a single one. -/
theorem append_eq_singleton_iff {kinds : List Token.Kind} {tokens more : List Token} {name : Token}
    (begins : BeginsWith kinds tokens) : tokens ++ more = [name] ↔ more = [] ∧ tokens = [name] := by
  rcases begins with ⟨first, rest, rfl, _⟩
  simp only [List.cons_append, List.cons.injEq, List.append_eq_nil_iff]
  constructor
  · rintro ⟨same, ends, isEmpty⟩
    exact ⟨isEmpty, same, ends⟩
  · rintro ⟨isEmpty, same, ends⟩
    exact ⟨same, ends, isEmpty⟩

theorem node_ne_read (level : Level) (left : Expr) (operator : Token) (right : Expr)
    (name : Token) : level.node left operator right ≠ .read name := by
  unfold Level.node
  split <;> simp

theorem atomTree_eq_read_iff (token name : Token) :
    atomTree token = .read name ↔ token = name ∧ name.kind = .identifier := by
  unfold atomTree
  split
  case h_4 isName =>
    constructor
    · intro same
      cases same
      exact ⟨rfl, isName⟩
    · rintro ⟨rfl, _⟩
      rfl
  all_goals
    simp only [reduceCtorEq, false_iff, not_and]
    rintro rfl isName
    simp_all

theorem variableIff {symbol : Symbol} (phrase : ExprPhrase symbol) : phrase.VariableIff := by
  induction phrase with
  | plain => trivial
  | assignment => trivial
  | operation first more ihFirst ihMore =>
      intro name
      rw [tree, tokens, ihMore, ihFirst, append_eq_singleton_iff (first.beginsWith rfl),
        and_assoc]
  | tightest value ih => exact ih
  | noOperation => simp [VariableIff]
  | nextOperation operator right more ihRight ihMore =>
      intro left name
      rw [tree, tokens, ihMore]
      simp [node_ne_read]
  | unaryOperation operator operand ih =>
      intro name
      rcases operand.beginsWith rfl with ⟨first, rest, begins, _⟩
      simp [begins]
  | unaryCall value ih => exact ih
  | call callee more ihCallee ihMore =>
      intro name
      rw [tree, tokens, ihMore, ihCallee, append_eq_singleton_iff (callee.beginsWith rfl),
        and_assoc]
  | noCall => simp [VariableIff]
  | nextCall opening arguments closing more ihArguments ihMore =>
      intro callee name
      rw [tree, tokens, ihMore]
      simp
  | noArguments => trivial
  | someArguments => trivial
  | lastArgument => trivial
  | nextArgument => trivial
  | atom token =>
      intro name
      rw [tree, tokens, atomTree_eq_read_iff]
      simp
  | parenthesised opening inner closing =>
      intro name
      simp

/-- That a phrase of a single token has no errors. -/
def SingleErrorFree : {symbol : Symbol} → ExprPhrase symbol → Prop
  | .arguments, _ | .argumentList _, _ => True
  | _, phrase => phrase.tokens.length ≤ 1 → phrase.errors = []

theorem singleErrorFree {symbol : Symbol} (phrase : ExprPhrase symbol) :
    phrase.SingleErrorFree := by
  induction phrase with
  | plain value ih => exact ih
  | assignment target equals value ihTarget ihValue =>
      intro single
      have targetLength := (target.beginsWith rfl).length_pos
      simp only [tokens, List.length_append, List.length_cons] at single
      omega
  | operation first more ihFirst ihMore =>
      intro single
      simp only [tokens, List.length_append] at single
      rw [errors, ihFirst (by omega), ihMore (by omega), List.nil_append]
  | tightest value ih => exact ih
  | noOperation => exact fun _ => rfl
  | nextOperation operator right more ihRight ihMore =>
      intro single
      have rightLength := (right.beginsWith rfl).length_pos
      simp only [tokens, List.length_append, List.length_cons] at single
      omega
  | unaryOperation operator operand ih =>
      intro single
      have operandLength := (operand.beginsWith rfl).length_pos
      simp only [tokens, List.length_cons] at single
      omega
  | unaryCall value ih => exact ih
  | call callee more ihCallee ihMore =>
      intro single
      simp only [tokens, List.length_append] at single
      rw [errors, ihCallee (by omega), ihMore (by omega), List.nil_append]
  | noCall => exact fun _ => rfl
  | nextCall opening arguments closing more ihArguments ihMore =>
      intro single
      simp only [tokens, List.length_append, List.length_cons] at single
      omega
  | noArguments => trivial
  | someArguments => trivial
  | lastArgument => trivial
  | nextArgument => trivial
  | atom token => exact fun _ => rfl
  | parenthesised opening inner closing ih =>
      intro single
      simp only [tokens, List.length_append, List.length_cons] at single
      omega

theorem targetErrors_eq_nil_iff (target : ExprPhrase (.operation levels)) (equals : Token) :
    targetErrors target.tree equals = [] ↔
      ∃ name : Terminal [.identifier], target.tokens = [name.token] := by
  constructor
  · intro noErrors
    unfold targetErrors at noErrors
    split at noErrors
    · rename_i name isRead
      rcases (variableIff target name).mp isRead with ⟨isName, isIdentifier⟩
      exact ⟨⟨name, List.mem_singleton.mpr isIdentifier⟩, isName⟩
    · contradiction
  · rintro ⟨name, isName⟩
    have isRead := (variableIff target name.token).mpr ⟨isName, name.kind_eq⟩
    unfold targetErrors
    rw [isRead]

theorem excessErrors_eq_nil_iff {limit before : Nat} {cause : SyntaxError.Cause}
    {kinds : List Token.Kind} {item : List Token} (begins : BeginsWith kinds item) :
    excessErrors limit cause before item = [] ↔ before < limit := by
  rcases begins with ⟨first, rest, rfl, _⟩
  unfold excessErrors
  split <;> simp <;> omega

/--
That the errors of a phrase are empty exactly if it conforms; a list of arguments, moreover, must
end within the limit.
-/
def ErrorFreeIff : {symbol : Symbol} → ExprPhrase symbol → Prop
  | .arguments, phrase =>
    phrase.errors = [] ↔ (phrase.tree : List Expr).length ≤ maxArguments ∧ phrase.Conforms
  | .argumentList before, phrase =>
    phrase.errors = [] ↔
      before + (phrase.tree : List Expr).length ≤ maxArguments ∧ phrase.Conforms
  | _, phrase => phrase.errors = [] ↔ phrase.Conforms

theorem errorFreeIff {symbol : Symbol} (phrase : ExprPhrase symbol) : phrase.ErrorFreeIff := by
  induction phrase with
  | plain value ih => exact ih
  | assignment target equals value ihTarget ihValue =>
      simp only [ErrorFreeIff, errors, Conforms, List.append_eq_nil_iff] at *
      rw [ihValue, targetErrors_eq_nil_iff]
      -- An identifier by itself has no errors, so that nothing is asked of the target otherwise.
      constructor
      · rintro ⟨_, conforms, isName⟩
        exact ⟨isName, conforms⟩
      · rintro ⟨⟨name, isName⟩, conforms⟩
        exact ⟨singleErrorFree target (by simp [isName]), conforms, name, isName⟩
  | operation first more ihFirst ihMore =>
      simp only [ErrorFreeIff, errors, Conforms, List.append_eq_nil_iff] at *
      exact and_congr ihFirst ihMore
  | tightest value ih => exact ih
  | noOperation => simp [ErrorFreeIff]
  | nextOperation operator right more ihRight ihMore =>
      simp only [ErrorFreeIff, errors, Conforms, List.append_eq_nil_iff] at *
      exact and_congr ihRight ihMore
  | unaryOperation operator operand ih => exact ih
  | unaryCall value ih => exact ih
  | call callee more ihCallee ihMore =>
      simp only [ErrorFreeIff, errors, Conforms, List.append_eq_nil_iff] at *
      exact and_congr ihCallee ihMore
  | noCall => simp [ErrorFreeIff]
  | nextCall opening arguments closing more ihArguments ihMore =>
      simp only [ErrorFreeIff, errors, Conforms, List.append_eq_nil_iff] at *
      rw [ihArguments, ihMore, and_assoc]
  | noArguments => simp [ErrorFreeIff]
  | someArguments list ih =>
      simp only [ErrorFreeIff, Nat.zero_add] at ih
      exact ih
  | lastArgument value ih =>
      have begins := value.beginsWith rfl
      simp only [ErrorFreeIff, errors, Conforms, tree, List.append_eq_nil_iff,
        List.length_singleton] at *
      rw [ih, excessErrors_eq_nil_iff begins, Nat.succ_le_iff]
  | nextArgument value comma list ihValue ihList =>
      have begins := value.beginsWith rfl
      simp only [ErrorFreeIff, errors, Conforms, tree, List.append_eq_nil_iff,
        List.length_cons] at *
      rw [ihValue, ihList, excessErrors_eq_nil_iff begins]
      constructor
      · rintro ⟨_, conforms, fits, listConforms⟩
        exact ⟨by omega, conforms, listConforms⟩
      · rintro ⟨fits, conforms, listConforms⟩
        exact ⟨by omega, conforms, by omega, listConforms⟩
  | atom token => simp [ErrorFreeIff]
  | parenthesised opening inner closing ih => exact ih

end ExprPhrase

theorem ExprPhrase.errors_eq_nil_iff (value : ExprPhrase .expression) :
    value.errors = [] ↔ value.Conforms :=
  errorFreeIff value

theorem OptionalPhrase.errors_eq_nil_iff (phrase : OptionalPhrase) :
    phrase.errors = [] ↔ phrase.Conforms := by
  cases phrase with
  | none => simp [errors, Conforms]
  | some value => exact value.errors_eq_nil_iff

theorem HeadPhrase.errors_eq_nil_iff (phrase : HeadPhrase) :
    phrase.errors = [] ↔ phrase.parameters.length ≤ maxParameters := by
  simp [errors]

theorem StmtPhrase.errors_eq_nil_iff {symbol : StmtPhrase.Symbol} (phrase : StmtPhrase symbol)
    (inFunction : Bool) : phrase.errors inFunction = [] ↔ phrase.Conforms inFunction := by
  induction phrase generalizing inFunction with
  | declare phrase => exact phrase.value.errors_eq_nil_iff
  | function keyword head body closing ih =>
      rw [errors, Conforms, List.append_eq_nil_iff, head.errors_eq_nil_iff, ih]
  | statement phrase ih => exact ih inFunction
  | noDeclaration => simp [errors, Conforms]
  | nextDeclaration first others ihFirst ihOthers =>
      rw [errors, Conforms, List.append_eq_nil_iff, ihFirst, ihOthers]
  | expression value semicolon => exact value.errors_eq_nil_iff
  | print keyword value semicolon => exact value.errors_eq_nil_iff
  | block opening body closing ih => exact ih inFunction
  | ifThen keyword opening condition closing thenBranch ih =>
      rw [errors, Conforms, List.append_eq_nil_iff, condition.errors_eq_nil_iff, ih]
  | ifElse keyword opening condition closing thenBranch otherwise elseBranch ihThen ihElse =>
      rw [errors, Conforms, List.append_eq_nil_iff, List.append_eq_nil_iff,
        condition.errors_eq_nil_iff, ihThen, ihElse]
  | whileDo keyword opening condition closing body ih =>
      rw [errors, Conforms, List.append_eq_nil_iff, condition.errors_eq_nil_iff, ih]
  | forLoop keyword opening first condition semicolon increment closing body ih =>
      rw [errors, Conforms, List.append_eq_nil_iff, List.append_eq_nil_iff,
        List.append_eq_nil_iff, OptionalPhrase.errors_eq_nil_iff,
        OptionalPhrase.errors_eq_nil_iff, OptionalPhrase.errors_eq_nil_iff, ih]
  | ret keyword value semicolon =>
      rw [errors, Conforms, List.append_eq_nil_iff, value.errors_eq_nil_iff]
      cases inFunction <;> simp

/-- A program has no errors exactly if it belongs to the language proper. -/
theorem ProgramPhrase.errors_eq_nil_iff (program : ProgramPhrase) :
    program.errors = [] ↔ program.Conforms := by
  simp only [errors, Conforms, List.flatMap_eq_nil_iff, StmtPhrase.errors_eq_nil_iff]

end Scriptlet
