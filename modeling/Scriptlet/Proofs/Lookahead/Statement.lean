import Scriptlet.Proofs.Lookahead.Expression

/-!
# Statements are foreseen

The rules of the grammar of statements foresee their phrases, as those of expressions do. Where an
`else` is read after a statement, the statement can take it, or the `if` before it can.
-/

namespace Scriptlet

open Scriptlet.Parser

namespace StmtPhrase

def Spells (symbol : Symbol) (tokens : List Token) : Prop :=
  ∃ phrase : StmtPhrase symbol, phrase.tokens = tokens

theorem spells {symbol : Symbol} (phrase : StmtPhrase symbol) : Spells symbol phrase.tokens :=
  ⟨phrase, rfl⟩

def SpellsStatement (tokens : List Token) : Prop :=
  ∃ endsOpen, Spells (.statement endsOpen) tokens

theorem spellsStatement {endsOpen : Bool} (phrase : StmtPhrase (.statement endsOpen)) :
    SpellsStatement phrase.tokens :=
  ⟨endsOpen, phrase, rfl⟩

theorem exists_spellsStatement : ∃ tokens, SpellsStatement tokens := by
  rcases ExprPhrase.exists_spells_expression with ⟨_, value, _⟩
  exact ⟨_, (expression value default).spellsStatement⟩

/-- A statement that ends in an `if` without an `else` can go on with one. -/
theorem spellsStatement_else {symbol : Symbol} (phrase : StmtPhrase symbol)
    (isOpen : symbol = .statement true) (otherwise : Terminal [.kwElse]) {endsOpen : Bool}
    (branch : StmtPhrase (.statement endsOpen)) :
    SpellsStatement (phrase.tokens ++ otherwise.token :: branch.tokens) := by
  induction phrase with
  | @ifThen thenOpen keyword opening condition closing thenBranch ih =>
      cases thenOpen with
      | true =>
          rcases ih rfl with ⟨_, longer, isLonger⟩
          have whole := (ifThen keyword opening condition closing longer).spellsStatement
          simpa [isLonger] using whole
      | false =>
          have whole :=
            (ifElse keyword opening condition closing thenBranch otherwise branch).spellsStatement
          simpa using whole
  | ifElse keyword opening condition closing thenBranch inner elseBranch _ ih =>
      rcases ih isOpen with ⟨_, longer, isLonger⟩
      have whole :=
        (ifElse keyword opening condition closing thenBranch inner longer).spellsStatement
      simpa [isLonger] using whole
  | whileDo keyword opening condition closing body ih =>
      rcases ih isOpen with ⟨_, longer, isLonger⟩
      have whole := (whileDo keyword opening condition closing longer).spellsStatement
      simpa [isLonger] using whole
  | forLoop keyword opening first condition semicolon increment closing body ih =>
      rcases ih isOpen with ⟨_, longer, isLonger⟩
      have whole := (forLoop keyword opening first condition semicolon increment closing
        longer).spellsStatement
      simpa [isLonger] using whole
  | declare | function | statement | noDeclaration | nextDeclaration | expression | print | block
  | ret => simp at isOpen

end StmtPhrase

open StmtPhrase (SpellsStatement)

namespace Grammar

variable {depth : Nat} (rounds : List Token)

theorem terminated_foresees (missing : Missing) :
    Foresees
      (fun tokens => ∃ (value : ExprPhrase .expression) (semicolon : Terminal [.semicolon]),
        value.tokens ++ [semicolon.token] = tokens)
      (fun bounds => terminated bounds.depth missing) ⟨depth, rounds⟩ := by
  unfold terminated
  apply (expression_foresees depth rounds).bind
  rintro value _ ⟨phrase, rfl⟩
  apply Foresees.expect_bind
  intro semicolon
  exact .pure ⟨phrase, semicolon, rfl⟩ value

theorem optional_foresees (stop : Token.Kind) :
    Foresees (fun tokens => ∃ phrase : OptionalPhrase, phrase.tokens = tokens)
      (fun bounds => optional bounds.depth stop) ⟨depth, rounds⟩ := by
  unfold optional
  apply Foresees.isNext_bind
  intro isStop
  cases isStop with
  | true => exact .pure ⟨none, rfl⟩ none
  | false =>
      apply (expression_foresees depth rounds).bind
      rintro value _ ⟨phrase, rfl⟩
      exact .pure ⟨some phrase, by simp [OptionalPhrase.tokens]⟩ _

theorem condition_foresees (before after : Missing) :
    Foresees
      (fun tokens => ∃ (opening : Terminal [.leftParen]) (condition : ExprPhrase .expression)
        (closing : Terminal [.rightParen]),
        opening.token :: (condition.tokens ++ [closing.token]) = tokens)
      (fun bounds => condition bounds.depth before after) ⟨depth, rounds⟩ := by
  unfold condition
  apply Foresees.expect_bind
  intro opening
  apply (expression_foresees depth rounds).bind
  rintro test _ ⟨phrase, rfl⟩
  apply Foresees.expect_bind
  intro closing
  exact .pure ⟨opening, phrase, closing, rfl⟩ test

theorem variableDeclaration_foresees (keyword : Terminal [.kwVar]) :
    Foresees (fun later => ∃ phrase : VariablePhrase, phrase.tokens = keyword.token :: later)
      (fun bounds => variableDeclaration bounds.depth) ⟨depth, rounds⟩ := by
  unfold variableDeclaration
  apply Foresees.expect_bind
  intro name
  apply Foresees.accept_bind
  · apply Foresees.expect_bind
    intro semicolon
    exact .pure ⟨⟨keyword, name, none, semicolon⟩, rfl⟩ _
  · intro equals
    apply (terminated_foresees rounds _).bind
    rintro value _ ⟨phrase, semicolon, rfl⟩
    refine .pure ⟨⟨keyword, name, some (equals, phrase), semicolon⟩, ?_⟩ _
    simp [VariablePhrase.tokens, VariablePhrase.tail]

theorem expressionStatement_foresees :
    Foresees SpellsStatement (fun bounds => expressionStatement bounds.depth) ⟨depth, rounds⟩ := by
  unfold expressionStatement
  apply (terminated_foresees rounds _).bind
  rintro value _ ⟨phrase, semicolon, rfl⟩
  apply Foresees.pure
  simpa using (StmtPhrase.expression phrase semicolon).spellsStatement

theorem initializer_foresees :
    Foresees (fun tokens => ∃ phrase : ClausePhrase, phrase.tokens = tokens)
      (fun bounds => initializer bounds.depth) ⟨depth, rounds⟩ := by
  unfold initializer
  apply Foresees.accept_bind
  · simp only [expressionStatement, bind_assoc]
    apply (terminated_foresees rounds _).bind
    rintro value _ ⟨phrase, semicolon, rfl⟩
    exact .pure ⟨.expression phrase semicolon, by simp [ClausePhrase.tokens]⟩ _
  · rintro ⟨token, isEither⟩
    dsimp only
    split
    · rename_i isSemicolon
      exact .pure ⟨.absent ⟨token, by simp [isSemicolon]⟩, rfl⟩ none
    · rename_i notSemicolon
      have isVar : token.kind ∈ [.kwVar] := by simpa [notSemicolon] using isEither
      apply (variableDeclaration_foresees rounds ⟨token, isVar⟩).bind
      rintro statement later ⟨phrase, isPhrase⟩
      exact .pure ⟨.declaration phrase, by simpa [ClausePhrase.tokens] using isPhrase⟩ _

theorem parameters_foresees :
    Foresees
      (fun tokens => ∃ list : Option ParameterPhrase,
        list.elim [] ParameterPhrase.tokens = tokens)
      (fun _ => commaList maxParameters .tooManyParameters (expect .identifier .parameterName))
      ⟨depth, rounds⟩ := by
  apply Foresees.commaList (by simp) maxParameters (fun _ => expect .identifier .parameterName)
    (fun _ => .expect _ _) fun _ tokens => ∃ list : ParameterPhrase, list.tokens = tokens
  · rintro _ _ ⟨name, rfl⟩
    exact ⟨.last name, rfl⟩
  · rintro _ _ _ comma ⟨name, rfl⟩ ⟨list, rfl⟩
    exact ⟨.next name comma list, rfl⟩
  · exact ⟨none, rfl⟩
  · rintro _ ⟨list, rfl⟩
    exact ⟨some list, rfl⟩

theorem functionHead_foresees :
    Foresees (fun tokens => ∃ head : HeadPhrase, head.tokens = tokens) (fun _ => functionHead)
      ⟨depth, rounds⟩ := by
  unfold functionHead
  apply Foresees.expect_bind
  intro name
  apply Foresees.expect_bind
  intro opening
  apply (parameters_foresees rounds).bind
  rintro names _ ⟨list, rfl⟩
  apply Foresees.expect_bind
  intro closing
  apply Foresees.expect_bind
  intro brace
  exact .pure ⟨⟨name, opening, list, closing, brace⟩, rfl⟩ _

theorem returnStatement_foresees (inFunction : Bool) (keyword : Terminal [.kwReturn]) :
    Foresees (fun later => SpellsStatement (keyword.token :: later))
      (fun bounds => returnStatement bounds.depth inFunction keyword.token) ⟨depth, rounds⟩ := by
  have goesOn : Foresees (fun later => SpellsStatement (keyword.token :: later))
      (fun bounds => optional bounds.depth .semicolon >>= fun value =>
        expect .semicolon .semicolonAfterReturnValue >>= fun _ =>
          pure (Stmt.ret keyword.token value)) ⟨depth, rounds⟩ := by
    apply (optional_foresees rounds _).bind
    rintro value _ ⟨phrase, rfl⟩
    apply Foresees.expect_bind
    intro semicolon
    exact .pure (StmtPhrase.ret keyword phrase semicolon).spellsStatement _
  cases inFunction with
  | true => exact goesOn
  | false =>
      apply (Foresees.note (by simp) keyword.token).bind
      rintro _ _ rfl
      exact goesOn

theorem statements_foresees (stop : Token.Kind) (declaration : Nat → Parser (Option Stmt))
    (declarations : ∀ rounds, Foresees (StmtPhrase.Spells .declaration)
      (fun bounds => declaration bounds.depth) ⟨depth, rounds⟩) :
    Foresees (fun tokens => ∃ program : ProgramPhrase, program.tokens = tokens)
      (fun bounds => bounded (statements stop (declaration bounds.depth))) ⟨depth, rounds⟩ := by
  have viable (_ : Unit) : ∃ tokens, ∃ program : ProgramPhrase, program.tokens = tokens :=
    ⟨[], [], rfl⟩
  apply Foresees.loop viable
    (fun depth rounds (_ : Unit) => statements stop (declaration depth) rounds) (fun _ _ => rfl)
    (fun _ _ _ _ _ => rfl) _ ()
  intro rounds round again _
  simp only [statements]
  apply Foresees.peek_bind
  intro token
  split
  · exact .pure ⟨[], rfl⟩ []
  · apply (declarations rounds).bind
    rintro first _ ⟨phrase, rfl⟩
    apply (again ()).bind
    rintro others _ ⟨program, rfl⟩
    exact .pure ⟨phrase :: program, by simp [ProgramPhrase.tokens]⟩ _

theorem block_succ_foresees {inFunction : Bool}
    (declarations : ∀ rounds, Foresees (StmtPhrase.Spells .declaration)
      (fun bounds => declaration bounds.depth inFunction) ⟨depth, rounds⟩) :
    Foresees
      (fun tokens => ∃ (body : StmtPhrase .declarations) (closing : Terminal [.rightBrace]),
        body.tokens ++ [closing.token] = tokens)
      (fun bounds => block bounds.depth inFunction) ⟨depth + 1, rounds⟩ := by
  apply Foresees.deeper (fun depth => block depth inFunction) (by rw [block])
  simp only [block]
  apply (statements_foresees rounds .rightBrace (declaration · inFunction) declarations).bind
  rintro body _ ⟨program, rfl⟩
  apply Foresees.expect_bind
  intro closing
  exact .pure ⟨.ofProgram program, closing, by rw [StmtPhrase.tokens_ofProgram]⟩ body

/-- An `else` goes to an `if` in the first branch, or else to the one before it. -/
theorem ifStatement_foresees (keyword : Terminal [.kwIf]) {inFunction : Bool}
    (branches : Foresees SpellsStatement (fun bounds => statement bounds.depth inFunction)
      ⟨depth, rounds⟩) :
    Foresees (fun later => SpellsStatement (keyword.token :: later))
      (fun bounds => (do
        let test ← condition bounds.depth .parenAfterIf .parenAfterIfCondition
        let thenBranch ← statement bounds.depth inFunction
        match ← accept [.kwElse] with
        | none => return .ifThen test thenBranch
        | some _ =>
          let elseBranch ← statement bounds.depth inFunction
          return .ifElse test thenBranch elseBranch : Parser Stmt)) ⟨depth, rounds⟩ := by
  apply (condition_foresees rounds _ _).bind
  rintro test _ ⟨opening, condition, closing, rfl⟩
  apply branches.bind
  rintro thenBranch _ ⟨thenOpen, thenPhrase, rfl⟩
  apply Foresees.accept_bind
  · apply Foresees.pure
    simpa using (StmtPhrase.ifThen keyword opening condition closing thenPhrase).spellsStatement
  · intro otherwise
    apply branches.bind
    rintro elseBranch _ ⟨elseOpen, elsePhrase, rfl⟩
    apply Foresees.pure
    cases thenOpen with
    | true =>
        rcases thenPhrase.spellsStatement_else rfl otherwise elsePhrase with ⟨_, longer, isLonger⟩
        have whole := (StmtPhrase.ifThen keyword opening condition closing longer).spellsStatement
        simpa [isLonger] using whole
    | false =>
        have whole := (StmtPhrase.ifElse keyword opening condition closing thenPhrase otherwise
          elsePhrase).spellsStatement
        simpa using whole

theorem forStatement_foresees (keyword : Terminal [.kwFor]) {inFunction : Bool}
    (bodies : Foresees SpellsStatement (fun bounds => statement bounds.depth inFunction)
      ⟨depth, rounds⟩) :
    Foresees (fun later => SpellsStatement (keyword.token :: later))
      (fun bounds => (do
        let _ ← expect .leftParen .parenAfterFor
        let first ← initializer bounds.depth
        let test ← optional bounds.depth .semicolon
        let _ ← expect .semicolon .semicolonAfterLoopCondition
        let increment ← optional bounds.depth .rightParen
        let _ ← expect .rightParen .parenAfterClauses
        let body ← statement bounds.depth inFunction
        return .forLoop first test increment body : Parser Stmt)) ⟨depth, rounds⟩ := by
  apply Foresees.expect_bind
  intro opening
  apply (initializer_foresees rounds).bind
  rintro first _ ⟨firstPhrase, rfl⟩
  apply (optional_foresees rounds _).bind
  rintro test _ ⟨testPhrase, rfl⟩
  apply Foresees.expect_bind
  intro semicolon
  apply (optional_foresees rounds _).bind
  rintro increment _ ⟨incrementPhrase, rfl⟩
  apply Foresees.expect_bind
  intro closing
  apply bodies.bind
  rintro body _ ⟨_, bodyPhrase, rfl⟩
  apply Foresees.pure
  have whole := (StmtPhrase.forLoop keyword opening firstPhrase testPhrase semicolon
    incrementPhrase closing bodyPhrase).spellsStatement
  simpa using whole

mutual

theorem declaration_foresees (depth : Nat) (inFunction : Bool) (rounds : List Token) :
    Foresees (StmtPhrase.Spells .declaration) (fun bounds => declaration bounds.depth inFunction)
      ⟨depth, rounds⟩ := by
  match depth with
  | 0 =>
      apply Foresees.halt _ (by rw [declaration])
      rcases StmtPhrase.exists_spellsStatement with ⟨_, _, phrase, _⟩
      exact ⟨_, (StmtPhrase.statement phrase).spells⟩
  | depth + 1 =>
      apply Foresees.deeper (fun depth => declaration depth inFunction) (by rw [declaration])
      simp only [declaration_succ]
      apply Foresees.recovering
      · apply Foresees.accept_bind
        · apply (statement_foresees depth inFunction rounds).mono
          rintro _ ⟨_, phrase, rfl⟩
          exact (StmtPhrase.statement phrase).spells
        · rintro ⟨token, isEither⟩
          dsimp only
          split
          · rename_i isVar
            apply (variableDeclaration_foresees rounds ⟨token, by simp [isVar]⟩).mono
            rintro later ⟨phrase, isPhrase⟩
            exact ⟨.declare phrase, isPhrase⟩
          · rename_i notVar
            have isFun : token.kind ∈ [.kwFun] := by simpa [notVar] using isEither
            apply (functionHead_foresees rounds).bind
            rintro head _ ⟨headPhrase, rfl⟩
            apply (block_foresees depth true rounds).bind
            rintro body _ ⟨bodyPhrase, closing, rfl⟩
            apply Foresees.pure
            simpa using (StmtPhrase.function ⟨token, isFun⟩ headPhrase bodyPhrase closing).spells
      · intro input error rest noted failed
        rw [SyntaxError.isMajor_iff]
        exact (declared_corresponds depth inFunction).not_isMinor failed

theorem statement_foresees (depth : Nat) (inFunction : Bool) (rounds : List Token) :
    Foresees SpellsStatement (fun bounds => statement bounds.depth inFunction)
      ⟨depth, rounds⟩ := by
  match depth with
  | 0 => exact .halt StmtPhrase.exists_spellsStatement (by rw [statement])
  | depth + 1 =>
      apply Foresees.deeper (fun depth => statement depth inFunction) (by rw [statement])
      simp only [statement]
      apply Foresees.accept_bind
      · exact expressionStatement_foresees rounds
      · rintro ⟨token, isKeyword⟩
        dsimp only
        simp only [List.mem_cons, List.not_mem_nil, or_false] at isKeyword
        rcases isKeyword with isKind | isKind | isKind | isKind | isKind | isKind <;>
          simp only [isKind]
        · apply (terminated_foresees rounds _).bind
          rintro value _ ⟨phrase, semicolon, rfl⟩
          apply Foresees.pure
          simpa using (StmtPhrase.print ⟨token, by simp [isKind]⟩ phrase semicolon).spellsStatement
        · apply (block_foresees depth inFunction rounds).bind
          rintro body _ ⟨phrase, closing, rfl⟩
          apply Foresees.pure
          simpa using (StmtPhrase.block ⟨token, by simp [isKind]⟩ phrase closing).spellsStatement
        · exact ifStatement_foresees rounds ⟨token, by simp [isKind]⟩
            (statement_foresees depth inFunction rounds)
        · apply (condition_foresees rounds _ _).bind
          rintro test _ ⟨opening, condition, closing, rfl⟩
          apply (statement_foresees depth inFunction rounds).bind
          rintro body _ ⟨_, phrase, rfl⟩
          apply Foresees.pure
          have whole := (StmtPhrase.whileDo ⟨token, by simp [isKind]⟩ opening condition closing
            phrase).spellsStatement
          simpa using whole
        · exact forStatement_foresees rounds ⟨token, by simp [isKind]⟩
            (statement_foresees depth inFunction rounds)
        · exact returnStatement_foresees rounds inFunction ⟨token, by simp [isKind]⟩

theorem block_foresees (depth : Nat) (inFunction : Bool) (rounds : List Token) :
    Foresees
      (fun tokens => ∃ (body : StmtPhrase .declarations) (closing : Terminal [.rightBrace]),
        body.tokens ++ [closing.token] = tokens)
      (fun bounds => block bounds.depth inFunction) ⟨depth, rounds⟩ := by
  match depth with
  | 0 => exact .halt ⟨_, .noDeclaration, default, rfl⟩ (by rw [block])
  | depth + 1 => exact block_succ_foresees rounds (declaration_foresees depth inFunction)

end

end Grammar

end Scriptlet
