import Scriptlet.Proofs.Completeness.Statement
import Scriptlet.Proofs.Correspondence.Grammar
import Scriptlet.Proofs.Soundness.Expression

/-!
# What is read as a statement is one

Whenever a rule of the grammar of statements succeeds without having given anything up, the tokens
it has read are those of a phrase, as with expressions. Giving something up always leaves an error
about something missing, so that the other errors do not stand in the way.
-/

namespace Scriptlet

open Scriptlet.Parser

variable {input rest : List Token} {noted : List SyntaxError}

theorem terminated_derives {depth : Nat} {missing : Missing} {value : Expr}
    (read : Grammar.terminated depth missing input = .done value rest noted) :
    ∃ (phrase : ExprPhrase .expression) (semicolon : Terminal [.semicolon]),
      input = phrase.tokens ++ semicolon.token :: rest ∧ phrase.tree = value ∧
      phrase.errors = noted := by
  rw [Grammar.terminated] at read
  rcases bind_eq_done read with ⟨_, _, _, _, valueRead, next, rfl⟩
  rcases ExprPhrase.expression_derives depth _ _ _ _ valueRead with ⟨phrase, rfl, rfl, rfl⟩
  rcases expect_bind_eq_done next with ⟨semicolon, _, rfl, done⟩
  rcases pure_eq_done done with ⟨rfl, rfl, rfl⟩
  exact ⟨phrase, semicolon, rfl, rfl, by simp⟩

theorem condition_derives {depth : Nat} {before after : Missing} {value : Expr}
    (read : Grammar.condition depth before after input = .done value rest noted) :
    ∃ (opening : Terminal [.leftParen]) (phrase : ExprPhrase .expression)
      (closing : Terminal [.rightParen]),
      input = opening.token :: (phrase.tokens ++ closing.token :: rest) ∧ phrase.tree = value ∧
      phrase.errors = noted := by
  rw [Grammar.condition] at read
  rcases expect_bind_eq_done read with ⟨opening, _, rfl, inner⟩
  rcases bind_eq_done inner with ⟨_, _, _, _, valueRead, next, rfl⟩
  rcases ExprPhrase.expression_derives depth _ _ _ _ valueRead with ⟨phrase, rfl, rfl, rfl⟩
  rcases expect_bind_eq_done next with ⟨closing, _, rfl, done⟩
  rcases pure_eq_done done with ⟨rfl, rfl, rfl⟩
  exact ⟨opening, phrase, closing, rfl, rfl, by simp⟩

theorem optional_derives {depth : Nat} {stop : Token.Kind} {value : Option Expr}
    (read : Grammar.optional depth stop input = .done value rest noted) :
    ∃ phrase : OptionalPhrase,
      input = phrase.tokens ++ rest ∧ phrase.tree = value ∧ phrase.errors = noted := by
  rw [Grammar.optional] at read
  rcases isNext_bind_eq_done read with ⟨isStop, next⟩
  cases isStop with
  | true =>
      rcases pure_eq_done next with ⟨rfl, rfl, rfl⟩
      exact ⟨none, rfl, rfl, rfl⟩
  | false =>
      rcases bind_eq_done next with ⟨_, _, _, _, valueRead, done, rfl⟩
      rcases pure_eq_done done with ⟨rfl, rfl, rfl⟩
      rcases ExprPhrase.expression_derives depth _ _ _ _ valueRead with ⟨phrase, rfl, rfl, rfl⟩
      exact ⟨some phrase, rfl, rfl, by simp [OptionalPhrase.errors]⟩

theorem variableDeclaration_derives (keyword : Terminal [.kwVar]) {depth : Nat} {value : Stmt}
    (read : Grammar.variableDeclaration depth input = .done value rest noted) :
    ∃ phrase : VariablePhrase,
      phrase.keyword = keyword ∧ input = phrase.tail ++ rest ∧ phrase.tree = value ∧
      phrase.value.errors = noted := by
  rw [Grammar.variableDeclaration] at read
  rcases expect_bind_eq_done read with ⟨name, _, rfl, next⟩
  rcases accept_bind_eq_done next with ⟨equals, _, rfl, goesOn⟩ | ⟨_, ends⟩
  · rcases bind_eq_done goesOn with ⟨_, _, _, _, valueRead, done, rfl⟩
    rcases pure_eq_done done with ⟨rfl, rfl, rfl⟩
    rcases terminated_derives valueRead with ⟨phrase, semicolon, rfl, rfl, rfl⟩
    refine ⟨⟨keyword, name, some (equals, phrase), semicolon⟩, rfl, ?_, rfl, ?_⟩
    · simp [VariablePhrase.tail]
    · simp [VariablePhrase.value, OptionalPhrase.errors]
  · rcases expect_bind_eq_done ends with ⟨semicolon, _, rfl, done⟩
    rcases pure_eq_done done with ⟨rfl, rfl, rfl⟩
    exact ⟨⟨keyword, name, none, semicolon⟩, rfl, rfl, rfl, rfl⟩

theorem initializer_derives {depth : Nat} {value : Option Stmt}
    (read : Grammar.initializer depth input = .done value rest noted) :
    ∃ phrase : ClausePhrase,
      input = phrase.tokens ++ rest ∧ phrase.tree = value ∧ phrase.value.errors = noted := by
  rw [Grammar.initializer] at read
  rcases accept_bind_eq_done read with ⟨⟨token, isEither⟩, _, rfl, next⟩ | ⟨_, next⟩
  · by_cases isSemicolon : token.kind = .semicolon
    · simp only [isSemicolon, if_true] at next
      rcases pure_eq_done next with ⟨rfl, rfl, rfl⟩
      exact ⟨.absent ⟨token, List.mem_singleton.mpr isSemicolon⟩, rfl, rfl, rfl⟩
    · have isVar : token.kind = .kwVar := by simpa [isSemicolon] using isEither
      simp only [isSemicolon, if_false] at next
      rcases bind_eq_done next with ⟨_, _, _, _, declared, done, rfl⟩
      rcases pure_eq_done done with ⟨rfl, rfl, rfl⟩
      rcases variableDeclaration_derives ⟨token, List.mem_singleton.mpr isVar⟩ declared with
          ⟨phrase, sameKeyword, rfl, rfl, rfl⟩
      refine ⟨.declaration phrase, ?_, rfl, by simp [ClausePhrase.value]⟩
      simp [ClausePhrase.tokens, VariablePhrase.tokens, sameKeyword]
  · rcases bind_eq_done next with ⟨_, _, _, _, evaluated, done, rfl⟩
    rcases pure_eq_done done with ⟨rfl, rfl, rfl⟩
    rw [Grammar.expressionStatement] at evaluated
    rcases bind_eq_done evaluated with ⟨_, _, _, _, valueRead, done, rfl⟩
    rcases pure_eq_done done with ⟨rfl, rfl, rfl⟩
    rcases terminated_derives valueRead with ⟨phrase, semicolon, rfl, rfl, rfl⟩
    refine ⟨.expression phrase semicolon, ?_, rfl, ?_⟩
    · simp [ClausePhrase.tokens]
    · simp [ClausePhrase.value, OptionalPhrase.errors]

/-- Rounds of names and commas are a list of parameters. -/
theorem parameters_derive {rounds : List Token} {count : Nat} {names : List Token}
    (read : separated maxParameters .tooManyParameters (expect .identifier .parameterName) rounds
      count input = .done names rest noted) :
    ∃ phrase : ParameterPhrase,
      input = phrase.tokens ++ rest ∧ phrase.names = names ∧
      (phrase.names.drop (maxParameters - count)).map (SyntaxError.mk .tooManyParameters) =
        noted := by
  induction rounds generalizing count names input noted with
  | nil => contradiction
  | cons round rounds ih =>
      have begins : BeginsWith (input.map Token.kind) input := by
        cases input with
        | cons token between => exact ⟨token, between, rfl, List.mem_cons_self⟩
        | nil =>
            rw [separated] at read
            split at read <;> contradiction
      rw [separated_cons _ _ _ _ _ _ begins] at read
      rcases noting_eq_done read with ⟨later, roundRead, rfl⟩
      rcases expect_bind_eq_done roundRead with ⟨name, between, rfl, next⟩
      rcases accept_bind_eq_done next with ⟨comma, after, rfl, goesOn⟩ | ⟨_, ends⟩
      · rcases bind_eq_done goesOn with ⟨_, _, _, _, listRead, done, rfl⟩
        rcases pure_eq_done done with ⟨rfl, rfl, rfl⟩
        rcases ih listRead with ⟨list, rfl, rfl, rfl⟩
        refine ⟨.next name comma list, rfl, rfl, ?_⟩
        rw [ParameterPhrase.names, ParameterPhrase.map_drop_cons, List.append_nil]
      · rcases pure_eq_done ends with ⟨rfl, rfl, rfl⟩
        refine ⟨.last name, rfl, rfl, ?_⟩
        rw [ParameterPhrase.names, ParameterPhrase.map_drop_cons, List.drop_nil, List.map_nil]

theorem functionHead_derives {value : Token × List Token}
    (read : Grammar.functionHead input = .done value rest noted) :
    ∃ phrase : HeadPhrase,
      input = phrase.tokens ++ rest ∧ (phrase.name.token, phrase.parameters) = value ∧
      phrase.errors = noted := by
  rw [Grammar.functionHead] at read
  rcases expect_bind_eq_done read with ⟨name, _, rfl, next⟩
  rcases expect_bind_eq_done next with ⟨opening, _, rfl, inner⟩
  rcases bind_eq_done inner with ⟨names, between, _, _, listRead, after, rfl⟩
  rcases expect_bind_eq_done after with ⟨closing, _, rfl, ends⟩
  rcases expect_bind_eq_done ends with ⟨brace, _, rfl, done⟩
  rcases pure_eq_done done with ⟨rfl, rfl, rfl⟩
  rw [commaList] at listRead
  rcases isNext_bind_eq_done listRead with ⟨isClosing, next⟩
  cases isClosing with
  | true =>
      rcases pure_eq_done next with ⟨rfl, rfl, rfl⟩
      exact ⟨⟨name, opening, none, closing, brace⟩, rfl, rfl, rfl⟩
  | false =>
      rcases parameters_derive next with ⟨list, rfl, rfl, rfl⟩
      refine ⟨⟨name, opening, some list, closing, brace⟩, ?_, rfl, ?_⟩
      · simp [HeadPhrase.tokens]
      · simp [HeadPhrase.errors, HeadPhrase.parameters]

theorem returnStatement_derives (keyword : Terminal [.kwReturn]) {depth : Nat} {inFunction : Bool}
    {value : Stmt}
    (read : Grammar.returnStatement depth inFunction keyword.token input =
      .done value rest noted) :
    ∃ phrase : StmtPhrase (.statement false),
      keyword.token :: input = phrase.tokens ++ rest ∧ phrase.tree = value ∧
      phrase.errors inFunction = noted := by
  rw [StmtPhrase.returnStatement_apply] at read
  rcases noting_eq_done read with ⟨_, returned, rfl⟩
  rcases bind_eq_done returned with ⟨_, _, _, _, valueRead, next, rfl⟩
  rcases optional_derives valueRead with ⟨phrase, rfl, rfl, rfl⟩
  rcases expect_bind_eq_done next with ⟨semicolon, _, rfl, done⟩
  rcases pure_eq_done done with ⟨rfl, rfl, rfl⟩
  refine ⟨.ret keyword phrase semicolon, ?_, rfl, ?_⟩
  · simp
  · simp

/-- Whether an error was noted down without giving anything up. -/
def SyntaxError.IsMinor (error : SyntaxError) : Prop :=
  ∀ what, error.cause ≠ .missing what

/-- A parser that corresponds to itself gives up only where something is missing. -/
theorem Parser.Correspond.not_isMinor {α : Type} {related : α → α → Prop} {parser : Parser α}
    (corresponds : Correspond (.only fun _ => True) related parser parser) {error : SyntaxError}
    (failed : parser input = .failed error rest noted) : ¬error.IsMinor := by
  have replies := corresponds input input (Likeness.forall₂_only fun _ _ => trivial)
  rw [failed] at replies
  cases replies
  exact fun isMinor => isMinor _ rfl

/-- A parser that has noted down only minor errors has not given up. -/
theorem recovering_eq_done {α : Type} {related : α → α → Prop} {parser : Parser α}
    (corresponds : Correspond (.only fun _ => True) related parser parser)
    {result : Option α} (read : recovering parser input = .done result rest noted)
    (minor : ∀ error ∈ noted, error.IsMinor) :
    ∃ value, result = some value ∧ parser input = .done value rest noted := by
  unfold recovering at read
  cases parsed : parser input with
  | done value left later =>
      rw [parsed] at read
      cases read
      exact ⟨value, rfl, rfl⟩
  | failed error left earlier =>
      rw [parsed] at read
      dsimp only at read
      split at read
      · cases read
        exact absurd (minor error (by simp)) (corresponds.not_isMinor parsed)
      · contradiction
  | halted reason =>
      rw [parsed] at read
      contradiction

/-- That what a parser reads, having given nothing up, is a declaration. -/
def DerivesDeclaration (inFunction : Bool) (parser : Parser (Option Stmt)) : Prop :=
  ∀ input result rest noted, parser input = .done result rest noted →
    (∀ error ∈ noted, error.IsMinor) →
    ∃ phrase : StmtPhrase .declaration,
      input = phrase.tokens ++ rest ∧ result = some phrase.tree ∧ phrase.errors inFunction = noted

/--
That what a parser reads, having given nothing up, is a statement. A statement that could take an
`else` does not stand before one.
-/
def DerivesStatement (inFunction : Bool) (parser : Parser Stmt) : Prop :=
  ∀ input value rest noted, parser input = .done value rest noted →
    (∀ error ∈ noted, error.IsMinor) →
    ∃ (endsOpen : Bool) (phrase : StmtPhrase (.statement endsOpen)),
      input = phrase.tokens ++ rest ∧ phrase.tree = value ∧ phrase.errors inFunction = noted ∧
      (endsOpen = true → Avoids [.kwElse] rest)

/-- That what a parser reads, having given nothing up, is the rest of a block. -/
def DerivesBlock (inFunction : Bool) (parser : Parser (List Stmt)) : Prop :=
  ∀ input value rest noted, parser input = .done value rest noted →
    (∀ error ∈ noted, error.IsMinor) →
    ∃ (body : StmtPhrase .declarations) (closing : Terminal [.rightBrace]),
      input = body.tokens ++ closing.token :: rest ∧ body.tree = value ∧
      body.errors inFunction = noted

/-- Rounds of declarations are declarations, up to the token that ends them. -/
theorem statements_derive {inFunction : Bool} {declaration : Parser (Option Stmt)}
    (derives : DerivesDeclaration inFunction declaration) {stop : Token.Kind}
    {rounds : List Token} {value : List Stmt}
    (read : statements stop declaration rounds input = .done value rest noted)
    (minor : ∀ error ∈ noted, error.IsMinor) :
    ∃ program : ProgramPhrase,
      input = program.tokens ++ rest ∧ program.tree = value ∧
      program.flatMap (StmtPhrase.errors inFunction) = noted ∧ BeginsWith [.eof, stop] rest := by
  induction rounds generalizing input value noted with
  | nil => contradiction
  | cons round rounds ih =>
      rw [statements] at read
      cases input with
      | nil => contradiction
      | cons token between =>
          rw [peek_bind] at read
          split at read
          · rename_i isStop
            rcases pure_eq_done read with ⟨rfl, rfl, rfl⟩
            exact ⟨[], rfl, rfl, rfl, token, between, rfl, by simpa using isStop⟩
          · rcases bind_eq_done read with ⟨_, _, _, _, firstRead, next, rfl⟩
            rcases bind_eq_done next with ⟨_, _, _, _, othersRead, done, rfl⟩
            rcases pure_eq_done done with ⟨rfl, rfl, rfl⟩
            rcases derives _ _ _ _ firstRead fun error mem => minor error (by simp [mem]) with
                ⟨first, begins, rfl, rfl⟩
            rcases ih othersRead fun error mem => minor error (by simp [mem]) with
                ⟨others, rfl, rfl, rfl, ends⟩
            refine ⟨first :: others, ?_, ?_, ?_, ends⟩
            · simp [begins, ProgramPhrase.tokens]
            · simp [ProgramPhrase.tree]
            · simp

/-- What is read as a block is a program and a closing brace. -/
theorem block_succ_derives {depth : Nat} {inFunction : Bool}
    (derives : DerivesDeclaration inFunction (Grammar.declaration depth inFunction)) :
    DerivesBlock inFunction (Grammar.block (depth + 1) inFunction) := by
  intro input value rest noted read minor
  rw [Grammar.block] at read
  rcases bind_eq_done read with ⟨_, _, _, _, bodyRead, next, rfl⟩
  rcases expect_bind_eq_done next with ⟨closing, _, rfl, done⟩
  rcases pure_eq_done done with ⟨rfl, rfl, rfl⟩
  rw [List.append_nil] at minor
  rcases statements_derive derives bodyRead minor with ⟨program, rfl, rfl, rfl, _⟩
  refine ⟨.ofProgram program, closing, ?_, ?_, ?_⟩
  · rw [StmtPhrase.tokens_ofProgram]
  · rw [StmtPhrase.tree_ofProgram]
  · rw [StmtPhrase.errors_ofProgram, List.append_nil]

/-- What is read after an `if` ends the statement. An `else` goes to the nearest `if`. -/
theorem ifStatement_derives (keyword : Terminal [.kwIf]) {depth : Nat} {inFunction : Bool}
    {statement : Parser Stmt} (derives : DerivesStatement inFunction statement) {value : Stmt}
    (read : (do
      let test ← Grammar.condition depth .parenAfterIf .parenAfterIfCondition
      let thenBranch ← statement
      match ← accept [.kwElse] with
      | none => return .ifThen test thenBranch
      | some _ => return .ifElse test thenBranch (← statement) : Parser Stmt) input =
        .done value rest noted)
    (minor : ∀ error ∈ noted, error.IsMinor) :
    ∃ (endsOpen : Bool) (phrase : StmtPhrase (.statement endsOpen)),
      keyword.token :: input = phrase.tokens ++ rest ∧ phrase.tree = value ∧
      phrase.errors inFunction = noted ∧ (endsOpen = true → Avoids [.kwElse] rest) := by
  rcases bind_eq_done read with ⟨_, _, _, _, conditionRead, afterCondition, rfl⟩
  rcases bind_eq_done afterCondition with ⟨_, _, _, _, thenRead, afterThen, rfl⟩
  rcases condition_derives conditionRead with ⟨opening, condition, closing, rfl, rfl, rfl⟩
  rcases derives _ _ _ _ thenRead fun error mem => minor error (by simp [mem]) with
      ⟨thenOpen, thenBranch, rfl, rfl, rfl, thenStops⟩
  rcases accept_bind_eq_done afterThen with ⟨otherwise, _, rfl, goesOn⟩ | ⟨stops, ends⟩
  · rcases bind_eq_done goesOn with ⟨_, _, _, _, elseRead, done, rfl⟩
    rcases pure_eq_done done with ⟨rfl, rfl, rfl⟩
    rcases derives _ _ _ _ elseRead fun error mem => minor error (by simp [mem]) with
        ⟨endsOpen, elseBranch, rfl, rfl, rfl, elseStops⟩
    -- The inner statement would have taken the `else` if it could.
    cases thenOpen with
    | true =>
        rcases thenStops rfl with ⟨_, _, same, notElse⟩
        cases same
        exact absurd otherwise.kind_mem notElse
    | false =>
        refine ⟨endsOpen, .ifElse keyword opening condition closing
          thenBranch otherwise elseBranch, ?_, rfl, ?_, elseStops⟩
        · simp
        · simp
  · rcases pure_eq_done ends with ⟨rfl, rfl, rfl⟩
    refine ⟨true, .ifThen keyword opening condition closing thenBranch,
      ?_, rfl, ?_, fun _ => stops⟩
    · simp
    · simp

/-- What is read after a `for` ends the loop. -/
theorem forStatement_derives (keyword : Terminal [.kwFor]) {depth : Nat} {inFunction : Bool}
    {statement : Parser Stmt} (derives : DerivesStatement inFunction statement) {value : Stmt}
    (read : (do
      let _ ← expect .leftParen .parenAfterFor
      let first ← Grammar.initializer depth
      let test ← Grammar.optional depth .semicolon
      let _ ← expect .semicolon .semicolonAfterLoopCondition
      let increment ← Grammar.optional depth .rightParen
      let _ ← expect .rightParen .parenAfterClauses
      return .forLoop first test increment (← statement) : Parser Stmt) input =
        .done value rest noted)
    (minor : ∀ error ∈ noted, error.IsMinor) :
    ∃ (endsOpen : Bool) (phrase : StmtPhrase (.statement endsOpen)),
      keyword.token :: input = phrase.tokens ++ rest ∧ phrase.tree = value ∧
      phrase.errors inFunction = noted ∧ (endsOpen = true → Avoids [.kwElse] rest) := by
  rcases expect_bind_eq_done read with ⟨opening, _, rfl, afterOpening⟩
  rcases bind_eq_done afterOpening with ⟨_, _, _, _, firstRead, afterFirst, rfl⟩
  rcases bind_eq_done afterFirst with ⟨_, _, _, _, conditionRead, afterCondition, rfl⟩
  rcases expect_bind_eq_done afterCondition with ⟨semicolon, _, rfl, afterSemicolon⟩
  rcases bind_eq_done afterSemicolon with ⟨_, _, _, _, incrementRead, afterIncrement, rfl⟩
  rcases expect_bind_eq_done afterIncrement with ⟨closing, _, rfl, afterClosing⟩
  rcases bind_eq_done afterClosing with ⟨_, _, _, _, bodyRead, done, rfl⟩
  rcases pure_eq_done done with ⟨rfl, rfl, rfl⟩
  rcases initializer_derives firstRead with ⟨first, rfl, rfl, rfl⟩
  rcases optional_derives conditionRead with ⟨condition, rfl, rfl, rfl⟩
  rcases optional_derives incrementRead with ⟨increment, rfl, rfl, rfl⟩
  rcases derives _ _ _ _ bodyRead fun error mem => minor error (by simp [mem]) with
      ⟨endsOpen, body, rfl, rfl, rfl, bodyStops⟩
  refine ⟨endsOpen, .forLoop keyword opening first condition semicolon
    increment closing body, ?_, StmtPhrase.tree_forLoop .., ?_, bodyStops⟩
  · simp
  · simp

/-- What is read as a statement is one, if what is read as a smaller one is. -/
theorem statement_succ_derives {depth : Nat} {inFunction : Bool}
    (derives : DerivesStatement inFunction (Grammar.statement depth inFunction))
    (blockDerives : DerivesBlock inFunction (Grammar.block depth inFunction)) :
    DerivesStatement inFunction (Grammar.statement (depth + 1) inFunction) := by
  intro input value rest noted read minor
  rw [Grammar.statement] at read
  rcases accept_bind_eq_done read with ⟨⟨token, isKeyword⟩, between, rfl, next⟩ | ⟨_, next⟩
  · dsimp only at next ⊢
    simp only [List.mem_cons, List.not_mem_nil, or_false] at isKeyword
    rcases isKeyword with isKind | isKind | isKind | isKind | isKind | isKind <;>
      simp only [isKind] at next
    · rcases bind_eq_done next with ⟨_, _, _, _, valueRead, done, rfl⟩
      rcases pure_eq_done done with ⟨rfl, rfl, rfl⟩
      rcases terminated_derives valueRead with ⟨phrase, semicolon, rfl, rfl, rfl⟩
      refine ⟨false, .print ⟨token, by simp [isKind]⟩ phrase semicolon, ?_, rfl, ?_, by simp⟩
      · simp
      · simp
    · rcases bind_eq_done next with ⟨_, _, _, _, bodyRead, done, rfl⟩
      rcases pure_eq_done done with ⟨rfl, rfl, rfl⟩
      rw [List.append_nil] at minor
      rcases blockDerives _ _ _ _ bodyRead minor with ⟨body, closing, rfl, rfl, rfl⟩
      refine ⟨false, .block ⟨token, by simp [isKind]⟩ body closing, ?_, rfl, ?_, by simp⟩
      · simp
      · simp
    · exact ifStatement_derives ⟨token, by simp [isKind]⟩ derives next minor
    · rcases bind_eq_done next with ⟨_, _, _, _, conditionRead, afterCondition, rfl⟩
      rcases bind_eq_done afterCondition with ⟨_, _, _, _, bodyRead, done, rfl⟩
      rcases pure_eq_done done with ⟨rfl, rfl, rfl⟩
      rcases condition_derives conditionRead with ⟨opening, condition, closing, rfl, rfl, rfl⟩
      rcases derives _ _ _ _ bodyRead fun error mem => minor error (by simp [mem]) with
          ⟨endsOpen, body, rfl, rfl, rfl, bodyStops⟩
      refine ⟨endsOpen, .whileDo ⟨token, by simp [isKind]⟩ opening condition closing body,
        ?_, rfl, ?_, bodyStops⟩
      · simp
      · simp
    · exact forStatement_derives ⟨token, by simp [isKind]⟩ derives next minor
    · rcases returnStatement_derives ⟨token, by simp [isKind]⟩ next with ⟨phrase, same, rfl, rfl⟩
      exact ⟨false, phrase, same, rfl, rfl, by simp⟩
  · rw [Grammar.expressionStatement] at next
    rcases bind_eq_done next with ⟨_, _, _, _, valueRead, done, rfl⟩
    rcases pure_eq_done done with ⟨rfl, rfl, rfl⟩
    rcases terminated_derives valueRead with ⟨phrase, semicolon, rfl, rfl, rfl⟩
    refine ⟨false, .expression phrase semicolon, ?_, rfl, ?_, by simp⟩
    · simp
    · simp

/-- What is read as a declaration is one, if what is read as a statement or block is. -/
theorem declaration_succ_derives {depth : Nat} {inFunction : Bool}
    (derives : DerivesStatement inFunction (Grammar.statement depth inFunction))
    (blockDerives : DerivesBlock true (Grammar.block depth true)) :
    DerivesDeclaration inFunction (Grammar.declaration (depth + 1) inFunction) := by
  intro input result rest noted read minor
  rw [Grammar.declaration_succ] at read
  rcases recovering_eq_done (Grammar.declared_corresponds depth inFunction) read minor with
      ⟨value, rfl, parsed⟩
  rcases accept_bind_eq_done parsed with ⟨⟨token, isEither⟩, between, rfl, next⟩ | ⟨_, next⟩
  · by_cases isVar : token.kind = .kwVar
    · simp only [isVar, if_true] at next
      rcases variableDeclaration_derives ⟨token, List.mem_singleton.mpr isVar⟩ next with
          ⟨phrase, sameKeyword, rfl, rfl, rfl⟩
      refine ⟨.declare phrase, ?_, rfl, rfl⟩
      simp [VariablePhrase.tokens, sameKeyword]
    · have isFun : token.kind = .kwFun := by simpa [isVar] using isEither
      simp only [isVar, if_false] at next
      rcases bind_eq_done next with ⟨_, _, _, _, headRead, afterHead, rfl⟩
      rcases bind_eq_done afterHead with ⟨_, _, _, _, bodyRead, done, rfl⟩
      rcases pure_eq_done done with ⟨rfl, rfl, rfl⟩
      rcases functionHead_derives headRead with ⟨head, rfl, rfl, rfl⟩
      rcases blockDerives _ _ _ _ bodyRead fun error mem => minor error (by simp [mem]) with
          ⟨body, closing, rfl, rfl, rfl⟩
      refine ⟨.function ⟨token, List.mem_singleton.mpr isFun⟩ head body closing, ?_, rfl, ?_⟩
      · simp
      · simp
  · rcases derives _ _ _ _ next minor with ⟨_, phrase, rfl, rfl, rfl, _⟩
    exact ⟨.statement phrase, rfl, rfl, rfl⟩

mutual

theorem declaration_derives (depth : Nat) (inFunction : Bool) :
    DerivesDeclaration inFunction (Grammar.declaration depth inFunction) := by
  match depth with
  | 0 => exact fun _ _ _ _ read => by rw [Grammar.declaration] at read; contradiction
  | depth + 1 =>
      exact declaration_succ_derives (statement_derives depth inFunction) (block_derives depth true)

theorem statement_derives (depth : Nat) (inFunction : Bool) :
    DerivesStatement inFunction (Grammar.statement depth inFunction) := by
  match depth with
  | 0 => exact fun _ _ _ _ read => by rw [Grammar.statement] at read; contradiction
  | depth + 1 =>
      exact statement_succ_derives (statement_derives depth inFunction)
        (block_derives depth inFunction)

theorem block_derives (depth : Nat) (inFunction : Bool) :
    DerivesBlock inFunction (Grammar.block depth inFunction) := by
  match depth with
  | 0 => exact fun _ _ _ _ read => by rw [Grammar.block] at read; contradiction
  | depth + 1 => exact block_succ_derives (declaration_derives depth inFunction)

end

end Scriptlet
