import Scriptlet.Proofs.Completeness.Statement
import Scriptlet.Proofs.Correspondence.Grammar
import Scriptlet.Proofs.EvalLaws
import Scriptlet.Proofs.Soundness.Expression

/-!
# Statements without a return

A return outside of every function is noted down when it is read, whatever else is wrong. Where
none is noted down the statements are therefore free of returns, apart from those in the bodies of
functions, and executing them never ends with one.
-/

namespace Scriptlet

/-- That a statement has no return outside of the bodies of functions. -/
inductive Stmt.ReturnFree : Stmt → Prop
  | expression (value : Expr) : ReturnFree (.expression value)
  | print (value : Expr) : ReturnFree (.print value)
  | declare (name : Token) (value : Option Expr) : ReturnFree (.declare name value)
  | block {body : List Stmt} (bodyFree : ∀ statement ∈ body, ReturnFree statement) :
      ReturnFree (.block body)
  | ifThen (condition : Expr) {thenBranch : Stmt} (thenFree : ReturnFree thenBranch) :
      ReturnFree (.ifThen condition thenBranch)
  | ifElse (condition : Expr) {thenBranch elseBranch : Stmt} (thenFree : ReturnFree thenBranch)
      (elseFree : ReturnFree elseBranch) : ReturnFree (.ifElse condition thenBranch elseBranch)
  | whileDo (condition : Expr) {body : Stmt} (bodyFree : ReturnFree body) :
      ReturnFree (.whileDo condition body)
  | function (name : Token) (parameters : List Token) (body : List Stmt) :
      ReturnFree (.function name parameters body)

theorem Stmt.ReturnFree.forLoop {initializer : Option Stmt} (condition increment : Option Expr)
    {body : Stmt} (initializerFree : ∀ statement ∈ initializer, statement.ReturnFree)
    (bodyFree : body.ReturnFree) :
    (Stmt.forLoop initializer condition increment body).ReturnFree := by
  have opened {round : Stmt} (roundFree : round.ReturnFree) :
      (Stmt.forLoop initializer condition none round).ReturnFree := by
    cases initializer with
    | none => exact .whileDo _ roundFree
    | some initializer =>
        exact .block (by simp [initializerFree, Stmt.ReturnFree.whileDo, roundFree])
  cases increment with
  | none => exact opened bodyFree
  | some increment => exact opened (.block (by simp [bodyFree, Stmt.ReturnFree.expression]))

namespace Parser

variable {α β : Type} {holds : α → Prop} {next : β → Prop}

/-- That a parser gives only values of a kind, unless it has noted down a return. -/
def UnlessReturn (holds : α → Prop) (parser : Parser α) : Prop :=
  ∀ input value rest noted, parser input = .done value rest noted →
    (∀ error ∈ noted, error.cause ≠ .topLevelReturn) → holds value

namespace UnlessReturn

theorem any (parser : Parser α) : UnlessReturn (fun _ => True) parser :=
  fun _ _ _ _ _ _ => trivial

theorem halt (reason : Halt) : UnlessReturn holds (Parser.halt reason) := by
  intro input value rest noted read
  contradiction

theorem pure {value : α} (holdsOf : holds value) : UnlessReturn holds (Pure.pure value) := by
  intro input value' rest noted read _
  rcases pure_eq_done read with ⟨rfl, _, _⟩
  exact holdsOf

theorem bind {first : Parser α} {rest : α → Parser β} (firstHolds : UnlessReturn holds first)
    (restHolds : ∀ value, holds value → UnlessReturn next (rest value)) :
    UnlessReturn next (first >>= rest) := by
  intro input value after noted read noReturn
  rcases bind_eq_done read with ⟨_, _, _, _, firstRead, restRead, rfl⟩
  simp only [List.forall_mem_append] at noReturn
  exact restHolds _ (firstHolds _ _ _ _ firstRead noReturn.1) _ _ _ _ restRead noReturn.2

/-- What a parser gives matters only if the parser after it says so. -/
theorem after {first : Parser α} {rest : α → Parser β}
    (restHolds : ∀ value, UnlessReturn next (rest value)) : UnlessReturn next (first >>= rest) :=
  (any first).bind fun value _ => restHolds value

theorem recovering {parser : Parser α} (parserHolds : UnlessReturn holds parser) :
    UnlessReturn (fun result => ∀ value ∈ result, holds value) (Parser.recovering parser) := by
  intro input result rest noted read noReturn
  unfold Parser.recovering at read
  cases parsed : parser input with
  | done value left later =>
      rw [parsed] at read
      cases read
      simpa using parserHolds _ _ _ _ parsed noReturn
  | failed error left later =>
      rw [parsed] at read
      dsimp only at read
      split at read
      · cases read
        simp
      · contradiction
  | halted reason =>
      rw [parsed] at read
      contradiction

theorem statements {stop : Token.Kind} {declaration : Parser (Option Stmt)}
    (declarationFree : UnlessReturn (fun result => ∀ statement ∈ result, statement.ReturnFree)
      declaration) (rounds : List Token) :
    UnlessReturn (fun statements => ∀ statement ∈ statements, statement.ReturnFree)
      (Parser.statements stop declaration rounds) := by
  induction rounds with
  | nil => exact halt _
  | cons round rounds ih =>
      refine after fun token => ?_
      split
      · exact pure (by simp)
      · refine declarationFree.bind fun first firstFree => ih.bind fun rest restFree => pure ?_
        simpa [or_imp, forall_and] using ⟨firstFree, restFree⟩

end UnlessReturn

end Parser

namespace Grammar

open Scriptlet.Parser

theorem variableDeclaration_returnFree (depth : Nat) :
    UnlessReturn Stmt.ReturnFree (variableDeclaration depth) := by
  refine .after fun name => .after fun equals => ?_
  cases equals with
  | none => exact .after fun _ => .pure (.declare _ _)
  | some equals => exact .after fun value => .pure (.declare _ _)

theorem expressionStatement_returnFree (depth : Nat) :
    UnlessReturn Stmt.ReturnFree (expressionStatement depth) :=
  .after fun value => .pure (.expression value)

theorem initializer_returnFree (depth : Nat) :
    UnlessReturn (fun result => ∀ statement ∈ result, statement.ReturnFree)
      (initializer depth) := by
  refine .after fun token => ?_
  cases token with
  | none =>
      exact (expressionStatement_returnFree depth).bind fun statement free =>
        .pure (by simpa using free)
  | some token =>
      dsimp only
      split
      · exact .pure (by simp)
      · exact (variableDeclaration_returnFree depth).bind fun statement free =>
          .pure (by simpa using free)

/-- A return outside of a function is noted down. -/
theorem returnStatement_returnFree (depth : Nat) (keyword : Token) :
    UnlessReturn Stmt.ReturnFree (returnStatement depth false keyword) := by
  intro input value rest noted read noReturn
  rw [StmtPhrase.returnStatement_apply] at read
  rcases noting_eq_done read with ⟨_, _, rfl⟩
  exact absurd rfl (noReturn ⟨.topLevelReturn, keyword⟩ (by simp))

mutual

theorem declared_returnFree (depth : Nat) :
    UnlessReturn Stmt.ReturnFree (declared depth false) := by
  refine .after fun token => ?_
  cases token with
  | none => exact statement_returnFree depth
  | some token =>
      dsimp only
      split
      · exact variableDeclaration_returnFree depth
      · exact .after fun head => .after fun body => .pure (.function _ _ _)

theorem declaration_returnFree (depth : Nat) :
    UnlessReturn (fun result => ∀ statement ∈ result, statement.ReturnFree)
      (declaration depth false) := by
  match depth with
  | 0 =>
      rw [declaration]
      exact .halt _
  | depth + 1 =>
      rw [declaration_succ]
      exact (declared_returnFree depth).recovering

theorem statement_returnFree (depth : Nat) :
    UnlessReturn Stmt.ReturnFree (statement depth false) := by
  match depth with
  | 0 =>
      rw [statement]
      exact .halt _
  | depth + 1 =>
      rw [statement]
      refine .after fun token => ?_
      cases token with
      | none => exact expressionStatement_returnFree depth
      | some token =>
          dsimp only
          split
          · exact .after fun value => .pure (.print value)
          · exact (block_returnFree depth).bind fun body bodyFree => .pure (.block bodyFree)
          · refine .after fun test => (statement_returnFree depth).bind fun thenBranch thenFree =>
              .after fun otherwise => ?_
            cases otherwise with
            | none => exact .pure (.ifThen test thenFree)
            | some otherwise =>
                exact (statement_returnFree depth).bind fun elseBranch elseFree =>
                  .pure (.ifElse test thenFree elseFree)
          · exact .after fun test => (statement_returnFree depth).bind fun body bodyFree =>
              .pure (.whileDo test bodyFree)
          · exact .after fun _ => (initializer_returnFree depth).bind fun first firstFree =>
              .after fun test => .after fun _ => .after fun increment => .after fun _ =>
                (statement_returnFree depth).bind fun body bodyFree =>
                  .pure (.forLoop test increment firstFree bodyFree)
          · exact returnStatement_returnFree depth token

theorem block_returnFree (depth : Nat) :
    UnlessReturn (fun body => ∀ statement ∈ body, statement.ReturnFree) (block depth false) := by
  match depth with
  | 0 =>
      rw [block]
      exact .halt _
  | depth + 1 =>
      rw [block]
      refine UnlessReturn.bind (fun input => ?_) fun body bodyFree =>
        .after fun _ => .pure bodyFree
      exact (declaration_returnFree depth).statements input input

end

end Grammar

/-- Statements that are read without noting down a return are free of returns. -/
theorem parse_returnFree {depth : Nat} {tokens : List Token} {parsed : Parsed}
    (read : parse depth tokens = .ok parsed)
    (noReturn : ∀ error ∈ parsed.errors, error.cause ≠ .topLevelReturn) :
    ∀ statement ∈ parsed.statements, statement.ReturnFree := by
  unfold parse at read
  split at read
  · rename_i done
    cases read
    exact (Grammar.declaration_returnFree depth).statements tokens _ _ _ _ done noReturn
  · cases read
    simp
  · contradiction

namespace Eval

variable {α : Type}

/-- That a step does not end with a return. -/
def NeverReturns (action : Eval Flow) : Prop :=
  ∀ machine flow after, action machine = .ok flow after → flow = .next

namespace NeverReturns

theorem next : NeverReturns (pure .next) := by
  intro machine flow after ran
  cases ran
  rfl

theorem stop (reason : Stop) : NeverReturns (throw reason) := by
  intro machine flow after ran
  contradiction

theorem bind {first : Eval α} {rest : α → Eval Flow} (never : ∀ value, NeverReturns (rest value)) :
    NeverReturns (first >>= rest) := by
  intro machine flow after ran
  rcases bind_eq_ok ran with ⟨value, between, _, restRan⟩
  exact never value between flow after restRan

/-- What comes after a step that does not return need only deal with that. -/
theorem bind_next {first : Eval Flow} {rest : Flow → Eval Flow} (firstNever : NeverReturns first)
    (restNever : NeverReturns (rest .next)) : NeverReturns (first >>= rest) := by
  intro machine flow after ran
  rcases bind_eq_ok ran with ⟨value, between, firstRan, restRan⟩
  cases firstNever machine value between firstRan
  exact restNever between flow after restRan

theorem within (scope : ScopeId) {action : Eval Flow} (never : NeverReturns action) :
    NeverReturns (Eval.within scope action) := by
  intro machine flow after ran
  rw [within_apply] at ran
  cases inner : action { machine with current := scope } with
  | ok value between =>
      rw [inner] at ran
      cases ran
      exact never _ _ _ inner
  | error reason between =>
      rw [inner] at ran
      contradiction

theorem sequence {execute : Stmt → Eval Flow} {statements : List Stmt}
    (never : ∀ statement ∈ statements, NeverReturns (execute statement)) :
    NeverReturns (Eval.sequence execute statements) := by
  induction statements with
  | nil => exact next
  | cons statement statements ih =>
      rw [List.forall_mem_cons] at never
      exact never.1.bind_next (ih never.2)

theorem loop (condition : Eval Value) {body : Eval Flow} (never : NeverReturns body)
    (rounds : Nat) : NeverReturns (Eval.loop condition body rounds) := by
  induction rounds with
  | zero => exact stop _
  | succ rounds ih =>
      refine bind fun value => ?_
      split
      · exact never.bind_next ih
      · exact next

end NeverReturns

end Eval

/-- Executing a statement that is free of returns never ends with one. -/
theorem Stmt.ReturnFree.neverReturns {statement : Stmt} (free : statement.ReturnFree)
    (rounds depth : Nat) : Eval.NeverReturns (statement.execute rounds depth) := by
  induction depth generalizing statement with
  | zero =>
      rw [Stmt.execute]
      exact .stop _
  | succ depth ih =>
      cases free with
      | expression value =>
          rw [Stmt.execute]
          exact .bind fun _ => .next
      | print value =>
          rw [Stmt.execute]
          exact .bind fun _ => .bind fun _ => .next
      | declare name value =>
          cases value with
          | none =>
              rw [Stmt.execute]
              exact .bind fun _ => .next
          | some value =>
              rw [Stmt.execute]
              exact .bind fun _ => .bind fun _ => .next
      | block bodyFree =>
          rw [Stmt.execute]
          exact .bind fun _ => .bind fun scope =>
            .within scope (.sequence fun statement member => ih (bodyFree statement member))
      | ifThen condition thenFree =>
          rw [Stmt.execute]
          refine .bind fun value => ?_
          split
          · exact ih thenFree
          · exact .next
      | ifElse condition thenFree elseFree =>
          rw [Stmt.execute]
          refine .bind fun value => ?_
          split
          · exact ih thenFree
          · exact ih elseFree
      | whileDo condition bodyFree =>
          rw [Stmt.execute]
          exact .loop _ (ih bodyFree) rounds
      | function name parameters body =>
          rw [Stmt.execute]
          exact .bind fun _ => .bind fun _ => .next

namespace Eval

variable {execute : Stmt → Eval Flow} {statements : List Stmt} {machine after : Machine}

/-- That statements are executed one after the other, each of them to its end. -/
inductive RunsThrough (execute : Stmt → Eval Flow) : List Stmt → Machine → Machine → Prop
  | nil (machine : Machine) : RunsThrough execute [] machine machine
  | cons {statement : Stmt} {statements : List Stmt} {machine between after : Machine}
      (ends : execute statement machine = .ok .next between)
      (rest : RunsThrough execute statements between after) :
      RunsThrough execute (statement :: statements) machine after

theorem sequence_eq_next_iff :
    sequence execute statements machine = .ok .next after ↔
      RunsThrough execute statements machine after := by
  constructor
  · intro ran
    induction statements generalizing machine with
    | nil =>
        cases ran
        exact .nil _
    | cons statement statements ih =>
        rcases bind_eq_ok ran with ⟨flow, between, ends, restRan⟩
        cases flow with
        | next => exact .cons ends (ih restRan)
        | returned value => cases restRan
  · intro runs
    induction runs with
    | nil => rfl
    | cons ends _ ih => exact (bind_of_ok ends).trans ih

/-- Statements that are free of returns are run without an error only if they go on to the end. -/
theorem interpret_eq_none_iff (free : ∀ statement ∈ statements, statement.ReturnFree)
    {limits : Limits} {scope : ScopeId} :
    interpret limits statements scope machine = .ok none after ↔
      ∃ last, sequence (Stmt.execute limits.rounds limits.depth) statements
          { machine with current := scope } = .ok .next last ∧
        after = { last with current := machine.current } := by
  have never : NeverReturns (sequence (Stmt.execute limits.rounds limits.depth) statements) :=
    .sequence fun statement member => (free statement member).neverReturns _ _
  rw [interpret_apply, within_apply]
  constructor
  · intro ran
    cases executed : sequence (Stmt.execute limits.rounds limits.depth) statements
        { machine with current := scope } with
    | ok flow last =>
        cases never _ _ _ executed
        rw [executed] at ran
        cases ran
        exact ⟨last, rfl, rfl⟩
    | error stop last =>
        rw [executed] at ran
        cases stop <;> cases ran
  · rintro ⟨last, executed, rfl⟩
    rw [executed]
    rfl

end Eval

/--
Looking for returns as statements are read is enough to keep them from ending a program. If no
return outside of a function is noted down, whatever else is, there is none, no statement ends with
one in any state, and a program that is run without an error has executed each of its statements to
the end.
-/
theorem parse_keeps_returns_in_functions {depth : Nat} {tokens : List Token} {parsed : Parsed}
    (read : parse depth tokens = .ok parsed)
    (noReturn : ∀ error ∈ parsed.errors, error.cause ≠ .topLevelReturn) :
    (∀ statement ∈ parsed.statements, statement.ReturnFree ∧
      ∀ limits : Limits, ∀ machine flow after,
        statement.execute limits.rounds limits.depth machine = .ok flow after → flow = .next) ∧
    ∀ limits scope machine after,
      interpret limits parsed.statements scope machine = .ok none after ↔
        ∃ last, Eval.RunsThrough (Stmt.execute limits.rounds limits.depth) parsed.statements
            { machine with current := scope } last ∧
          after = { last with current := machine.current } := by
  have free := parse_returnFree read noReturn
  constructor
  · intro statement member
    have isFree := free statement member
    exact ⟨isFree, fun limits => isFree.neverReturns limits.rounds limits.depth⟩
  · intro limits scope machine after
    simp only [Eval.interpret_eq_none_iff free, Eval.sequence_eq_next_iff]

/--
In `fun f() { return; } ); f();` a return is in a function, and behind it is an error of another
kind. Calling `f` goes on behind the call.
-/
theorem parse_keeps_returns_in_functions_call :
    let token := fun (kind : Token.Kind) (lexeme : String) => Token.mk kind lexeme .null 1
    let tokens :=
      [token .kwFun "fun", token .identifier "f", token .leftParen "(", token .rightParen ")",
        token .leftBrace "\x7b", token .kwReturn "return", token .semicolon ";",
        token .rightBrace "\x7d", token .rightParen ")", token .semicolon ";",
        token .identifier "f", token .leftParen "(", token .rightParen ")", token .semicolon ";",
        token .eof ""]
    let statements :=
      [Stmt.function (token .identifier "f") [] [.ret (token .kwReturn "return") none],
        .expression (.call (.read (token .identifier "f")) (token .rightParen ")") [])]
    let error := SyntaxError.mk (.missing .expression) (token .rightParen ")")
    parse 20 tokens = .ok ⟨statements, [error]⟩ ∧
      (∀ statement ∈ statements, statement.ReturnFree) ∧
      ∀ limits scope machine after, interpret limits statements scope machine = .ok none after →
        ∃ last, Eval.RunsThrough (Stmt.execute limits.rounds limits.depth) statements
          { machine with current := scope } last := by
  intro token tokens statements error
  have read : parse 20 tokens = .ok ⟨statements, [error]⟩ := rfl
  have keeps := parse_keeps_returns_in_functions read (by simp [error])
  refine ⟨read, fun statement member => (keeps.1 statement member).1, ?_⟩
  intro limits scope machine after ran
  rcases (keeps.2 limits scope machine after).1 ran with ⟨last, runs, _⟩
  exact ⟨last, runs⟩

end Scriptlet
