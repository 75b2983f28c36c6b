import Scriptlet.Proofs.Correspondence.Grammar
import Scriptlet.Proofs.Roles

/-!
# Trees that are read

What the grammar builds is made of tokens of the input, each of a kind that its role asks for, and a
statement that is not read as a declaration declares nothing in the scope it stands in. Both hold
whatever is wrong with the input, and however much of it is given up (`Grammar.statement_yields`,
`parse_fits`).
-/

namespace Scriptlet

open Scriptlet.Parser

/-- That a token is one of a set, and of a kind that its role asks for. -/
structure Token.Fills (tokens : Token → Prop) (role : Token.Role) (token : Token) : Prop where
  mem : tokens token
  kind : token.kind ∈ role.kinds

/-- That a statement binds nothing in the scope in which it is executed. -/
inductive Stmt.Plain : Stmt → Prop
  | expression (value : Expr) : Plain (.expression value)
  | print (value : Expr) : Plain (.print value)
  | block (body : List Stmt) : Plain (.block body)
  | ifThen (condition : Expr) {thenBranch : Stmt} (thenPlain : Plain thenBranch) :
      Plain (.ifThen condition thenBranch)
  | ifElse (condition : Expr) {thenBranch elseBranch : Stmt} (thenPlain : Plain thenBranch)
      (elsePlain : Plain elseBranch) : Plain (.ifElse condition thenBranch elseBranch)
  | whileDo (condition : Expr) {body : Stmt} (bodyPlain : Plain body) :
      Plain (.whileDo condition body)
  | ret (keyword : Token) (value : Option Expr) : Plain (.ret keyword value)

theorem Stmt.Plain.forLoop (initializer : Option Stmt) (condition increment : Option Expr)
    {body : Stmt} (bodyPlain : body.Plain) :
    (Stmt.forLoop initializer condition increment body).Plain := by
  cases initializer with
  | some initializer => exact .block _
  | none =>
      apply Stmt.Plain.whileDo
      cases increment with
      | none => exact bodyPlain
      | some increment => exact .block _

theorem Stmt.Fits.forLoop {allows : Token.Role → Token → Prop} {initializer : Option Stmt}
    {condition increment : Option Expr} {body : Stmt}
    (initializerFits : ∀ statement ∈ initializer, statement.Fits allows)
    (conditionFits : ∀ value ∈ condition, value.Fits allows)
    (incrementFits : ∀ value ∈ increment, value.Fits allows) (bodyFits : body.Fits allows) :
    (Stmt.forLoop initializer condition increment body).Fits allows := by
  have testFits : (condition.getD (.literal (.bool true))).Fits allows := by
    cases condition with
    | none => exact .literal _
    | some condition => exact conditionFits condition rfl
  have opened {round : Stmt} (roundFits : round.Fits allows) :
      (Stmt.forLoop initializer condition none round).Fits allows := by
    cases initializer with
    | none => exact .whileDo testFits roundFits
    | some initializer =>
        have first := initializerFits initializer rfl
        exact .block (by simp [first, Stmt.Fits.whileDo testFits roundFits])
  cases increment with
  | none => exact opened bodyFits
  | some increment =>
      have last := Stmt.Fits.expression (incrementFits increment rfl)
      exact opened (.block (by simp [bodyFits, last]))

namespace Parser

variable {α β : Type} {tokens : Token → Prop} {holds : α → Prop} {next : β → Prop}

/-- That a parser gives only values of a kind, and leaves only tokens of the set that it reads. -/
def Yields (tokens : Token → Prop) (holds : α → Prop) (parser : Parser α) : Prop :=
  Correspond (.only tokens) (fun value _ => holds value) parser parser

namespace Yields

theorem of_correspond {related : α → α → Prop} {parser : Parser α}
    (corresponds : Correspond (.only tokens) related parser parser)
    (implied : ∀ {value value'}, related value value' → holds value) :
    Yields tokens holds parser := by
  intro input input' inputs
  have replies := corresponds input input' inputs
  generalize parser input = reply at replies
  generalize parser input' = reply' at replies
  cases replies with
  | done values rests noteds => exact .done (implied values) rests noteds
  | failed same rests noteds => exact .failed same rests noteds
  | halted reason => exact .halted reason

theorem of_done {parser : Parser α} (yields : Yields (fun _ => True) holds parser)
    {input rest : List Token} {value : α} {noted : List SyntaxError}
    (read : parser input = .done value rest noted) : holds value := by
  have replies := yields input input (Likeness.forall₂_only fun _ _ => trivial)
  rw [read] at replies
  cases replies with
  | done isHeld _ _ => exact isHeld

theorem bind {parser : Parser α} {rest : α → Parser β} (first : Yields tokens holds parser)
    (second : ∀ {value}, holds value → Yields tokens next (rest value)) :
    Yields tokens next (parser >>= rest) := by
  intro input input' inputs
  obtain rfl := Likeness.eq_of_forall₂_only inputs
  have replies := first _ _ inputs
  generalize read : parser input' = reply at replies
  cases replies with
  | done isHeld rests noteds =>
      rw [bind_of_done read]
      exact (second isHeld _ _ rests).noting noteds
  | failed same rests noteds =>
      rw [bind_of_failed read]
      exact .failed same rests noteds
  | halted reason =>
      rw [bind_of_halted read]
      exact .halted reason

theorem pure {value : α} (isHeld : holds value) : Yields tokens holds (Pure.pure value) :=
  Correspond.pure isHeld

theorem halt (reason : Halt) : Yields tokens holds (Parser.halt reason) :=
  Correspond.halt reason

theorem peek : Yields tokens tokens Parser.peek :=
  of_correspond Correspond.peek fun same => same.1

theorem note (cause : SyntaxError.Cause) {token : Token} (isToken : tokens token) :
    Yields tokens (fun _ => True) (Parser.note cause token) :=
  of_correspond (Correspond.note cause ⟨isToken, rfl⟩) fun _ => trivial

theorem isNext (kind : Token.Kind) : Yields tokens (fun _ => True) (Parser.isNext kind) :=
  of_correspond (Correspond.isNext kind) fun _ => trivial

theorem accept (kinds : List Token.Kind) :
    Yields tokens (fun result => ∀ token ∈ result, tokens token ∧ token.kind ∈ kinds)
      (Parser.accept kinds) := by
  intro input input' inputs
  obtain rfl := Likeness.eq_of_forall₂_only inputs
  cases inputs with
  | nil => exact .halted _
  | @cons token _ _ _ same rests =>
      rw [Parser.accept]
      split
      · rename_i isKind
        refine .done ?_ rests .nil
        rintro _ ⟨⟩
        exact ⟨same.1, isKind⟩
      · exact .done (by simp) (.cons same rests) .nil

theorem expect (kind : Token.Kind) (missing : Missing) :
    Yields tokens (fun token => tokens token ∧ token.kind = kind)
      (Parser.expect kind missing) := by
  intro input input' inputs
  obtain rfl := Likeness.eq_of_forall₂_only inputs
  cases inputs with
  | nil => exact .halted _
  | cons same rests =>
      rw [Parser.expect]
      split
      · rename_i isKind
        exact .done ⟨same.1, isKind⟩ rests .nil
      · exact .failed same (.cons same rests) .nil

theorem bounded {loop : List Token → Parser α}
    (loops : ∀ rounds, Yields tokens holds (loop rounds)) :
    Yields tokens holds (Parser.bounded loop) := by
  intro input input' inputs
  obtain rfl := Likeness.eq_of_forall₂_only inputs
  exact loops input' _ _ inputs

theorem operations {operators : List Token.Kind} {operand : Parser Expr}
    {combine : Expr → Token → Expr → Expr} {fits : Expr → Prop}
    (operandFits : Yields tokens fits operand)
    (combined : ∀ {left operator right}, fits left → tokens operator → operator.kind ∈ operators →
      fits right → fits (combine left operator right))
    (rounds : List Token) {left : Expr} (leftFits : fits left) :
    Yields tokens fits (Parser.operations operators operand combine rounds left) := by
  induction rounds generalizing left with
  | nil => exact halt _
  | cons round rounds ih =>
      apply (accept operators).bind
      intro result isOperator
      cases result with
      | none => exact pure leftFits
      | some operator =>
          rcases isOperator operator rfl with ⟨isToken, isKind⟩
          exact operandFits.bind fun rightFits =>
            ih (combined leftFits isToken isKind rightFits)

theorem commaList (limit : Nat) (excess : SyntaxError.Cause) {item : Parser α}
    (itemHolds : Yields tokens holds item) :
    Yields tokens (fun values => ∀ value ∈ values, holds value)
      (Parser.commaList limit excess item) := by
  apply of_correspond (Correspond.commaList itemHolds)
  intro values values' allHold
  induction allHold with
  | nil => simp
  | cons isHeld _ ih => simpa using ⟨isHeld, ih⟩

theorem recovering {parser : Parser α} (parserHolds : Yields tokens holds parser) :
    Yields tokens (fun result => ∀ value ∈ result, holds value) (Parser.recovering parser) := by
  apply of_correspond (Correspond.recovering parserHolds)
  intro result result' related
  cases related with
  | none => simp
  | some isHeld => simpa using isHeld

theorem statements {stop : Token.Kind} {declaration : Parser (Option Stmt)} {fits : Stmt → Prop}
    (declarationFits : Yields tokens (fun result => ∀ statement ∈ result, fits statement)
      declaration) (rounds : List Token) :
    Yields tokens (fun statements => ∀ statement ∈ statements, fits statement)
      (Parser.statements stop declaration rounds) := by
  induction rounds with
  | nil => exact halt _
  | cons round rounds ih =>
      apply peek.bind
      intro token _
      split
      · exact pure (by simp)
      · refine declarationFits.bind fun firstFits => ih.bind fun restFit => pure ?_
        intro statement isMember
        rcases List.mem_append.1 isMember with isFirst | isRest
        · exact firstFits statement (by simpa using isFirst)
        · exact restFit statement isRest

end Yields

end Parser

namespace Grammar

variable {tokens : Token → Prop}

theorem combine_fits (tier : Tier) {left right : Expr} {operator : Token}
    (leftFits : left.Fits (Token.Fills tokens)) (isToken : tokens operator)
    (isKind : operator.kind ∈ tier.operators) (rightFits : right.Fits (Token.Fills tokens)) :
    (tier.combine left operator right).Fits (Token.Fills tokens) := by
  have kinds : ∀ tier ∈ [Tier.disjunction, .conjunction],
      tier.operators ⊆ Token.Role.logical.kinds := by decide
  have kinds' : ∀ tier ∈ [Tier.equality, .comparison, .sum, .product],
      tier.operators ⊆ Token.Role.binary.kinds := by decide
  cases tier with
  | disjunction | conjunction =>
      exact .logical leftFits ⟨isToken, kinds _ (by simp) isKind⟩ rightFits
  | equality | comparison | sum | product =>
      exact .binary leftFits ⟨isToken, kinds' _ (by simp) isKind⟩ rightFits

theorem calls_yields {argument : Parser Expr}
    (argumentFits : Yields tokens (Expr.Fits (Token.Fills tokens)) argument) (rounds : List Token)
    {callee : Expr} (calleeFits : callee.Fits (Token.Fills tokens)) :
    Yields tokens (Expr.Fits (Token.Fills tokens)) (calls argument rounds callee) := by
  induction rounds generalizing callee with
  | nil => exact .halt _
  | cons round rounds ih =>
      apply (Yields.accept _).bind
      intro opening _
      cases opening with
      | none => exact .pure calleeFits
      | some opening =>
          refine (argumentFits.commaList _ _).bind fun argumentsFit =>
            (Yields.expect _ _).bind fun {paren} isParen => ih (.call calleeFits ?_ argumentsFit)
          exact ⟨isParen.1, by simp [isParen.2, Token.Role.kinds]⟩

theorem assignment_yields {target value : Expr} {equals : Token} (isToken : tokens equals)
    (targetFits : target.Fits (Token.Fills tokens)) (valueFits : value.Fits (Token.Fills tokens)) :
    Yields tokens (Expr.Fits (Token.Fills tokens)) (assignment target equals value) := by
  unfold assignment
  split
  · cases targetFits with
    | read allowed => exact .pure (.assign allowed valueFits)
  · exact (Yields.note _ isToken).bind fun _ => .pure targetFits

theorem atomOr_yields {parenthesised : Parser Expr}
    (innerFits : Yields tokens (Expr.Fits (Token.Fills tokens)) parenthesised) :
    Yields tokens (Expr.Fits (Token.Fills tokens)) (atomOr parenthesised) := by
  intro input input' inputs
  obtain rfl := Likeness.eq_of_forall₂_only inputs
  cases inputs with
  | nil => exact .halted _
  | @cons token _ rest _ same rests =>
      have atomFits : ∀ expr ∈ atom? token, expr.Fits (Token.Fills tokens) := by
        unfold atom?
        split
        all_goals rintro _ ⟨⟩
        all_goals first
          | exact .literal _
          | exact .read ⟨same.1, by simp_all [Token.Role.kinds]⟩
      rw [atomOr]
      split
      · rename_i expr isAtom
        exact .done (atomFits expr isAtom) rests .nil
      · split
        · exact innerFits _ _ rests
        · exact .failed same (.cons same rests) .nil

mutual

theorem expression_yields (depth : Nat) :
    Yields tokens (Expr.Fits (Token.Fills tokens)) (expression depth) := by
  match depth with
  | 0 =>
      rw [expression]
      exact .halt _
  | depth + 1 =>
      rw [expression]
      refine (operation_yields depth _).bind fun targetFits => (Yields.accept _).bind ?_
      intro equals isEquals
      cases equals with
      | none => exact .pure targetFits
      | some equals =>
          exact (expression_yields depth).bind fun valueFits =>
            assignment_yields (isEquals equals rfl).1 targetFits valueFits

theorem operation_yields (depth : Nat) (tier : Tier) :
    Yields tokens (Expr.Fits (Token.Fills tokens)) (operation depth tier) := by
  match depth with
  | 0 =>
      rw [operation]
      exact .halt _
  | depth + 1 =>
      have operandFits : Yields tokens (Expr.Fits (Token.Fills tokens)) (operand depth tier) := by
        unfold operand
        split
        · exact operation_yields depth _
        · exact unary_yields depth
      rw [operation_succ]
      apply operandFits.bind
      intro first firstFits
      apply Yields.bounded
      intro rounds
      exact operandFits.operations (combine_fits tier) rounds firstFits

theorem unary_yields (depth : Nat) :
    Yields tokens (Expr.Fits (Token.Fills tokens)) (unary depth) := by
  match depth with
  | 0 =>
      rw [unary]
      exact .halt _
  | depth + 1 =>
      rw [unary]
      apply (Yields.accept _).bind
      intro operator isOperator
      cases operator with
      | none => exact call_yields depth
      | some operator =>
          rcases isOperator operator rfl with ⟨isToken, isKind⟩
          exact (unary_yields depth).bind fun operandFits =>
            .pure (.unary ⟨isToken, isKind⟩ operandFits)

theorem call_yields (depth : Nat) :
    Yields tokens (Expr.Fits (Token.Fills tokens)) (call depth) := by
  match depth with
  | 0 =>
      rw [call]
      exact .halt _
  | depth + 1 =>
      rw [call]
      apply (primary_yields depth).bind
      intro callee calleeFits
      apply Yields.bounded
      intro rounds
      exact calls_yields (expression_yields depth) rounds calleeFits

theorem primary_yields (depth : Nat) :
    Yields tokens (Expr.Fits (Token.Fills tokens)) (primary depth) := by
  match depth with
  | 0 =>
      rw [primary]
      exact .halt _
  | depth + 1 =>
      rw [primary]
      exact atomOr_yields ((expression_yields depth).bind fun innerFits =>
        (Yields.expect _ _).bind fun _ => .pure (.grouping innerFits))

end

variable (depth : Nat)

theorem terminated_yields (missing : Missing) :
    Yields tokens (Expr.Fits (Token.Fills tokens)) (terminated depth missing) :=
  (expression_yields depth).bind fun valueFits =>
    (Yields.expect _ _).bind fun _ => .pure valueFits

theorem condition_yields (before after : Missing) :
    Yields tokens (Expr.Fits (Token.Fills tokens)) (condition depth before after) :=
  (Yields.expect _ _).bind fun _ => (expression_yields depth).bind fun valueFits =>
    (Yields.expect _ _).bind fun _ => .pure valueFits

theorem optional_yields (stop : Token.Kind) :
    Yields tokens (fun result => ∀ value ∈ result, value.Fits (Token.Fills tokens))
      (optional depth stop) := by
  apply (Yields.isNext stop).bind
  intro isStop _
  cases isStop with
  | true => exact .pure (by simp)
  | false => exact (expression_yields depth).bind fun valueFits => .pure (by simpa using valueFits)

theorem variableDeclaration_yields :
    Yields tokens (Stmt.Fits (Token.Fills tokens)) (variableDeclaration depth) := by
  refine (Yields.expect _ _).bind fun _ => (Yields.accept _).bind ?_
  intro equals _
  cases equals with
  | none => exact (Yields.expect _ _).bind fun _ => .pure (.declare _ (by simp))
  | some equals =>
      exact (terminated_yields depth _).bind fun valueFits =>
        .pure (.declare _ (by simpa using valueFits))

theorem expressionStatement_yields :
    Yields tokens (fun statement => statement.Fits (Token.Fills tokens) ∧ statement.Plain)
      (expressionStatement depth) :=
  (terminated_yields depth _).bind fun valueFits => .pure ⟨.expression valueFits, .expression _⟩

theorem initializer_yields :
    Yields tokens (fun result => ∀ statement ∈ result, statement.Fits (Token.Fills tokens))
      (initializer depth) := by
  apply (Yields.accept _).bind
  intro token _
  cases token with
  | none =>
      exact (expressionStatement_yields depth).bind fun statementFits =>
        .pure (by simpa using statementFits.1)
  | some token =>
      dsimp only
      split
      · exact .pure (by simp)
      · exact (variableDeclaration_yields depth).bind fun statementFits =>
          .pure (by simpa using statementFits)

theorem returnStatement_yields (inFunction : Bool) {keyword : Token} (isToken : tokens keyword) :
    Yields tokens (fun statement => statement.Fits (Token.Fills tokens) ∧ statement.Plain)
      (returnStatement depth inFunction keyword) := by
  have goesOn : Yields tokens
      (fun statement => statement.Fits (Token.Fills tokens) ∧ statement.Plain)
      (optional depth .semicolon >>= fun value =>
        Parser.expect .semicolon .semicolonAfterReturnValue >>= fun _ =>
          pure (Stmt.ret keyword value)) :=
    (optional_yields depth _).bind fun resultFits =>
      (Yields.expect _ _).bind fun _ => .pure ⟨.ret keyword resultFits, .ret keyword _⟩
  cases inFunction with
  | true => exact goesOn
  | false => exact (Yields.note _ isToken).bind fun _ => goesOn

mutual

theorem declared_yields (depth : Nat) (inFunction : Bool) :
    Yields tokens (Stmt.Fits (Token.Fills tokens)) (declared depth inFunction) := by
  apply (Yields.accept _).bind
  intro token _
  cases token with
  | none => exact .of_correspond (statement_yields depth inFunction) fun fits => fits.1
  | some token =>
      dsimp only
      split
      · exact variableDeclaration_yields depth
      · have head : Yields tokens (fun _ => True) functionHead :=
          .of_correspond functionHead_corresponds fun _ => trivial
        exact head.bind fun _ => (block_yields depth true).bind fun bodyFits =>
          .pure (.function _ _ bodyFits)

theorem declaration_yields (depth : Nat) (inFunction : Bool) :
    Yields tokens (fun result => ∀ statement ∈ result, statement.Fits (Token.Fills tokens))
      (declaration depth inFunction) := by
  match depth with
  | 0 =>
      rw [declaration]
      exact .halt _
  | depth + 1 =>
      rw [declaration_succ]
      exact (declared_yields depth inFunction).recovering

theorem statement_yields (depth : Nat) (inFunction : Bool) :
    Yields tokens (fun statement => statement.Fits (Token.Fills tokens) ∧ statement.Plain)
      (statement depth inFunction) := by
  match depth with
  | 0 =>
      rw [statement]
      exact .halt _
  | depth + 1 =>
      have body := statement_yields depth inFunction
      rw [statement]
      apply (Yields.accept _).bind
      intro token isToken
      cases token with
      | none => exact expressionStatement_yields depth
      | some token =>
          dsimp only
          split
          · exact (terminated_yields depth _).bind fun valueFits =>
              .pure ⟨.print valueFits, .print _⟩
          · exact (block_yields depth inFunction).bind fun bodyFits =>
              .pure ⟨.block bodyFits, .block _⟩
          · refine (condition_yields depth _ _).bind fun testFits => body.bind fun thenFits =>
              (Yields.accept _).bind ?_
            intro otherwise _
            cases otherwise with
            | none => exact .pure ⟨.ifThen testFits thenFits.1, .ifThen _ thenFits.2⟩
            | some otherwise =>
                exact body.bind fun elseFits =>
                  .pure ⟨.ifElse testFits thenFits.1 elseFits.1, .ifElse _ thenFits.2 elseFits.2⟩
          · exact (condition_yields depth _ _).bind fun testFits => body.bind fun bodyFits =>
              .pure ⟨.whileDo testFits bodyFits.1, .whileDo _ bodyFits.2⟩
          · exact (Yields.expect _ _).bind fun _ => (initializer_yields depth).bind
              fun firstFits => (optional_yields depth _).bind fun testFits =>
                (Yields.expect _ _).bind fun _ => (optional_yields depth _).bind
                  fun incrementFits => (Yields.expect _ _).bind fun _ => body.bind fun bodyFits =>
                    .pure ⟨.forLoop firstFits testFits incrementFits bodyFits.1,
                      .forLoop _ _ _ bodyFits.2⟩
          · exact returnStatement_yields depth inFunction (isToken token rfl).1

theorem block_yields (depth : Nat) (inFunction : Bool) :
    Yields tokens (fun body => ∀ statement ∈ body, statement.Fits (Token.Fills tokens))
      (block depth inFunction) := by
  match depth with
  | 0 =>
      rw [block]
      exact .halt _
  | depth + 1 =>
      rw [block]
      refine Yields.bind (.bounded fun rounds => ?_) fun bodyFits =>
        (Yields.expect _ _).bind fun _ => .pure bodyFits
      exact (declaration_yields depth inFunction).statements rounds

end

end Grammar

/-- The statements of a program are made of its tokens, whatever is wrong with it. -/
theorem parse_fits {depth : Nat} {tokens : List Token} {parsed : Parsed}
    (read : parse depth tokens = .ok parsed) :
    ∀ statement ∈ parsed.statements, statement.Fits (Token.Fills (· ∈ tokens)) := by
  have replies : Reply.Corresponds _ _ (statements .eof _ tokens tokens) _ :=
    (Grammar.declaration_yields depth false).statements tokens tokens tokens
      (Likeness.forall₂_only fun _ isMember => isMember)
  unfold parse bounded at read
  generalize statements .eof (Grammar.declaration depth false) tokens tokens = reply at read replies
  cases replies with
  | done allFit rests noteds =>
      cases read
      exact allFit
  | failed same rests noteds =>
      cases read
      simp
  | halted reason => contradiction

end Scriptlet
