import Scriptlet.Grammar.Statement
import Scriptlet.Proofs.Completeness.Expression
import Scriptlet.Proofs.Correspondence.Parser

/-!
# The grammar on corresponding tokens

Corresponding tokens are read to corresponding trees with corresponding errors, whatever the depth
and whether or not there is something wrong with them (`parse_corresponds`).
-/

namespace Scriptlet

open Scriptlet.Parser

theorem Stmt.Corresponds.forLoop {likeness : Likeness} {initializer initializer' : Option Stmt}
    {condition condition' increment increment' : Option Expr} {body body' : Stmt}
    (initializers : Option.Rel (Stmt.Corresponds likeness) initializer initializer')
    (conditions : Option.Rel (Expr.Corresponds likeness) condition condition')
    (increments : Option.Rel (Expr.Corresponds likeness) increment increment')
    (bodies : body.Corresponds likeness body') :
    (Stmt.forLoop initializer condition increment body).Corresponds likeness
      (.forLoop initializer' condition' increment' body') := by
  have tests : Expr.Corresponds likeness (condition.getD (.literal (.bool true)))
      (condition'.getD (.literal (.bool true))) := by
    cases conditions with
    | none => exact .literal _
    | some conditions => exact conditions
  have opened {body body' : Stmt} (bodies : body.Corresponds likeness body') :
      Stmt.Corresponds likeness (Stmt.forLoop initializer condition none body)
        (.forLoop initializer' condition' none body') := by
    cases initializers with
    | none => exact .whileDo tests bodies
    | some initializers => exact .block (.cons initializers (.cons (.whileDo tests bodies) .nil))
  cases increments with
  | none => exact opened bodies
  | some increments => exact opened (.block (.cons bodies (.cons (.expression increments) .nil)))

namespace Grammar

variable {likeness : Likeness}

theorem combine_corresponds {tier : Tier} {left left' right right' : Expr}
    {operator operator' : Token} (lefts : left.Corresponds likeness left')
    (operators : likeness.Holds operator operator') (rights : right.Corresponds likeness right') :
    (tier.combine left operator right).Corresponds likeness
      (tier.combine left' operator' right') := by
  cases tier
  all_goals first
    | exact .logical lefts operators rights
    | exact .binary lefts operators rights

theorem calls_correspond {argument argument' : Parser Expr}
    (arguments : Correspond likeness (Expr.Corresponds likeness) argument argument')
    {rounds rounds' : List Token} (allRounds : List.Forall₂ likeness.Holds rounds rounds')
    {callee callee' : Expr} (callees : callee.Corresponds likeness callee') :
    Correspond likeness (Expr.Corresponds likeness) (calls argument rounds callee)
      (calls argument' rounds' callee') := by
  induction allRounds generalizing callee callee' with
  | nil => exact .halt _
  | cons _ _ ih =>
      refine (Correspond.accept _).bind fun openings => ?_
      cases openings with
      | none => exact .pure callees
      | some openings =>
          exact arguments.commaList.bind fun argumentLists =>
            (Correspond.expect _ _).bind fun parens => ih (.call callees parens argumentLists)

theorem assignment_corresponds {target target' value value' : Expr} {equals equals' : Token}
    (targets : target.Corresponds likeness target') (signs : likeness.Holds equals equals')
    (values : value.Corresponds likeness value') :
    Correspond likeness (Expr.Corresponds likeness) (assignment target equals value)
      (assignment target' equals' value') := by
  cases targets with
  | read names => exact .pure (.assign names values)
  | literal constant =>
      exact (Correspond.note _ signs).bind fun _ => .pure (.literal constant)
  | grouping inners => exact (Correspond.note _ signs).bind fun _ => .pure (.grouping inners)
  | unary operators operands =>
      exact (Correspond.note _ signs).bind fun _ => .pure (.unary operators operands)
  | binary lefts operators rights =>
      exact (Correspond.note _ signs).bind fun _ => .pure (.binary lefts operators rights)
  | logical lefts operators rights =>
      exact (Correspond.note _ signs).bind fun _ => .pure (.logical lefts operators rights)
  | assign names values =>
      exact (Correspond.note _ signs).bind fun _ => .pure (.assign names values)
  | call callees parens argumentLists =>
      exact (Correspond.note _ signs).bind fun _ => .pure (.call callees parens argumentLists)

theorem atom?_corresponds {token token' : Token} (tokens : likeness.Holds token token') :
    Option.Rel (Expr.Corresponds likeness) (atom? token) (atom? token') := by
  unfold atom?
  rw [(likeness.alike tokens).kind, (likeness.alike tokens).literal]
  split
  all_goals first
    | exact .some (.literal _)
    | exact .some (.read tokens)
    | exact .none

theorem atomOr_corresponds {parenthesised parenthesised' : Parser Expr}
    (inners : Correspond likeness (Expr.Corresponds likeness) parenthesised parenthesised') :
    Correspond likeness (Expr.Corresponds likeness) (atomOr parenthesised)
      (atomOr parenthesised') := by
  intro input input' inputs
  cases inputs with
  | nil => exact .halted _
  | @cons token token' rest rest' tokens rests =>
      have atoms := atom?_corresponds tokens
      rw [atomOr, atomOr, (likeness.alike tokens).kind]
      generalize atom? token = atom at atoms
      generalize atom? token' = atom' at atoms
      cases atoms with
      | some atoms => exact .done atoms rests .nil
      | none =>
          dsimp only
          split
          · exact inners _ _ rests
          · exact Correspond.fail _ _ _ (.cons tokens rests)

mutual

theorem expression_corresponds (depth : Nat) :
    Correspond likeness (Expr.Corresponds likeness) (expression depth) (expression depth) := by
  match depth with
  | 0 =>
      rw [expression]
      exact .halt _
  | depth + 1 =>
      rw [expression]
      refine (operation_corresponds depth _).bind fun targets =>
        (Correspond.accept _).bind fun equals => ?_
      cases equals with
      | none => exact .pure targets
      | some equals =>
          exact (expression_corresponds depth).bind fun values =>
            assignment_corresponds targets equals values

theorem operation_corresponds (depth : Nat) (tier : Tier) :
    Correspond likeness (Expr.Corresponds likeness) (operation depth tier)
      (operation depth tier) := by
  match depth with
  | 0 =>
      rw [operation]
      exact .halt _
  | depth + 1 =>
      have operands : Correspond likeness (Expr.Corresponds likeness) (operand depth tier)
          (operand depth tier) := by
        unfold operand
        split
        · exact operation_corresponds depth _
        · exact unary_corresponds depth
      rw [operation_succ]
      refine operands.bind fun firsts => ?_
      apply Correspond.bounded
      intro rounds rounds' allRounds
      exact operands.operations combine_corresponds allRounds firsts

theorem unary_corresponds (depth : Nat) :
    Correspond likeness (Expr.Corresponds likeness) (unary depth) (unary depth) := by
  match depth with
  | 0 =>
      rw [unary]
      exact .halt _
  | depth + 1 =>
      rw [unary]
      refine (Correspond.accept _).bind fun operators => ?_
      cases operators with
      | none => exact call_corresponds depth
      | some operators =>
          exact (unary_corresponds depth).bind fun operands => .pure (.unary operators operands)

theorem call_corresponds (depth : Nat) :
    Correspond likeness (Expr.Corresponds likeness) (call depth) (call depth) := by
  match depth with
  | 0 =>
      rw [call]
      exact .halt _
  | depth + 1 =>
      rw [call]
      refine (primary_corresponds depth).bind fun callees => ?_
      apply Correspond.bounded
      intro rounds rounds' allRounds
      exact calls_correspond (expression_corresponds depth) allRounds callees

theorem primary_corresponds (depth : Nat) :
    Correspond likeness (Expr.Corresponds likeness) (primary depth) (primary depth) := by
  match depth with
  | 0 =>
      rw [primary]
      exact .halt _
  | depth + 1 =>
      rw [primary]
      exact atomOr_corresponds ((expression_corresponds depth).bind fun inners =>
        (Correspond.expect _ _).bind fun _ => .pure (.grouping inners))

end

variable (depth : Nat)

theorem terminated_corresponds (missing : Missing) :
    Correspond likeness (Expr.Corresponds likeness) (terminated depth missing)
      (terminated depth missing) :=
  (expression_corresponds depth).bind fun values =>
    (Correspond.expect _ _).bind fun _ => .pure values

theorem condition_corresponds (before after : Missing) :
    Correspond likeness (Expr.Corresponds likeness) (condition depth before after)
      (condition depth before after) :=
  (Correspond.expect _ _).bind fun _ => (expression_corresponds depth).bind fun values =>
    (Correspond.expect _ _).bind fun _ => .pure values

theorem optional_corresponds (stop : Token.Kind) :
    Correspond likeness (Option.Rel (Expr.Corresponds likeness)) (optional depth stop)
      (optional depth stop) := by
  refine (Correspond.isNext _).bind fun {isStop _} same => ?_
  subst same
  cases isStop with
  | true => exact .pure .none
  | false => exact (expression_corresponds depth).bind fun values => .pure (.some values)

theorem variableDeclaration_corresponds :
    Correspond likeness (Stmt.Corresponds likeness) (variableDeclaration depth)
      (variableDeclaration depth) := by
  refine (Correspond.expect _ _).bind fun names => (Correspond.accept _).bind fun equals => ?_
  cases equals with
  | none => exact (Correspond.expect _ _).bind fun _ => .pure (.declare names .none)
  | some equals =>
      exact (terminated_corresponds depth _).bind fun values =>
        .pure (.declare names (.some values))

theorem expressionStatement_corresponds :
    Correspond likeness (Stmt.Corresponds likeness) (expressionStatement depth)
      (expressionStatement depth) :=
  (terminated_corresponds depth _).bind fun values => .pure (.expression values)

theorem initializer_corresponds :
    Correspond likeness (Option.Rel (Stmt.Corresponds likeness)) (initializer depth)
      (initializer depth) := by
  refine (Correspond.accept _).bind fun tokens => ?_
  cases tokens with
  | none =>
      exact (expressionStatement_corresponds depth).bind fun statements =>
        .pure (.some statements)
  | some tokens =>
      dsimp only
      rw [(likeness.alike tokens).kind]
      split
      · exact .pure .none
      · exact (variableDeclaration_corresponds depth).bind fun statements =>
          .pure (.some statements)

theorem returnStatement_corresponds (inFunction : Bool) {keyword keyword' : Token}
    (keywords : likeness.Holds keyword keyword') :
    Correspond likeness (Stmt.Corresponds likeness) (returnStatement depth inFunction keyword)
      (returnStatement depth inFunction keyword') := by
  have goesOn : Correspond likeness (Stmt.Corresponds likeness)
      (optional depth .semicolon >>= fun value =>
        expect .semicolon .semicolonAfterReturnValue >>= fun _ => pure (Stmt.ret keyword value))
      (optional depth .semicolon >>= fun value =>
        expect .semicolon .semicolonAfterReturnValue >>= fun _ =>
          pure (Stmt.ret keyword' value)) :=
    (optional_corresponds depth _).bind fun values =>
      (Correspond.expect _ _).bind fun _ => .pure (.ret keywords values)
  cases inFunction with
  | true => exact goesOn
  | false => exact (Correspond.note _ keywords).bind fun _ => goesOn

theorem functionHead_corresponds :
    Correspond likeness
      (fun head head' =>
        likeness.Holds head.1 head'.1 ∧ List.Forall₂ likeness.Holds head.2 head'.2)
      functionHead functionHead :=
  (Correspond.expect _ _).bind fun names => (Correspond.expect _ _).bind fun _ =>
    (Correspond.expect _ _).commaList.bind fun parameterLists =>
      (Correspond.expect _ _).bind fun _ => (Correspond.expect _ _).bind fun _ =>
        .pure ⟨names, parameterLists⟩

/-- A declaration or statement that may fail. -/
def declared (inFunction : Bool) : Parser Stmt := do
  match ← accept [.kwVar, .kwFun] with
  | none => statement depth inFunction
  | some token =>
    if token.kind = .kwVar then variableDeclaration depth
    else
      let (name, parameters) ← functionHead
      let body ← block depth true
      return .function name parameters body

theorem declaration_succ (inFunction : Bool) :
    declaration (depth + 1) inFunction = recovering (declared depth inFunction) := by
  rw [declaration]
  rfl

mutual

theorem declared_corresponds (depth : Nat) (inFunction : Bool) :
    Correspond likeness (Stmt.Corresponds likeness) (declared depth inFunction)
      (declared depth inFunction) := by
  refine (Correspond.accept _).bind fun tokens => ?_
  cases tokens with
  | none => exact statement_corresponds depth inFunction
  | some tokens =>
      dsimp only
      rw [(likeness.alike tokens).kind]
      split
      · exact variableDeclaration_corresponds depth
      · exact functionHead_corresponds.bind fun heads =>
          (block_corresponds depth true).bind fun bodies =>
            .pure (.function heads.1 heads.2 bodies)

theorem declaration_corresponds (depth : Nat) (inFunction : Bool) :
    Correspond likeness (Option.Rel (Stmt.Corresponds likeness)) (declaration depth inFunction)
      (declaration depth inFunction) := by
  match depth with
  | 0 =>
      rw [declaration]
      exact .halt _
  | depth + 1 =>
      rw [declaration_succ]
      exact (declared_corresponds depth inFunction).recovering

theorem statement_corresponds (depth : Nat) (inFunction : Bool) :
    Correspond likeness (Stmt.Corresponds likeness) (statement depth inFunction)
      (statement depth inFunction) := by
  match depth with
  | 0 =>
      rw [statement]
      exact .halt _
  | depth + 1 =>
      rw [statement]
      refine (Correspond.accept _).bind fun tokens => ?_
      cases tokens with
      | none => exact expressionStatement_corresponds depth
      | some tokens =>
          dsimp only
          rw [(likeness.alike tokens).kind]
          split
          · exact (terminated_corresponds depth _).bind fun values => .pure (.print values)
          · exact (block_corresponds depth inFunction).bind fun bodies => .pure (.block bodies)
          · refine (condition_corresponds depth _ _).bind fun tests =>
              (statement_corresponds depth inFunction).bind fun thenBranches =>
                (Correspond.accept _).bind fun otherwise => ?_
            cases otherwise with
            | none => exact .pure (.ifThen tests thenBranches)
            | some otherwise =>
                exact (statement_corresponds depth inFunction).bind fun elseBranches =>
                  .pure (.ifElse tests thenBranches elseBranches)
          · exact (condition_corresponds depth _ _).bind fun tests =>
              (statement_corresponds depth inFunction).bind fun bodies =>
                .pure (.whileDo tests bodies)
          · exact (Correspond.expect _ _).bind fun _ => (initializer_corresponds depth).bind
              fun firsts => (optional_corresponds depth _).bind fun tests =>
                (Correspond.expect _ _).bind fun _ => (optional_corresponds depth _).bind
                  fun increments => (Correspond.expect _ _).bind fun _ =>
                    (statement_corresponds depth inFunction).bind fun bodies =>
                      .pure (.forLoop firsts tests increments bodies)
          · exact returnStatement_corresponds depth inFunction tokens

theorem block_corresponds (depth : Nat) (inFunction : Bool) :
    Correspond likeness (List.Forall₂ (Stmt.Corresponds likeness)) (block depth inFunction)
      (block depth inFunction) := by
  match depth with
  | 0 =>
      rw [block]
      exact .halt _
  | depth + 1 =>
      rw [block]
      refine Correspond.bind ?_ fun bodies => (Correspond.expect _ _).bind fun _ => .pure bodies
      exact .bounded fun allRounds =>
        (declaration_corresponds depth inFunction).statements allRounds

end

end Grammar

/-- Corresponding tokens are read to corresponding statements with corresponding errors. -/
theorem parse_corresponds {likeness : Likeness} {tokens tokens' : List Token}
    (inputs : List.Forall₂ likeness.Holds tokens tokens') {depth : Nat} {parsed : Parsed}
    (read : parse depth tokens = .ok parsed) :
    ∃ parsed', parse depth tokens' = .ok parsed' ∧
      List.Forall₂ (Stmt.Corresponds likeness) parsed.statements parsed'.statements ∧
      List.Forall₂ (SyntaxError.Corresponds likeness) parsed.errors parsed'.errors := by
  have replies : Reply.Corresponds likeness (List.Forall₂ (Stmt.Corresponds likeness))
      (statements .eof (Grammar.declaration depth false) tokens tokens)
      (statements .eof (Grammar.declaration depth false) tokens' tokens') :=
    (Grammar.declaration_corresponds depth false).statements inputs _ _ inputs
  unfold parse bounded at read ⊢
  generalize statements .eof (Grammar.declaration depth false) tokens tokens = reply at read replies
  generalize statements .eof (Grammar.declaration depth false) tokens' tokens' = reply' at replies
  cases replies with
  | done values rests noteds =>
      cases read
      exact ⟨_, rfl, values, noteds⟩
  | failed failures rests noteds =>
      cases read
      exact ⟨_, rfl, .nil, List.rel_append noteds (.cons ⟨rfl, failures⟩ .nil)⟩
  | halted reason => contradiction

end Scriptlet
