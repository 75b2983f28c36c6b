import Scriptlet.Proofs.EvalLaws
import Scriptlet.Proofs.Roles

/-!
# Invariants of runs

What the elementary steps of a run keep, whole runs keep. An `Invariant` says what holds of all
machines and of all values that are worked with, how machines may change, and which tokens the code
may have in which roles; it has one law for each elementary step. Evaluating and executing such code
then keep it on every exit (`Invariant.evaluate`, `Invariant.execute`).
-/

namespace Scriptlet

/-- The machine with a new scope that is current. -/
def Machine.enter (machine : Machine) (scope : Scope) : Machine :=
  { machine with
    store := (machine.store.create scope).2
    current := (machine.store.create scope).1 }

/-- Running an action in a new scope enters the scope, and goes back to the old one afterwards. -/
theorem Eval.inScope_apply {α : Type} (scope : Scope) (action : Eval α) (machine : Machine) :
    (Eval.create scope >>= fun id => Eval.within id action) machine =
      Eval.returnTo machine.current (action (machine.enter scope)) := by
  change Eval.within (machine.store.create scope).1 action
    { machine with store := (machine.store.create scope).2 } = _
  rw [Eval.within_apply]
  rfl

/-- The scopes that are made during a run, for blocks and for calls with valid arguments. -/
inductive Machine.Opens (valid : Value → Prop) (machine : Machine) : Scope → Prop
  | block : Opens valid machine ⟨some machine.current, []⟩
  | call {closure : Closure} {arguments : List Value} (callee : valid (.function closure))
      (validArguments : ∀ argument ∈ arguments, valid argument) :
      Opens valid machine (Eval.callScope closure arguments)

/-- What runs keep. -/
structure Invariant where
  /-- What holds of a machine between steps. -/
  Holds : Machine → Prop
  /-- What holds of a value that a step has given. -/
  Valid : Machine → Value → Prop
  /-- How a machine may change from one step to another. -/
  Grows : Machine → Machine → Prop
  /-- Which tokens the code that is run may have in which roles. -/
  Allows : Token.Role → Token → Prop := fun _ _ => True
  refl : ∀ machine, Grows machine machine
  trans : ∀ {machine between after}, Grows machine between → Grows between after →
    Grows machine after
  constant : ∀ machine value, Valid machine (.constant value)
  mono : ∀ {machine after value}, Grows machine after → Valid machine value → Valid after value
  code : ∀ {machine closure}, Valid machine (.function closure) →
    ∀ statement ∈ closure.body, statement.Fits Allows
  bound : ∀ {machine name value}, Holds machine →
    machine.store.get machine.current name = .ok value → Valid machine value
  print : ∀ {machine} output, Holds machine →
    Holds { machine with output := output } ∧ Grows machine { machine with output := output }
  define : ∀ {machine value} name, Holds machine → Valid machine value →
    let after := { machine with store := machine.store.define machine.current name value }
    Holds after ∧ Grows machine after
  assign : ∀ {machine name value store}, Holds machine → Valid machine value →
    machine.store.assign machine.current name value = .ok store →
    Holds { machine with store := store } ∧ Grows machine { machine with store := store }
  close : ∀ {machine} name parameters body, Holds machine →
    (∀ statement ∈ body, statement.Fits Allows) →
    let after := { machine with functions := machine.functions + 1 }
    Holds after ∧ Grows machine after ∧
    Valid after (.function ⟨name, parameters, body, machine.current, machine.functions⟩)
  enter : ∀ {machine scope}, Holds machine → machine.Opens (Valid machine) scope →
    Holds (machine.enter scope)
  leave : ∀ {machine scope after}, Holds machine → machine.Opens (Valid machine) scope →
    Holds after → Grows (machine.enter scope) after →
    let left := { after with current := machine.current }
    Holds left ∧ Grows machine left ∧ ∀ value, Valid after value → Valid left value

namespace Invariant

variable {invariant : Invariant} {α β : Type} {machine : Machine}

/-- That a step has kept an invariant, and has given something good if it succeeded. -/
inductive Ends (invariant : Invariant) (good : Machine → α → Prop) (machine : Machine) :
    EStateM.Result Stop Machine α → Prop
  | ok {value : α} {after : Machine} (holds : invariant.Holds after)
      (grows : invariant.Grows machine after) (isGood : good after value) :
      Ends invariant good machine (.ok value after)
  | error {stop : Stop} {after : Machine} (holds : invariant.Holds after)
      (grows : invariant.Grows machine after) : Ends invariant good machine (.error stop after)

/-- What holds of how a statement ended. -/
def GoodFlow (invariant : Invariant) (machine : Machine) : Flow → Prop
  | .next => True
  | .returned value => invariant.Valid machine value

namespace Ends

variable {good : Machine → α → Prop} {nextGood : Machine → β → Prop}

theorem of_ok {result : EStateM.Result Stop Machine α} (ends : invariant.Ends good machine result)
    {value : α} {after : Machine} (ran : result = .ok value after) :
    invariant.Holds after ∧ invariant.Grows machine after ∧ good after value := by
  subst ran
  cases ends with
  | ok holds grows isGood => exact ⟨holds, grows, isGood⟩

theorem of_error {result : EStateM.Result Stop Machine α}
    (ends : invariant.Ends good machine result) {reason : Stop} {after : Machine}
    (ran : result = .error reason after) :
    invariant.Holds after ∧ invariant.Grows machine after := by
  subst ran
  cases ends with
  | error holds grows => exact ⟨holds, grows⟩

theorem pure (holds : invariant.Holds machine) {value : α} (isGood : good machine value) :
    invariant.Ends good machine ((Pure.pure value : Eval α) machine) :=
  .ok holds (invariant.refl machine) isGood

theorem stop (holds : invariant.Holds machine) (reason : Stop) :
    invariant.Ends good machine ((throw reason : Eval α) machine) :=
  .error holds (invariant.refl machine)

theorem bind {first : Eval α} {rest : α → Eval β}
    (firstEnds : invariant.Ends good machine (first machine))
    (restEnds : ∀ {value between}, invariant.Holds between → invariant.Grows machine between →
      good between value → invariant.Ends nextGood between (rest value between)) :
    invariant.Ends nextGood machine ((first >>= rest) machine) := by
  generalize ran : first machine = result at firstEnds
  cases firstEnds with
  | error holds grows =>
      rw [Eval.bind_of_error ran]
      exact .error holds grows
  | @ok value between holds grows isGood =>
      rw [Eval.bind_of_ok ran]
      have restEnd := restEnds holds grows isGood
      generalize rest value between = result at restEnd
      cases restEnd with
      | ok holds' grows' isGood' => exact .ok holds' (invariant.trans grows grows') isGood'
      | error holds' grows' => exact .error holds' (invariant.trans grows grows')

theorem ofExcept (holds : invariant.Holds machine) {result : Except RuntimeError α}
    (isGood : ∀ value, result = .ok value → good machine value) :
    invariant.Ends good machine (Eval.ofExcept result machine) := by
  cases result with
  | ok value => exact pure holds (isGood value rfl)
  | error error => exact stop holds _

theorem assign (holds : invariant.Holds machine) (name : Token) {value : Value}
    (isValid : invariant.Valid machine value) :
    invariant.Ends (fun after _ => invariant.Valid after value) machine
      (Eval.assign name value machine) := by
  rw [Eval.assign_run]
  cases assigned : machine.store.assign machine.current name value with
  | error error => exact .error holds (invariant.refl machine)
  | ok store =>
      rcases invariant.assign holds isValid assigned with ⟨holds, grows⟩
      exact .ok holds grows (invariant.mono grows isValid)

theorem forEach {action : α → Eval Value} (items : List α)
    (actionEnds : ∀ item ∈ items, ∀ machine, invariant.Holds machine →
      invariant.Ends invariant.Valid machine (action item machine))
    (machine : Machine) (holds : invariant.Holds machine) :
    invariant.Ends (fun after values => ∀ value ∈ values, invariant.Valid after value) machine
      (Eval.forEach action items machine) := by
  induction items generalizing machine with
  | nil => exact pure holds (by simp)
  | cons item items ih =>
      rw [List.forall_mem_cons] at actionEnds
      refine (actionEnds.1 machine holds).bind fun holds _ isValid => ?_
      refine (ih actionEnds.2 _ holds).bind fun holds grows allValid => ?_
      exact pure holds (List.forall_mem_cons.2 ⟨invariant.mono grows isValid, allValid⟩)

theorem sequenceOf {execute : Stmt → Eval Flow} {statements : List Stmt}
    (executeEnds : ∀ statement ∈ statements, ∀ machine, invariant.Holds machine →
      invariant.Ends invariant.GoodFlow machine (execute statement machine))
    (machine : Machine) (holds : invariant.Holds machine) :
    invariant.Ends invariant.GoodFlow machine (Eval.sequence execute statements machine) := by
  induction statements generalizing machine with
  | nil => exact pure holds trivial
  | cons statement statements ih =>
      rw [List.forall_mem_cons] at executeEnds
      refine (executeEnds.1 machine holds).bind fun {flow _} holds _ isGood => ?_
      cases flow with
      | next => exact ih executeEnds.2 _ holds
      | returned value => exact pure holds isGood

theorem sequence {execute : Stmt → Eval Flow}
    (executeEnds : ∀ statement machine, invariant.Holds machine →
      invariant.Ends invariant.GoodFlow machine (execute statement machine))
    (statements : List Stmt) (machine : Machine) (holds : invariant.Holds machine) :
    invariant.Ends invariant.GoodFlow machine (Eval.sequence execute statements machine) :=
  sequenceOf (fun statement _ => executeEnds statement) machine holds

theorem loop {condition : Eval Value} {body : Eval Flow}
    (conditionEnds : ∀ machine, invariant.Holds machine →
      invariant.Ends invariant.Valid machine (condition machine))
    (bodyEnds : ∀ machine, invariant.Holds machine →
      invariant.Ends invariant.GoodFlow machine (body machine))
    (rounds : Nat) (machine : Machine) (holds : invariant.Holds machine) :
    invariant.Ends invariant.GoodFlow machine (Eval.loop condition body rounds machine) := by
  induction rounds generalizing machine with
  | zero => exact stop holds _
  | succ rounds ih =>
      refine (conditionEnds machine holds).bind fun holds _ _ => ?_
      split
      · refine (bodyEnds _ holds).bind fun {flow _} holds _ isGood => ?_
        cases flow with
        | next => exact ih _ holds
        | returned value => exact pure holds isGood
      · exact pure holds trivial

/-- What is run in a new scope keeps the invariant outside of it. -/
theorem inScope (holds : invariant.Holds machine) {scope : Scope}
    (opens : machine.Opens (invariant.Valid machine) scope) {action : Eval Flow}
    (actionEnds : ∀ machine, invariant.Holds machine →
      invariant.Ends invariant.GoodFlow machine (action machine)) :
    invariant.Ends invariant.GoodFlow machine
      ((Eval.create scope >>= fun id => Eval.within id action) machine) := by
  have ends := actionEnds _ (invariant.enter holds opens)
  rw [Eval.inScope_apply]
  generalize action (machine.enter scope) = result at ends
  cases ends with
  | error after grows =>
      rcases invariant.leave holds opens after grows with ⟨left, leftGrows, _⟩
      exact .error left leftGrows
  | @ok flow _ after grows isGood =>
      rcases invariant.leave holds opens after grows with ⟨left, leftGrows, stillValid⟩
      refine .ok left leftGrows ?_
      cases flow with
      | next => trivial
      | returned value => exact stillValid value isGood

theorem call {execute : Stmt → Eval Flow}
    (executeEnds : ∀ statement, statement.Fits invariant.Allows → ∀ machine,
      invariant.Holds machine →
      invariant.Ends invariant.GoodFlow machine (execute statement machine))
    (holds : invariant.Holds machine) (paren : Token) {callee : Value}
    (validCallee : invariant.Valid machine callee) {arguments : List Value}
    (validArguments : ∀ argument ∈ arguments, invariant.Valid machine argument) :
    invariant.Ends invariant.Valid machine
      (Eval.call execute paren callee arguments machine) := by
  cases callee with
  | constant value => exact stop holds _
  | function closure =>
      have body := inScope holds (.call validCallee validArguments)
        (sequenceOf fun statement member =>
          executeEnds statement (invariant.code validCallee statement member))
      by_cases same : arguments.length = closure.arity
      · rw [Eval.call_of_eq execute paren same]
        refine body.bind fun {flow _} holds _ isGood => ?_
        cases flow with
        | next => exact pure holds (invariant.constant _ _)
        | returned value => exact pure holds isGood
      · rw [Eval.call_of_ne execute paren same]
        exact stop holds _

/-- A program keeps what its statements keep. -/
theorem conclude {good : Machine → Flow → Prop} {result : EStateM.Result Stop Machine Flow}
    (ends : invariant.Ends good machine result) :
    invariant.Ends (fun _ _ => True) machine (Eval.conclude result) := by
  cases ends with
  | ok holds grows _ => exact .ok holds grows trivial
  | @error stop _ holds grows =>
      cases stop with
      | error error => exact .ok holds grows trivial
      | tooDeep => exact .error holds grows
      | unfinished => exact .error holds grows

end Ends

theorem valid_of_eq_constant {value : Value} (isConstant : ∃ constant, value = .constant constant) :
    invariant.Valid machine value := by
  rcases isConstant with ⟨constant, rfl⟩
  exact invariant.constant machine constant

mutual

/-- Evaluating an expression keeps an invariant and gives a valid value. -/
theorem evaluate (invariant : Invariant) (rounds depth : Nat) {expr : Expr}
    (fits : expr.Fits invariant.Allows) (machine : Machine) (holds : invariant.Holds machine) :
    invariant.Ends invariant.Valid machine (expr.evaluate rounds depth machine) := by
  match depth with
  | 0 =>
      rw [Expr.evaluate]
      exact .stop holds _
  | depth + 1 =>
      have inner {expr : Expr} (fits : expr.Fits invariant.Allows) :=
        evaluate invariant rounds depth fits
      cases fits with
      | literal value =>
          rw [Expr.evaluate]
          exact .pure holds (invariant.constant _ value)
      | grouping innerFits =>
          rw [Expr.evaluate]
          exact inner innerFits machine holds
      | unary allowed operandFits =>
          rw [Expr.evaluate]
          exact (inner operandFits machine holds).bind fun holds _ _ =>
            .ofExcept holds fun _ isValue =>
              valid_of_eq_constant (eq_constant_of_applyUnary isValue)
      | binary leftFits allowed rightFits =>
          rw [Expr.evaluate]
          exact (inner leftFits machine holds).bind fun holds _ _ =>
            (inner rightFits _ holds).bind fun holds _ _ =>
              .ofExcept holds fun _ isValue =>
                valid_of_eq_constant (eq_constant_of_applyBinary isValue)
      | logical leftFits allowed rightFits =>
          rw [Expr.evaluate]
          refine (inner leftFits machine holds).bind fun holds _ isValid => ?_
          split
          · exact .pure holds isValid
          · exact inner rightFits _ holds
      | read allowed =>
          rw [Expr.evaluate]
          exact .ofExcept holds fun _ isValue => invariant.bound holds isValue
      | assign allowed valueFits =>
          rw [Expr.evaluate]
          exact (inner valueFits machine holds).bind fun holds _ isValid =>
            (Ends.assign holds _ isValid).bind fun holds _ isValid => .pure holds isValid
      | call calleeFits allowed argumentsFit =>
          rw [Expr.evaluate]
          refine (inner calleeFits machine holds).bind fun holds _ validCallee => ?_
          refine (Ends.forEach _ (fun argument member => inner (argumentsFit argument member)) _
            holds).bind fun holds grows validArguments => ?_
          exact .call (fun statement fits => execute invariant rounds depth fits) holds _
            (invariant.mono grows validCallee) validArguments

/-- Executing a statement keeps an invariant. -/
theorem execute (invariant : Invariant) (rounds depth : Nat) {statement : Stmt}
    (fits : statement.Fits invariant.Allows) (machine : Machine)
    (holds : invariant.Holds machine) :
    invariant.Ends invariant.GoodFlow machine (statement.execute rounds depth machine) := by
  match depth with
  | 0 =>
      rw [Stmt.execute]
      exact .stop holds _
  | depth + 1 =>
      have inner {expr : Expr} (fits : expr.Fits invariant.Allows) :=
        evaluate invariant rounds depth fits
      have body {statement : Stmt} (fits : statement.Fits invariant.Allows) :=
        execute invariant rounds depth fits
      cases fits with
      | expression valueFits =>
          rw [Stmt.execute]
          exact (inner valueFits machine holds).bind fun holds _ _ => .pure holds trivial
      | print valueFits =>
          rw [Stmt.execute]
          refine (inner valueFits machine holds).bind fun holds _ _ => ?_
          rcases invariant.print _ holds with ⟨holds, grows⟩
          exact .ok holds grows trivial
      | @declare name initializer initializerFits =>
          cases initializer with
          | none =>
              rw [Stmt.execute]
              rcases invariant.define name.lexeme holds (invariant.constant _ .null) with
                  ⟨holds, grows⟩
              exact .ok holds grows trivial
          | some value =>
              rw [Stmt.execute]
              refine (inner (initializerFits value rfl) machine holds).bind
                fun holds _ isValid => ?_
              rcases invariant.define name.lexeme holds isValid with ⟨holds, grows⟩
              exact .ok holds grows trivial
      | block bodyFits =>
          rw [Stmt.execute]
          exact .inScope holds .block
            (.sequenceOf fun statement member => body (bodyFits statement member))
      | ifThen conditionFits thenFits =>
          rw [Stmt.execute]
          refine (inner conditionFits machine holds).bind fun holds _ _ => ?_
          split
          · exact body thenFits _ holds
          · exact .pure holds trivial
      | ifElse conditionFits thenFits elseFits =>
          rw [Stmt.execute]
          refine (inner conditionFits machine holds).bind fun holds _ _ => ?_
          split
          · exact body thenFits _ holds
          · exact body elseFits _ holds
      | whileDo conditionFits bodyFits =>
          rw [Stmt.execute]
          exact .loop (inner conditionFits) (body bodyFits) rounds machine holds
      | function name parameters bodyFits =>
          rw [Stmt.execute]
          rcases invariant.close name parameters _ holds bodyFits with ⟨holds, grows, isValid⟩
          rcases invariant.define name.lexeme holds isValid with ⟨holds', grows'⟩
          exact .ok holds' (invariant.trans grows grows') trivial
      | @ret keyword result resultFits =>
          cases result with
          | none =>
              rw [Stmt.execute]
              exact .pure holds (invariant.constant _ .null)
          | some value =>
              rw [Stmt.execute]
              exact (inner (resultFits value rfl) machine holds).bind
                fun holds _ isValid => .pure holds isValid

end

/--
Running a program keeps an invariant that holds in the program's scope, if one can go back from
there to the scope that was current before.
-/
theorem interpret (invariant : Invariant) (limits : Limits) {statements : List Stmt}
    (allFit : ∀ statement ∈ statements, statement.Fits invariant.Allows) {scope : ScopeId}
    (holds : invariant.Holds { machine with current := scope })
    (leave : ∀ {after}, invariant.Holds after →
      invariant.Grows { machine with current := scope } after →
      let left := { after with current := machine.current }
      invariant.Holds left ∧ invariant.Grows machine left) :
    invariant.Ends (fun _ _ => True) machine (interpret limits statements scope machine) := by
  have ends := Ends.sequenceOf (fun statement member =>
    invariant.execute limits.rounds limits.depth (allFit statement member)) _ holds
  rw [Eval.interpret_apply, Eval.within_apply]
  generalize Eval.sequence _ statements _ = result at ends
  have leaves : invariant.Ends (fun _ _ => True) machine
      (Eval.returnTo machine.current result) := by
    cases ends with
    | ok holds grows _ =>
        rcases leave holds grows with ⟨left, leftGrows⟩
        exact .ok left leftGrows trivial
    | error holds grows =>
        rcases leave holds grows with ⟨left, leftGrows⟩
        exact .error left leftGrows
  exact leaves.conclude

end Invariant

end Scriptlet
