import Scriptlet.Proofs.Printing
import Scriptlet.Proofs.ScopeGraph

/-!
# Frames

A step may bind new names only in the scope that is current, and only such names as a statement
declares there (`Stmt.declared`). It goes back to that scope from all the scopes that it enters. A
`Machine.Frame` says so of a machine before and after a step. What is run in a new scope has a frame
outside of it, whatever it declares (`Eval.Frames.inScope`); so the frame of a statement does not
depend on the functions that are called in it.

All that is evaluated and executed has a frame on every exit (`Expr.evaluate_frames`,
`Stmt.execute_frames`): declarations stay in their scope (`declarations_stay_in_scope`), and the
current scope is restored (`current_scope_restored`).
-/

namespace Scriptlet

/--
The names that a statement declares in the scope in which it is executed. What stands in a block or
in the body of a function is declared in another scope.
-/
def Stmt.declared : Stmt → List String
  | .declare name _ => [name.lexeme]
  | .function name _ _ => [name.lexeme]
  | .ifThen _ thenBranch => thenBranch.declared
  | .ifElse _ thenBranch elseBranch => thenBranch.declared ++ elseBranch.declared
  | .whileDo _ body => body.declared
  | _ => []

namespace Store

variable {store : Store} {id owner : ScopeId} {name : String}

theorem binds_define (store : Store) (id : ScopeId) (name : String) (value : Value)
    (other : ScopeId) (bound : String) :
    (store.define id name value).binds other bound = true ↔
      store.binds other bound = true ∨ store.Has other ∧ other = id ∧ bound = name := by
  unfold binds
  rw [scope?_define]
  by_cases same : other = id
  · subst same
    cases isScope : store.scope? other with
    | none => simp [Has, isScope]
    | some scope => by_cases isName : bound = name <;> simp [Scope.binds, Has, isScope, isName]
  · simp [same]

theorem binds_create_of_has (has : store.Has id) (scope : Scope) (name : String) :
    (store.create scope).2.binds id name = store.binds id name := by
  rw [binds_eq, binds_eq, bound?_create_of_has has]

theorem binds_of_resolve {name : Token} (resolved : store.resolve id name = .ok owner) :
    store.binds owner name.lexeme = true := by
  unfold resolve at resolved
  split at resolved
  · rename_i isOwner
    cases resolved
    rw [owner?, List.find?_eq_some_iff_append] at isOwner
    exact isOwner.1
  · contradiction

end Store

/--
That a machine has become another one by a step. The scopes that were there are still there and bind
the same names, except that the current scope may have gained some names. The same scope is current,
and the same scope is the global one.
-/
structure Machine.Frame (gains : String → Prop) (machine after : Machine) : Prop where
  current : after.current = machine.current
  globals : after.globals = machine.globals
  has : ∀ {id}, machine.store.Has id → after.store.Has id
  keeps : ∀ {id name}, machine.store.binds id name = true → after.store.binds id name = true
  gained : ∀ {id name}, machine.store.Has id → after.store.binds id name = true →
    machine.store.binds id name = true ∨ id = machine.current ∧ gains name

namespace Machine.Frame

variable {gains : String → Prop} {machine between after : Machine}

theorem of_store_eq (current : after.current = machine.current)
    (globals : after.globals = machine.globals) (store : after.store = machine.store) :
    machine.Frame gains after where
  current := current
  globals := globals
  has := by simp [store]
  keeps := by simp [store]
  gained := by simp +contextual [store]

theorem trans (first : machine.Frame gains between) (second : between.Frame gains after) :
    machine.Frame gains after where
  current := second.current.trans first.current
  globals := second.globals.trans first.globals
  has isScope := second.has (first.has isScope)
  keeps isBound := second.keeps (first.keeps isBound)
  gained isScope isBound := by
    rcases second.gained (first.has isScope) isBound with wasBound | isNew
    · exact first.gained isScope wasBound
    · rw [first.current] at isNew
      exact .inr isNew

theorem mono {more : String → Prop} (frame : machine.Frame gains after)
    (implied : ∀ name, gains name → more name) : machine.Frame more after where
  current := frame.current
  globals := frame.globals
  has := frame.has
  keeps := frame.keeps
  gained isScope isBound := (frame.gained isScope isBound).imp_right fun isNew =>
    ⟨isNew.1, implied _ isNew.2⟩

/-- A scope that gains nothing binds the same names as before. -/
theorem binds_eq (frame : machine.Frame gains after) {id : ScopeId} {name : String}
    (isScope : machine.store.Has id) (gainsNot : ¬(id = machine.current ∧ gains name)) :
    after.store.binds id name = machine.store.binds id name := by
  rw [Bool.eq_iff_iff]
  exact ⟨fun isBound => (frame.gained isScope isBound).resolve_right gainsNot, frame.keeps⟩

/-- A name is bound in the current scope, or anew in a scope that has bound it before. -/
theorem define {owner : ScopeId} {name : String}
    (allowed : machine.store.binds owner name = true ∨ owner = machine.current ∧ gains name)
    (value : Value) :
    machine.Frame gains { machine with store := machine.store.define owner name value } where
  current := rfl
  globals := rfl
  has := (Store.Extends.define ..).has
  keeps isBound := (Store.binds_define ..).2 (.inl isBound)
  gained _ isBound := by
    rcases (Store.binds_define ..).1 isBound with wasBound | ⟨_, rfl, rfl⟩
    · exact .inl wasBound
    · exact allowed

/-- What is gained in a new scope is gained by no scope that was there before. -/
theorem leave {inner : String → Prop} {scope : Scope}
    (frame : (machine.enter scope).Frame inner after) :
    machine.Frame gains { after with current := machine.current } where
  current := rfl
  globals := frame.globals
  has isScope := frame.has ((Store.Extends.create ..).has isScope)
  keeps {id name} isBound := by
    apply frame.keeps
    rw [← isBound]
    exact Store.binds_create_of_has (Store.has_of_binds isBound) scope name
  gained {id name} isScope isBound := by
    rcases frame.gained ((Store.Extends.create ..).has isScope) isBound with wasBound | ⟨isNew, _⟩
    · exact .inl ((Store.binds_create_of_has isScope scope name).symm.trans wasBound)
    · exact absurd isNew (Nat.ne_of_lt (Store.has_iff.1 isScope))

end Machine.Frame

namespace Eval

variable {α β : Type} {gains : String → Prop}

/-- That a step has a frame, be it that it succeeds or that it stops. -/
def Frames (gains : String → Prop) (action : Eval α) : Prop :=
  ∀ machine : Machine, machine.Frame gains (final (action machine))

namespace Frames

theorem pure (value : α) : Frames gains (Pure.pure value) :=
  fun _ => .of_store_eq rfl rfl rfl

theorem stop (reason : Stop) : Frames gains (throw reason : Eval α) :=
  fun _ => .of_store_eq rfl rfl rfl

theorem bind {first : Eval α} {rest : α → Eval β} (firstFrames : Frames gains first)
    (restFrames : ∀ value, Frames gains (rest value)) : Frames gains (first >>= rest) := by
  intro machine
  have frame := firstFrames machine
  cases ran : first machine with
  | ok value between =>
      rw [ran] at frame
      rw [bind_of_ok ran]
      exact frame.trans (restFrames value between)
  | error stop between =>
      rw [ran] at frame
      rwa [bind_of_error ran]

theorem mono {more : String → Prop} {action : Eval α} (frames : Frames gains action)
    (implied : ∀ name, gains name → more name) : Frames more action :=
  fun machine => (frames machine).mono implied

theorem ofExcept (result : Except RuntimeError α) : Frames gains (Eval.ofExcept result) := by
  cases result with
  | ok value => exact pure value
  | error error => exact stop _

theorem lookup (name : Token) : Frames gains (Eval.lookup name) :=
  fun machine => ofExcept (machine.store.get machine.current name) machine

/-- Assigning binds no name that the scope has not bound before. -/
theorem assign (name : Token) (value : Value) : Frames gains (Eval.assign name value) := by
  intro machine
  rw [assign_run]
  cases assigned : machine.store.assign machine.current name value with
  | error error => exact .of_store_eq rfl rfl rfl
  | ok store =>
      rcases Store.exists_of_assign_eq_ok assigned with ⟨owner, resolved, rfl⟩
      exact .define (.inl (Store.binds_of_resolve resolved)) value

theorem define {name : Token} (allowed : gains name.lexeme) (value : Value) :
    Frames gains (Eval.define name value) :=
  fun _ => .define (.inr ⟨rfl, allowed⟩) value

theorem printLine (text : String) : Frames gains (Eval.printLine text) :=
  fun _ => .of_store_eq rfl rfl rfl

theorem close (name : Token) (parameters : List Token) (body : List Stmt) :
    Frames gains (Eval.close name parameters body) :=
  fun _ => .of_store_eq rfl rfl rfl

theorem forEach {action : α → Eval β} (frames : ∀ item, Frames gains (action item))
    (items : List α) : Frames gains (Eval.forEach action items) := by
  induction items with
  | nil => exact pure _
  | cons item items ih => exact (frames item).bind fun _ => ih.bind fun _ => pure _

theorem sequence {execute : Stmt → Eval Flow}
    (frames : ∀ statement, Frames gains (execute statement)) (statements : List Stmt) :
    Frames gains (Eval.sequence execute statements) := by
  induction statements with
  | nil => exact pure _
  | cons statement statements ih =>
      refine (frames statement).bind fun flow => ?_
      cases flow with
      | next => exact ih
      | returned value => exact pure _

theorem loop {condition : Eval Value} {body : Eval Flow} (conditionFrames : Frames gains condition)
    (bodyFrames : Frames gains body) (rounds : Nat) :
    Frames gains (Eval.loop condition body rounds) := by
  induction rounds with
  | zero => exact stop _
  | succ rounds ih =>
      refine conditionFrames.bind fun value => ?_
      split
      · refine bodyFrames.bind fun flow => ?_
        cases flow with
        | next => exact ih
        | returned value => exact pure _
      · exact pure _

/-- Whatever is declared in a new scope, nothing is gained outside of it. -/
theorem inScope {inner : String → Prop} (scope : Scope) {action : Eval α}
    (frames : Frames inner action) :
    Frames gains (Eval.create scope >>= fun id => Eval.within id action) := by
  intro machine
  have frame := frames (machine.enter scope)
  rw [inScope_apply]
  cases ran : action (machine.enter scope) with
  | ok value after =>
      rw [ran] at frame
      exact frame.leave
  | error stop after =>
      rw [ran] at frame
      exact frame.leave

theorem call {inner : String → Prop} {execute : Stmt → Eval Flow}
    (frames : ∀ statement, Frames inner (execute statement)) (paren : Token) (callee : Value)
    (arguments : List Value) : Frames gains (Eval.call execute paren callee arguments) := by
  cases callee with
  | constant value => exact stop _
  | function closure =>
      by_cases same : arguments.length = closure.arity
      · rw [call_of_eq execute paren same]
        exact (inScope _ (sequence frames closure.body)).bind fun _ => pure _
      · rw [call_of_ne execute paren same]
        exact stop _

end Frames

end Eval

open Eval

mutual

/-- Evaluating an expression binds no new name in any scope that was there before. -/
theorem Expr.evaluate_frames {gains : String → Prop} (rounds depth : Nat) (expr : Expr) :
    Frames gains (expr.evaluate rounds depth) := by
  match depth with
  | 0 =>
      rw [Expr.evaluate]
      exact .stop _
  | depth + 1 =>
      have inner (expr : Expr) : Frames gains (expr.evaluate rounds depth) :=
        Expr.evaluate_frames rounds depth expr
      cases expr with
      | literal value =>
          rw [Expr.evaluate]
          exact .pure _
      | grouping expr =>
          rw [Expr.evaluate]
          exact inner expr
      | unary operator operand =>
          rw [Expr.evaluate]
          exact (inner operand).bind fun _ => .ofExcept _
      | binary left operator right =>
          rw [Expr.evaluate]
          exact (inner left).bind fun _ => (inner right).bind fun _ => .ofExcept _
      | logical left operator right =>
          rw [Expr.evaluate]
          refine (inner left).bind fun value => ?_
          split
          · exact .pure _
          · exact inner right
      | read name =>
          rw [Expr.evaluate]
          exact .lookup name
      | assign name value =>
          rw [Expr.evaluate]
          exact (inner value).bind fun _ => (Frames.assign name _).bind fun _ => .pure _
      | call callee paren arguments =>
          rw [Expr.evaluate]
          -- The body of the function runs in a scope of its own, where it may declare anything.
          have body (statement : Stmt) : Frames (fun _ => True) (statement.execute rounds depth) :=
            (Stmt.execute_frames rounds depth statement).mono fun _ _ => trivial
          exact (inner callee).bind fun value =>
            (Frames.forEach inner arguments).bind fun values => .call body paren value values

/-- Executing a statement binds the names that it declares in the current scope, at most. -/
theorem Stmt.execute_frames (rounds depth : Nat) (statement : Stmt) :
    Frames (· ∈ statement.declared) (statement.execute rounds depth) := by
  match depth with
  | 0 =>
      rw [Stmt.execute]
      exact .stop _
  | depth + 1 =>
      have inner {gains : String → Prop} (expr : Expr) :
          Frames gains (expr.evaluate rounds depth) :=
        Expr.evaluate_frames rounds depth expr
      have body := Stmt.execute_frames rounds depth
      cases statement with
      | expression value =>
          rw [Stmt.execute]
          exact (inner value).bind fun _ => .pure _
      | print value =>
          rw [Stmt.execute]
          exact (inner value).bind fun _ => (Frames.printLine _).bind fun _ => .pure _
      | declare name initializer =>
          have declares : name.lexeme ∈ (Stmt.declare name initializer).declared := by
            simp [Stmt.declared]
          cases initializer with
          | none =>
              rw [Stmt.execute]
              exact (Frames.define declares _).bind fun _ => .pure _
          | some value =>
              rw [Stmt.execute]
              exact (inner value).bind fun _ => (Frames.define declares _).bind fun _ => .pure _
      | block statements =>
          rw [Stmt.execute]
          have anything (statement : Stmt) :
              Frames (fun _ => True) (statement.execute rounds depth) :=
            (body statement).mono fun _ _ => trivial
          exact fun machine => Frames.inScope _ (Frames.sequence anything statements) machine
      | ifThen condition thenBranch =>
          rw [Stmt.execute]
          refine (inner condition).bind fun value => ?_
          split
          · exact body thenBranch
          · exact .pure _
      | ifElse condition thenBranch elseBranch =>
          rw [Stmt.execute]
          refine (inner condition).bind fun value => ?_
          split
          · exact (body thenBranch).mono fun _ => List.mem_append_left _
          · exact (body elseBranch).mono fun _ => List.mem_append_right _
      | whileDo condition statement =>
          rw [Stmt.execute]
          exact .loop (inner condition) (body statement) rounds
      | function name parameters statements =>
          have declares : name.lexeme ∈ (Stmt.function name parameters statements).declared := by
            simp [Stmt.declared]
          rw [Stmt.execute]
          exact (Frames.close name parameters statements).bind fun _ =>
            (Frames.define declares _).bind fun _ => .pure _
      | ret keyword result =>
          cases result with
          | none =>
              rw [Stmt.execute]
              exact .pure _
          | some value =>
              rw [Stmt.execute]
              exact (inner value).bind fun _ => .pure _

end

/--
Declarations stay in their scope, in whatever way a statement ends. A scope that was there before
and is not the current one binds the same names as before. The current scope still binds its names,
and of others at most those that the statement declares there. Evaluating an expression, whatever
functions it calls, changes the names of no scope that was there before.
-/
theorem declarations_stay_in_scope (rounds depth : Nat) (machine : Machine) (id : ScopeId)
    (isScope : machine.store.Has id) :
    (∀ statement : Stmt,
      let after := final (statement.execute rounds depth machine)
      after.store.Has id ∧
      (id ≠ machine.current →
        ∀ name, after.store.binds id name = machine.store.binds id name) ∧
      ∀ name,
        (machine.store.binds id name = true → after.store.binds id name = true) ∧
        (after.store.binds id name = true →
          machine.store.binds id name = true ∨ name ∈ statement.declared)) ∧
    ∀ expr : Expr,
      let after := final (expr.evaluate rounds depth machine)
      after.store.Has id ∧ ∀ name, after.store.binds id name = machine.store.binds id name := by
  constructor
  · intro statement after
    have frame : machine.Frame (· ∈ statement.declared) after :=
      statement.execute_frames rounds depth machine
    refine ⟨frame.has isScope, fun differs name => ?_, fun name => ⟨frame.keeps, fun isBound => ?_⟩⟩
    · exact frame.binds_eq isScope fun isNew => differs isNew.1
    · exact (frame.gained isScope isBound).imp_right And.right
  · intro expr after
    have frame : machine.Frame (fun _ => False) after := expr.evaluate_frames rounds depth machine
    exact ⟨frame.has isScope, fun name => frame.binds_eq isScope And.right⟩

/--
The global scope binds a function `f` whose body declares `a` and fails. When
`if (true) var b = f();` is executed in the scope of a block, that scope gains nothing, and neither
does the global one.
-/
theorem declarations_stay_in_scope_failing_call :
    let name := fun lexeme => Token.mk .identifier lexeme .null 1
    let body := [Stmt.declare (name "a") none, .expression (.read (name "c"))]
    let globals : Scope := ⟨none, [("f", .function ⟨name "f", [], body, 0, 0⟩)]⟩
    let machine : Machine := ⟨⟨#[globals, ⟨some 0, []⟩]⟩, 0, 1, 1, ""⟩
    let statement := Stmt.ifThen (.literal (.bool true)) (.declare (name "b")
      (some (.call (.read (name "f")) ⟨.rightParen, ")", .null, 1⟩ [])))
    let after := final (statement.execute 9 9 machine)
    machine.store.Has 0 ∧ statement.declared = ["b"] ∧ after.store.scopes.size = 3 ∧
    after.store.binds 2 "a" = true ∧ after.store.binds 1 "b" = false ∧
    ∀ name, after.store.binds 0 name = machine.store.binds 0 name := by
  intro name body globals machine statement after
  have isScope : machine.store.Has 0 := ⟨globals, rfl⟩
  have stays := (declarations_stay_in_scope 9 9 machine 0 isScope).1 statement
  exact ⟨isScope, rfl, by decide +kernel, by decide +kernel, by decide +kernel,
    stays.2.1 (by decide)⟩

/-- That a step goes back to the scope that was current, and keeps the same global scope. -/
def Eval.Restores {α : Type} (action : Eval α) : Prop :=
  ∀ machine : Machine,
    (final (action machine)).current = machine.current ∧
    (final (action machine)).globals = machine.globals

theorem Eval.Frames.restores {α : Type} {gains : String → Prop} {action : Eval α}
    (frames : Frames gains action) : Restores action :=
  fun machine => ⟨(frames machine).current, (frames machine).globals⟩

/-- Another scope may be made current for a step that goes back to it. -/
theorem Eval.Restores.within {α : Type} {action : Eval α} (restores : Restores action)
    (scope : ScopeId) : Restores (Eval.within scope action) := by
  intro machine
  have globals := (restores { machine with current := scope }).2
  rw [within_apply]
  cases ran : action { machine with current := scope } with
  | ok value after =>
      rw [ran] at globals
      exact ⟨rfl, globals⟩
  | error stop after =>
      rw [ran] at globals
      exact ⟨rfl, globals⟩

/--
The current scope is restored on every exit, be it that a step succeeds, returns, or stops at a
runtime error or at a limit that is exceeded somewhere in nested blocks, loops and calls. So it is
with expressions, statements and lists of statements, also with lists that are run in another scope,
with calls and with programs. The global scope stays the same one.
-/
theorem current_scope_restored (rounds depth : Nat) :
    (∀ expr : Expr, Restores (expr.evaluate rounds depth)) ∧
    (∀ statement : Stmt, Restores (statement.execute rounds depth)) ∧
    (∀ statements,
      Restores (Eval.sequence (Stmt.execute rounds depth) statements) ∧
      ∀ scope,
        Restores (Eval.within scope (Eval.sequence (Stmt.execute rounds depth) statements))) ∧
    (∀ paren callee arguments,
      Restores (Eval.call (Stmt.execute rounds depth) paren callee arguments)) ∧
    ∀ statements scope, Restores (interpret ⟨depth, rounds⟩ statements scope) := by
  have frames (statement : Stmt) : Frames (fun _ => True) (statement.execute rounds depth) :=
    (statement.execute_frames rounds depth).mono fun _ _ => trivial
  have inList (statements : List Stmt) :
      Restores (Eval.sequence (Stmt.execute rounds depth) statements) :=
    (Frames.sequence frames statements).restores
  have gainsNothing (expr : Expr) : Frames (fun _ => False) (expr.evaluate rounds depth) :=
    expr.evaluate_frames rounds depth
  refine ⟨fun expr => (gainsNothing expr).restores, fun statement => (frames statement).restores,
    fun statements => ⟨inList statements, (inList statements).within⟩, ?_, ?_⟩
  · intro paren callee arguments
    have called : Frames (fun _ => False) (Eval.call _ paren callee arguments) :=
      .call frames paren callee arguments
    exact called.restores
  · intro statements scope machine
    rw [interpret_apply, final_conclude]
    exact (inList statements).within scope machine

end Scriptlet
