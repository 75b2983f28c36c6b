import Scriptlet.Proofs.Comparison.Evaluation

/-!
# What is printed

A run only adds to the text that was printed before it, and never looks at that text: whatever was
printed before, the run comes to the same and prints the same (`interpret_reprinted`). In the end
the scope is current again that was current at first, and the global scope is what it was.
-/

namespace Scriptlet

/-- That a machine has printed what another one has, and perhaps more. -/
def Machine.Prints (machine after : Machine) : Prop :=
  ∃ text, after.output = machine.output ++ text

theorem Machine.Prints.of_eq {machine after : Machine} (same : after.output = machine.output) :
    machine.Prints after :=
  ⟨"", by simp [same]⟩

theorem Machine.Prints.trans {machine between after : Machine} (first : machine.Prints between)
    (second : between.Prints after) : machine.Prints after := by
  rcases first with ⟨text, isText⟩
  rcases second with ⟨later, isLater⟩
  exact ⟨text ++ later, by rw [isLater, isText, String.append_assoc]⟩

/-- The machine that a step leaves, whether it succeeds or stops. -/
def Eval.final {α : Type} : EStateM.Result Stop Machine α → Machine
  | .ok _ machine => machine
  | .error _ machine => machine

@[simp]
theorem Eval.final_conclude (result : EStateM.Result Stop Machine Flow) :
    final (conclude result) = final result := by
  cases result with
  | ok flow machine => rfl
  | error stop machine => cases stop <;> rfl

/-- The comparison of a run with the same run after another text was printed. -/
def Comparison.reprinted (machine : Machine) (output : String) : Comparison where
  left := machine
  right := { machine with output := output }
  Accepts likeness := likeness = .only fun _ => True
  Sees _ := True
  Same serial serial' := serial' = serial
  sees_new _ := trivial
  same_new _ := rfl
  same_iff := by
    rintro _ _ _ _ rfl rfl
    rfl

namespace Comparison

variable (machine : Machine) (output : String)

theorem reprinted_values (value : Value) : (reprinted machine output).Values value value := by
  cases value with
  | constant value => exact .constant value
  | function closure =>
      have holds : ∀ token, (Likeness.only fun _ => True).Holds token token :=
        fun _ => ⟨trivial, rfl⟩
      exact .function {
        code := ⟨_, rfl, holds _, List.forall₂_same.2 fun token _ => holds token,
          Stmt.correspond_selves _ fun token _ => holds token⟩
        scope := rfl
        seen := trivial
        serial := rfl }

theorem reprinted_machines :
    (reprinted machine output).Machines machine.current machine { machine with output := output } :=
  .start rfl (fun _ => trivial) fun _ _ => reprinted_values machine output _

theorem Errors.eq_of_reprinted {machine : Machine} {output : String} {error error' : RuntimeError}
    (errors : (reprinted machine output).Errors error error') : error' = error := by
  rcases errors.token with ⟨_, rfl, _, sameToken⟩
  rcases error with ⟨cause, token⟩
  rcases error' with ⟨cause', token'⟩
  obtain rfl : cause = cause' := errors.cause
  obtain rfl : token' = token := sameToken
  rfl

theorem Results.machines {comparison : Comparison} {α β : Type} {related : α → β → Prop}
    {current : ScopeId} {result : EStateM.Result Stop Machine α}
    {result' : EStateM.Result Stop Machine β}
    (results : comparison.Results related current result result') :
    comparison.Machines current (Eval.final result) (Eval.final result') := by
  cases results with
  | ok _ machines => exact machines
  | error _ machines => exact machines

end Comparison

open Comparison

theorem Machine.prints_of_results {machine : Machine} {α : Type} {related : α → α → Prop}
    {result : EStateM.Result Stop Machine α}
    (results : (reprinted machine machine.output).Results related machine.current result result) :
    machine.Prints (Eval.final result) := by
  rcases results.machines.outputs with ⟨text, isText, _⟩
  exact ⟨text, isText⟩

/-- Evaluating an expression only adds to the printed text. -/
theorem Expr.evaluate_prints (rounds depth : Nat) (expr : Expr) (machine : Machine) :
    machine.Prints (Eval.final (expr.evaluate rounds depth machine)) := by
  have self : expr.Corresponds (.only fun _ => True) expr :=
    expr.corresponds_self fun _ _ => ⟨trivial, rfl⟩
  exact Machine.prints_of_results
    (Comparison.evaluate rounds depth rfl self _ _ _ (reprinted_machines machine machine.output))

/-- Executing a statement only adds to the printed text. -/
theorem Stmt.execute_prints (rounds depth : Nat) (statement : Stmt) (machine : Machine) :
    machine.Prints (Eval.final (statement.execute rounds depth machine)) := by
  have self : statement.Corresponds (.only fun _ => True) statement :=
    statement.corresponds_self fun _ _ => ⟨trivial, rfl⟩
  exact Machine.prints_of_results
    (Comparison.execute rounds depth rfl self _ _ _ (reprinted_machines machine machine.output))

section Interpret

variable (limits : Limits) (statements : List Stmt) (scope : ScopeId) (machine : Machine)

/-- What was printed before a program is run makes no difference to it. -/
theorem interpret_reprinted (output : String) :
    (reprinted machine output).Results (Option.Rel (reprinted machine output).Errors)
      machine.current (interpret limits statements scope machine)
      (interpret limits statements scope { machine with output := output }) := by
  have selves : List.Forall₂ (Stmt.Corresponds (.only fun _ => True)) statements statements :=
    Stmt.correspond_selves statements fun _ _ => ⟨trivial, rfl⟩
  have executes : (reprinted machine output).Simulates (reprinted machine output).Flows
      (Eval.sequence (Stmt.execute limits.rounds limits.depth) statements) _ :=
    .sequence selves fun _ _ => Comparison.execute limits.rounds limits.depth rfl
  rw [Eval.interpret_apply, Eval.interpret_apply]
  apply Results.conclude
  exact Simulates.within trivial executes _ _ _ (reprinted_machines machine output)

/-- A program leaves the current and the global scope as they were, and adds to the printed text. -/
theorem interpret_keeps :
    let after := Eval.final (interpret limits statements scope machine)
    after.current = machine.current ∧ after.globals = machine.globals ∧ machine.Prints after := by
  have results := interpret_reprinted limits statements scope machine machine.output
  have machines := results.machines
  exact ⟨machines.currents.1, machines.globals.1, Machine.prints_of_results results⟩

variable {limits statements scope machine}

/-- A program that is run after another text was printed prints the same behind it. -/
theorem exists_interpret_of_output {error : Option RuntimeError} {after : Machine}
    (ran : interpret limits statements scope machine = .ok error after) (output : String) :
    ∃ printed after', after.output = machine.output ++ printed ∧
      interpret limits statements scope { machine with output := output } = .ok error after' ∧
      after'.output = output ++ printed := by
  have results := interpret_reprinted limits statements scope machine output
  rw [ran] at results
  generalize interpret limits statements scope { machine with output := output } = result at results
  cases results with
  | ok errors machines =>
      rcases machines.outputs with ⟨printed, isPrinted, isPrinted'⟩
      cases errors with
      | none => exact ⟨printed, _, isPrinted, rfl, isPrinted'⟩
      | some errors =>
          rw [errors.eq_of_reprinted]
          exact ⟨printed, _, isPrinted, rfl, isPrinted'⟩

end Interpret

end Scriptlet
