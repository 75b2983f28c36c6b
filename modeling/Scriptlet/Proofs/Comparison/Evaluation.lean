import Scriptlet.Proofs.Comparison
import Scriptlet.Proofs.EvalLaws

/-!
# Corresponding programs run alike

Corresponding steps on corresponding machines come to corresponding results: each elementary step
does, and so do steps that are put together from such steps. Evaluating corresponding expressions
and executing corresponding statements are therefore alike to any depth (`evaluate`, `execute`).
-/

namespace Scriptlet.Comparison

variable {comparison : Comparison} {α β γ δ : Type}

/-- That two runs stopped for the same reason. -/
inductive Stops (comparison : Comparison) : Stop → Stop → Prop
  | error {error error' : RuntimeError} (errors : comparison.Errors error error') :
      Stops comparison (.error error) (.error error')
  | tooDeep : Stops comparison .tooDeep .tooDeep
  | unfinished : Stops comparison .unfinished .unfinished

/-- That two statements ended in the same way. -/
inductive Flows (comparison : Comparison) : Flow → Flow → Prop
  | next : Flows comparison .next .next
  | returned {value value' : Value} (values : comparison.Values value value') :
      Flows comparison (.returned value) (.returned value')

/-- That two operations have related values, or the same error. -/
inductive Outcomes (comparison : Comparison) (related : α → β → Prop) :
    Except RuntimeError α → Except RuntimeError β → Prop
  | ok {value : α} {value' : β} (values : related value value') :
      Outcomes comparison related (.ok value) (.ok value')
  | error {error error' : RuntimeError} (errors : comparison.Errors error error') :
      Outcomes comparison related (.error error) (.error error')

/-- That two steps came to related results with the same scope current. -/
inductive Results (comparison : Comparison) (related : α → β → Prop) (current : ScopeId) :
    EStateM.Result Stop Machine α → EStateM.Result Stop Machine β → Prop
  | ok {value : α} {value' : β} {machine machine' : Machine} (values : related value value')
      (machines : comparison.Machines current machine machine') :
      Results comparison related current (.ok value machine) (.ok value' machine')
  | error {stop stop' : Stop} {machine machine' : Machine} (stops : comparison.Stops stop stop')
      (machines : comparison.Machines current machine machine') :
      Results comparison related current (.error stop machine) (.error stop' machine')

/-- That two steps, whatever scope is current, leave it so and come to related results. -/
def Simulates (comparison : Comparison) (related : α → β → Prop) (action : Eval α)
    (action' : Eval β) : Prop :=
  ∀ current machine machine', comparison.Machines current machine machine' →
    comparison.Results related current (action machine) (action' machine')

theorem Machines.at {current : ScopeId} {machine machine' : Machine}
    (machines : comparison.Machines current machine machine') {scope : ScopeId}
    (seen : comparison.Sees scope) :
    comparison.Machines scope { machine with current := scope }
      { machine' with current := scope } :=
  { machines with currents := ⟨rfl, rfl⟩, seen := seen }

/-- Another scope may be made current after two steps. -/
theorem Results.returnTo {related : α → β → Prop} {inner outer : ScopeId}
    {result : EStateM.Result Stop Machine α} {result' : EStateM.Result Stop Machine β}
    (results : comparison.Results related inner result result') (seen : comparison.Sees outer) :
    comparison.Results related outer (Eval.returnTo outer result)
      (Eval.returnTo outer result') := by
  cases results with
  | ok values machines => exact .ok values (machines.at seen)
  | error stops machines => exact .error stops (machines.at seen)

/-- Programs whose statements ended alike come to the same. -/
theorem Results.conclude {current : ScopeId} {result result' : EStateM.Result Stop Machine Flow}
    (results : comparison.Results comparison.Flows current result result') :
    comparison.Results (Option.Rel comparison.Errors) current (Eval.conclude result)
      (Eval.conclude result') := by
  cases results with
  | ok flows machines => exact .ok .none machines
  | error stops machines =>
      cases stops with
      | error errors => exact .ok (.some errors) machines
      | tooDeep => exact .error .tooDeep machines
      | unfinished => exact .error .unfinished machines

namespace Outcomes

variable {store store' : Store} {id : ScopeId} {likeness : Likeness} {name name' : Token}

theorem resolve (stores : comparison.Stores store store') (seen : comparison.Sees id)
    (accepted : comparison.Accepts likeness) (names : likeness.Holds name name') :
    comparison.Outcomes (fun owner owner' => owner = owner' ∧ comparison.Sees owner)
      (store.resolve id name) (store'.resolve id name') := by
  rcases stores.owner? seen name.lexeme with ⟨same, allSeen⟩
  unfold Store.resolve
  rw [← (likeness.alike names).lexeme, ← same]
  cases found : store.owner? id name.lexeme with
  | none => exact .error ⟨rfl, likeness, accepted, names⟩
  | some owner => exact .ok ⟨rfl, allSeen owner found⟩

theorem get (stores : comparison.Stores store store') (seen : comparison.Sees id)
    (accepted : comparison.Accepts likeness) (names : likeness.Holds name name') :
    comparison.Outcomes comparison.Values (store.get id name) (store'.get id name') := by
  have owners := resolve stores seen accepted names
  unfold Store.get
  generalize store.resolve id name = owner at owners
  generalize store'.resolve id name' = owner' at owners
  cases owners with
  | error errors => exact .error errors
  | @ok owner _ sameOwner =>
      rcases sameOwner with ⟨rfl, ownerSeen⟩
      have found := stores.find? ownerSeen name.lexeme
      rw [← (likeness.alike names).lexeme]
      dsimp only [Bind.bind, Except.bind]
      generalize (store.scope? owner).bind (·.find? name.lexeme) = value at found
      generalize (store'.scope? owner).bind (·.find? name.lexeme) = value' at found
      cases found with
      | none => exact .error ⟨rfl, likeness, accepted, names⟩
      | some values => exact .ok values

end Outcomes

namespace Simulates

variable {related : α → β → Prop} {next : γ → δ → Prop}

theorem pure {value : α} {value' : β} (values : related value value') :
    comparison.Simulates related (Pure.pure value) (Pure.pure value') :=
  fun _ _ _ machines => .ok values machines

theorem stop {reason reason' : Stop} (stops : comparison.Stops reason reason') :
    comparison.Simulates related (throw reason) (throw reason') :=
  fun _ _ _ machines => .error stops machines

theorem bind {first : Eval α} {first' : Eval β} {rest : α → Eval γ} {rest' : β → Eval δ}
    (firsts : comparison.Simulates related first first')
    (rests : ∀ {value value'}, related value value' →
      comparison.Simulates next (rest value) (rest' value')) :
    comparison.Simulates next (first >>= rest) (first' >>= rest') := by
  intro current machine machine' machines
  have results := firsts current machine machine' machines
  generalize ran : first machine = result at results
  generalize ran' : first' machine' = result' at results
  cases results with
  | ok values betweens =>
      rw [Eval.bind_of_ok ran, Eval.bind_of_ok ran']
      exact rests values _ _ _ betweens
  | error stops betweens =>
      rw [Eval.bind_of_error ran, Eval.bind_of_error ran']
      exact .error stops betweens

theorem ofExcept {result : Except RuntimeError α} {result' : Except RuntimeError β}
    (outcomes : comparison.Outcomes related result result') :
    comparison.Simulates related (Eval.ofExcept result) (Eval.ofExcept result') := by
  cases outcomes with
  | ok values => exact pure values
  | error errors => exact stop (.error errors)

theorem within {scope : ScopeId} (seen : comparison.Sees scope) {action : Eval α}
    {action' : Eval β} (actions : comparison.Simulates related action action') :
    comparison.Simulates related (Eval.within scope action) (Eval.within scope action') := by
  intro current machine machine' machines
  rw [Eval.within_apply, Eval.within_apply, machines.currents.1, machines.currents.2]
  exact (actions scope _ _ (machines.at seen)).returnTo machines.seen

/-- A step may depend on which scope is current. -/
theorem current {action : ScopeId → Eval α} {action' : ScopeId → Eval β}
    (actions : ∀ id, comparison.Sees id → comparison.Simulates related (action id) (action' id)) :
    comparison.Simulates related (get >>= fun machine => action machine.current)
      (get >>= fun machine => action' machine.current) := by
  intro current machine machine' machines
  change comparison.Results related current (action machine.current machine)
    (action' machine'.current machine')
  rw [machines.currents.1, machines.currents.2]
  exact actions current machines.seen current machine machine' machines

theorem forEach {action : α → Eval γ} {action' : β → Eval δ} {items : List α} {items' : List β}
    (allItems : List.Forall₂ related items items')
    (actions : ∀ item item', related item item' →
      comparison.Simulates next (action item) (action' item')) :
    comparison.Simulates (List.Forall₂ next) (Eval.forEach action items)
      (Eval.forEach action' items') := by
  induction allItems with
  | nil => exact pure .nil
  | cons firsts _ ih =>
      exact (actions _ _ firsts).bind fun results => ih.bind fun others =>
        pure (.cons results others)

theorem sequence {execute execute' : Stmt → Eval Flow} {same : Stmt → Stmt → Prop}
    {statements statements' : List Stmt}
    (allStatements : List.Forall₂ same statements statements')
    (executes : ∀ statement statement', same statement statement' →
      comparison.Simulates comparison.Flows (execute statement) (execute' statement')) :
    comparison.Simulates comparison.Flows (Eval.sequence execute statements)
      (Eval.sequence execute' statements') := by
  induction allStatements with
  | nil => exact pure .next
  | cons firsts _ ih =>
      refine (executes _ _ firsts).bind fun flows => ?_
      cases flows with
      | next => exact ih
      | returned values => exact pure (.returned values)

theorem loop {condition condition' : Eval Value} {body body' : Eval Flow}
    (conditions : comparison.Simulates comparison.Values condition condition')
    (bodies : comparison.Simulates comparison.Flows body body') (rounds : Nat) :
    comparison.Simulates comparison.Flows (Eval.loop condition body rounds)
      (Eval.loop condition' body' rounds) := by
  induction rounds with
  | zero => exact stop .unfinished
  | succ rounds ih =>
      refine conditions.bind fun values => ?_
      rw [values.isTruthy]
      split
      · refine bodies.bind fun flows => ?_
        cases flows with
        | next => exact ih
        | returned values => exact pure (.returned values)
      · exact pure .next

theorem printLine (text : String) :
    comparison.Simulates Eq (Eval.printLine text) (Eval.printLine text) := by
  intro current machine machine' machines
  rcases machines.outputs with ⟨printed, output, output'⟩
  refine .ok rfl { machines with outputs := ⟨printed ++ (text ++ "\n"), ?_, ?_⟩ }
  · simp only [output, String.append_assoc]
  · simp only [output', String.append_assoc]

theorem create {scope scope' : Scope} (scopes : comparison.Scopes scope scope') :
    comparison.Simulates (fun id id' => id = id' ∧ comparison.Sees id) (Eval.create scope)
      (Eval.create scope') := by
  intro current machine machine' machines
  have stores := machines.stores
  exact .ok ⟨stores.size, comparison.sees_new stores.grown⟩
    { machines with stores := stores.create scopes }

variable {likeness : Likeness}

theorem define {name name' : Token} (names : likeness.Holds name name') {value value' : Value}
    (values : comparison.Values value value') :
    comparison.Simulates Eq (Eval.define name value) (Eval.define name' value') := by
  intro current machine machine' machines
  refine .ok rfl { machines with stores := ?_ }
  dsimp only
  rw [machines.currents.1, machines.currents.2, (likeness.alike names).lexeme]
  exact machines.stores.define machines.seen values _

variable (accepted : comparison.Accepts likeness)

include accepted

theorem close {name name' : Token} (names : likeness.Holds name name')
    {parameters parameters' : List Token}
    (parameterLists : List.Forall₂ likeness.Holds parameters parameters')
    {body body' : List Stmt} (bodies : List.Forall₂ (Stmt.Corresponds likeness) body body') :
    comparison.Simulates comparison.Values (Eval.close name parameters body)
      (Eval.close name' parameters' body') := by
  intro current machine machine' machines
  rcases machines.functions with ⟨count, functions, functions'⟩
  refine .ok (.function ?_) { machines with functions := ⟨count + 1, ?_, ?_⟩ }
  · exact {
      code := ⟨likeness, accepted, names, parameterLists, bodies⟩
      scope := machines.currents.1.trans machines.currents.2.symm
      seen := by
        rw [machines.currents.1]
        exact machines.seen
      serial := by
        rw [functions, functions']
        exact comparison.same_new count }
  · simp only [functions, Nat.add_assoc]
  · simp only [functions', Nat.add_assoc]

theorem lookup {name name' : Token} (names : likeness.Holds name name') :
    comparison.Simulates comparison.Values (Eval.lookup name) (Eval.lookup name') := by
  intro current machine machine' machines
  have outcomes : comparison.Outcomes comparison.Values
      (machine.store.get machine.current name) (machine'.store.get machine'.current name') := by
    rw [machines.currents.1, machines.currents.2]
    exact .get machines.stores machines.seen accepted names
  exact ofExcept outcomes current machine machine' machines

theorem assign {name name' : Token} (names : likeness.Holds name name') {value value' : Value}
    (values : comparison.Values value value') :
    comparison.Simulates Eq (Eval.assign name value) (Eval.assign name' value') := by
  intro current machine machine' machines
  have owners : comparison.Outcomes (fun owner owner' => owner = owner' ∧ comparison.Sees owner)
      (machine.store.resolve machine.current name)
      (machine'.store.resolve machine'.current name') := by
    rw [machines.currents.1, machines.currents.2]
    exact .resolve machines.stores machines.seen accepted names
  rw [Eval.assign_run, Eval.assign_run]
  unfold Store.assign
  generalize machine.store.resolve machine.current name = owner at owners
  generalize machine'.store.resolve machine'.current name' = owner' at owners
  cases owners with
  | error errors => exact .error (.error errors) machines
  | ok sameOwner =>
      rcases sameOwner with ⟨rfl, ownerSeen⟩
      refine .ok rfl { machines with stores := ?_ }
      rw [← (likeness.alike names).lexeme]
      exact machines.stores.define ownerSeen values _

end Simulates

section Operators

variable {likeness : Likeness} (accepted : comparison.Accepts likeness)
  {operator operator' : Token} (operators : likeness.Holds operator operator')

include accepted operators

theorem Errors.of (cause : RuntimeError.Cause) :
    comparison.Errors ⟨cause, operator⟩ ⟨cause, operator'⟩ :=
  ⟨rfl, likeness, accepted, operators⟩

theorem Outcomes.applyUnary {value value' : Value} (values : comparison.Values value value') :
    comparison.Outcomes comparison.Values (applyUnary operator value)
      (applyUnary operator' value') := by
  have errors := Errors.of accepted operators .notNumber
  unfold Scriptlet.applyUnary
  rw [(likeness.alike operators).kind]
  cases values with
  | constant value =>
      split
      · exact .ok (.constant _)
      · exact .ok (.constant _)
      · exact .error errors
  | function closures =>
      cases operator'.kind with
      | bang => exact .ok (.constant _)
      | _ => exact .error errors

theorem Outcomes.add {left left' right right' : Value} (lefts : comparison.Values left left')
    (rights : comparison.Values right right') :
    comparison.Outcomes comparison.Values (add operator left right)
      (add operator' left' right') := by
  have errors := Errors.of accepted operators .notAddable
  cases lefts with
  | function closures => exact .error errors
  | constant left =>
      cases rights with
      | function closures => cases left <;> exact .error errors
      | constant right =>
          unfold Scriptlet.add
          split
          · exact .ok (.constant _)
          · exact .ok (.constant _)
          · exact .error errors

theorem Outcomes.applyBinary {left left' right right' : Value}
    (lefts : comparison.Values left left') (rights : comparison.Values right right') :
    comparison.Outcomes comparison.Values (applyBinary operator left right)
      (applyBinary operator' left' right') := by
  have errors := Errors.of accepted operators .notNumbers
  unfold Scriptlet.applyBinary
  rw [(likeness.alike operators).kind, lefts.isEqual rights]
  split
  · exact .ok (.constant _)
  · exact .ok (.constant _)
  · exact .add accepted operators lefts rights
  · cases lefts with
    | function closures => exact .error errors
    | constant left =>
        cases rights with
        | function closures => cases left <;> exact .error errors
        | constant right =>
            split
            · split
              · rename_i isValue
                rcases eq_constant_of_arithmetic? isValue with ⟨constant, rfl⟩
                exact .ok (.constant constant)
              · exact .error (.of accepted operators _)
            · exact .error errors

end Operators

theorem Scopes.defineAll {likeness : Likeness} {parameters parameters' : List Token}
    (parameterLists : List.Forall₂ likeness.Holds parameters parameters')
    {arguments arguments' : List Value}
    (argumentLists : List.Forall₂ comparison.Values arguments arguments') {scope scope' : Scope}
    (scopes : comparison.Scopes scope scope') :
    comparison.Scopes
      ((parameters.zip arguments).foldl
        (fun scope (parameter, argument) => scope.define parameter.lexeme argument) scope)
      ((parameters'.zip arguments').foldl
        (fun scope (parameter, argument) => scope.define parameter.lexeme argument) scope') := by
  induction parameterLists generalizing arguments arguments' scope scope' with
  | nil => exact scopes
  | cons names _ ih =>
      cases argumentLists with
      | nil => exact scopes
      | cons values others =>
          simp only [List.zip_cons_cons, List.foldl_cons]
          rw [← (likeness.alike names).lexeme]
          exact ih others (scopes.define values _)

theorem Scopes.callScope {closure closure' : Closure}
    (closures : comparison.Closures closure closure') {arguments arguments' : List Value}
    (argumentLists : List.Forall₂ comparison.Values arguments arguments') :
    comparison.Scopes (Eval.callScope closure arguments) (Eval.callScope closure' arguments') := by
  rcases closures.code with ⟨likeness, _, _, parameterLists, _⟩
  unfold Eval.callScope
  rw [← closures.scope]
  exact .defineAll parameterLists argumentLists (.empty closures.seen)

theorem Simulates.call {execute execute' : Stmt → Eval Flow}
    (executes : ∀ {likeness statement statement'}, comparison.Accepts likeness →
      Stmt.Corresponds likeness statement statement' →
      comparison.Simulates comparison.Flows (execute statement) (execute' statement'))
    {likeness : Likeness} (accepted : comparison.Accepts likeness) {paren paren' : Token}
    (parens : likeness.Holds paren paren') {callee callee' : Value}
    (callees : comparison.Values callee callee') {arguments arguments' : List Value}
    (argumentLists : List.Forall₂ comparison.Values arguments arguments') :
    comparison.Simulates comparison.Values (Eval.call execute paren callee arguments)
      (Eval.call execute' paren' callee' arguments') := by
  cases callees with
  | constant value => exact stop (.error (.of accepted parens _))
  | @function closure closure' closures =>
      -- The code of a function may come from another text than the call.
      rcases closures.code with ⟨codeLikeness, codeAccepted, _, parameterLists, bodies⟩
      have arities : closure.arity = closure'.arity := parameterLists.length_eq
      unfold Eval.call
      dsimp only
      rw [argumentLists.length_eq, arities]
      split
      · exact stop (.error (.of accepted parens _))
      · refine (create (.callScope closures argumentLists)).bind fun {scope _} created => ?_
        rcases created with ⟨rfl, seen⟩
        refine (within seen (sequence bodies fun _ _ => executes codeAccepted)).bind fun flows => ?_
        cases flows with
        | next => exact pure (.constant _)
        | returned values => exact pure values

mutual

/-- Corresponding expressions are evaluated alike. -/
theorem evaluate (rounds depth : Nat) {likeness : Likeness}
    (accepted : comparison.Accepts likeness) {expr expr' : Expr}
    (exprs : expr.Corresponds likeness expr') :
    comparison.Simulates comparison.Values (expr.evaluate rounds depth)
      (expr'.evaluate rounds depth) := by
  match depth with
  | 0 =>
      rw [Expr.evaluate, Expr.evaluate]
      exact .stop .tooDeep
  | depth + 1 =>
      cases exprs with
      | literal value =>
          rw [Expr.evaluate]
          exact .pure (.constant value)
      | grouping inners =>
          rw [Expr.evaluate, Expr.evaluate]
          exact evaluate rounds depth accepted inners
      | unary operators operands =>
          rw [Expr.evaluate, Expr.evaluate]
          exact (evaluate rounds depth accepted operands).bind fun values =>
            .ofExcept (.applyUnary accepted operators values)
      | binary lefts operators rights =>
          rw [Expr.evaluate, Expr.evaluate]
          exact (evaluate rounds depth accepted lefts).bind fun leftValues =>
            (evaluate rounds depth accepted rights).bind fun rightValues =>
              .ofExcept (.applyBinary accepted operators leftValues rightValues)
      | logical lefts operators rights =>
          rw [Expr.evaluate, Expr.evaluate]
          refine (evaluate rounds depth accepted lefts).bind fun values => ?_
          rw [(likeness.alike operators).kind, values.isTruthy]
          split
          · exact .pure values
          · exact evaluate rounds depth accepted rights
      | read names =>
          rw [Expr.evaluate, Expr.evaluate]
          exact .lookup accepted names
      | assign names values =>
          rw [Expr.evaluate, Expr.evaluate]
          exact (evaluate rounds depth accepted values).bind fun values =>
            (Simulates.assign accepted names values).bind fun _ => .pure values
      | call callees parens argumentLists =>
          rw [Expr.evaluate, Expr.evaluate]
          exact (evaluate rounds depth accepted callees).bind fun callees =>
            (Simulates.forEach argumentLists fun _ _ => evaluate rounds depth accepted).bind
              fun argumentLists =>
                .call (execute rounds depth) accepted parens callees argumentLists

/-- Corresponding statements are executed alike. -/
theorem execute (rounds depth : Nat) {likeness : Likeness} {statement statement' : Stmt}
    (accepted : comparison.Accepts likeness)
    (statements : statement.Corresponds likeness statement') :
    comparison.Simulates comparison.Flows (statement.execute rounds depth)
      (statement'.execute rounds depth) := by
  match depth with
  | 0 =>
      rw [Stmt.execute, Stmt.execute]
      exact .stop .tooDeep
  | depth + 1 =>
      cases statements with
      | expression values =>
          rw [Stmt.execute, Stmt.execute]
          exact (evaluate rounds depth accepted values).bind fun _ => .pure .next
      | print values =>
          rw [Stmt.execute, Stmt.execute]
          refine (evaluate rounds depth accepted values).bind fun values => ?_
          rw [values.text]
          exact (Simulates.printLine _).bind fun _ => .pure .next
      | declare names values =>
          cases values with
          | none =>
              rw [Stmt.execute, Stmt.execute]
              exact (Simulates.define names (.constant _)).bind fun _ => .pure .next
          | some values =>
              rw [Stmt.execute, Stmt.execute]
              exact (evaluate rounds depth accepted values).bind fun values =>
                (Simulates.define names values).bind fun _ => .pure .next
      | block bodies =>
          rw [Stmt.execute, Stmt.execute]
          refine .current fun current seen =>
            (Simulates.create (.empty seen)).bind fun {scope _} created => ?_
          rcases created with ⟨rfl, scopeSeen⟩
          exact .within scopeSeen (.sequence bodies fun _ _ => execute rounds depth accepted)
      | ifThen conditions thenBranches =>
          rw [Stmt.execute, Stmt.execute]
          refine (evaluate rounds depth accepted conditions).bind fun values => ?_
          rw [values.isTruthy]
          split
          · exact execute rounds depth accepted thenBranches
          · exact .pure .next
      | ifElse conditions thenBranches elseBranches =>
          rw [Stmt.execute, Stmt.execute]
          refine (evaluate rounds depth accepted conditions).bind fun values => ?_
          rw [values.isTruthy]
          split
          · exact execute rounds depth accepted thenBranches
          · exact execute rounds depth accepted elseBranches
      | whileDo conditions bodies =>
          rw [Stmt.execute, Stmt.execute]
          exact .loop (evaluate rounds depth accepted conditions)
            (execute rounds depth accepted bodies) rounds
      | function names parameterLists bodies =>
          rw [Stmt.execute, Stmt.execute]
          exact (Simulates.close accepted names parameterLists bodies).bind fun values =>
            (Simulates.define names values).bind fun _ => .pure .next
      | ret keywords values =>
          cases values with
          | none =>
              rw [Stmt.execute, Stmt.execute]
              exact .pure (.returned (.constant _))
          | some values =>
              rw [Stmt.execute, Stmt.execute]
              exact (evaluate rounds depth accepted values).bind fun values =>
                .pure (.returned values)

end

end Scriptlet.Comparison
