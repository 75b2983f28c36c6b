import Scriptlet.Proofs.Alignment
import Scriptlet.Proofs.Trees

/-!
# Aligned machines run alike

The same expression is evaluated alike by two aligned machines, and the same statement is executed
alike. A statement that declares something has to do so in scopes that are the same; any other may
also be executed in an extra scope (`Alignment.evaluate`, `Alignment.execute`).
-/

namespace Scriptlet.Alignment

variable {α β γ δ : Type}

/-- That two machines with aligned stores have printed the same and made as many functions. -/
structure Machines (alignment : Alignment) (machine machine' : Machine) : Prop where
  stores : alignment.Stores machine.store machine'.store
  sees : alignment.Sees machine.store machine'.store machine.current machine'.current
  globals : machine.globals = machine'.globals
  functions : machine.functions = machine'.functions
  outputs : machine.output = machine'.output

/-- That two machines and their alignment have become others, with the same scopes current. -/
structure Continues (alignment : Alignment) (machine machine' : Machine) (later : Alignment)
    (after after' : Machine) : Prop where
  grows : alignment.Grows later
  left : after.store.Extends machine.store
  right : after'.store.Extends machine'.store
  currents : after.current = machine.current ∧ after'.current = machine'.current

/-- That two statements ended in the same way. -/
inductive Flows (alignment : Alignment) : Flow → Flow → Prop
  | next : Flows alignment .next .next
  | returned {value value' : Value} (values : alignment.Values value value') :
      Flows alignment (.returned value) (.returned value')

/-- That two steps came to the same, in machines that are aligned again. -/
inductive Results (alignment : Alignment) (related : Alignment → α → β → Prop)
    (machine machine' : Machine) :
    EStateM.Result Stop Machine α → EStateM.Result Stop Machine β → Prop
  | ok {later : Alignment} {after after' : Machine} {value : α} {value' : β}
      (continues : alignment.Continues machine machine' later after after')
      (machines : later.Machines after after') (values : related later value value') :
      Results alignment related machine machine' (.ok value after) (.ok value' after')
  | error {later : Alignment} {after after' : Machine} {stop : Stop}
      (continues : alignment.Continues machine machine' later after after')
      (machines : later.Machines after after') :
      Results alignment related machine machine' (.error stop after) (.error stop after')

/-- That a statement may be executed on both sides: it may declare things only in the same scope. -/
def Permits (alignment : Alignment) (machine machine' : Machine) (statement : Stmt) : Prop :=
  statement.Plain ∨ alignment.Pairs machine.current machine'.current

/-- That two steps come to the same on all aligned machines. -/
def Agree (related : Alignment → α → β → Prop) (action : Eval α) (action' : Eval β) : Prop :=
  ∀ {alignment : Alignment} {machine machine' : Machine}, alignment.Machines machine machine' →
    alignment.Results related machine machine' (action machine) (action' machine')

/-- That two steps come to the same on all aligned machines that may execute a statement. -/
def AgreeOn (statement : Stmt) (action action' : Eval Flow) : Prop :=
  ∀ {alignment : Alignment} {machine machine' : Machine}, alignment.Machines machine machine' →
    alignment.Permits machine machine' statement →
    alignment.Results Flows machine machine' (action machine) (action' machine')

variable {alignment later : Alignment} {machine machine' after after' : Machine}

namespace Continues

theorem refl (alignment : Alignment) (machine machine' : Machine) :
    alignment.Continues machine machine' alignment machine machine' :=
  ⟨.refl alignment, .refl machine.store, .refl machine'.store, rfl, rfl⟩

theorem trans {last : Alignment} {final final' : Machine}
    (first : alignment.Continues machine machine' later after after')
    (second : later.Continues after after' last final final') :
    alignment.Continues machine machine' last final final' :=
  ⟨first.grows.trans second.grows, second.left.trans first.left, second.right.trans first.right,
    second.currents.1.trans first.currents.1, second.currents.2.trans first.currents.2⟩

theorem pairs (continues : alignment.Continues machine machine' later after after')
    (pairs : alignment.Pairs machine.current machine'.current) :
    later.Pairs after.current after'.current := by
  rw [continues.currents.1, continues.currents.2]
  exact continues.grows.pairs pairs

end Continues

namespace Permits

theorem continues {statement : Stmt} (permits : alignment.Permits machine machine' statement)
    (continues : alignment.Continues machine machine' later after after') :
    later.Permits after after' statement :=
  permits.imp_right continues.pairs

variable {condition : Expr} {statement other : Stmt}

theorem ifThen (permits : alignment.Permits machine machine' (.ifThen condition statement)) :
    alignment.Permits machine machine' statement := by
  apply permits.imp_left
  rintro ⟨⟩
  assumption

theorem ifElse (permits : alignment.Permits machine machine' (.ifElse condition statement other)) :
    alignment.Permits machine machine' statement ∧ alignment.Permits machine machine' other := by
  rcases permits with plain | pairs
  · cases plain with
    | ifElse _ thenPlain elsePlain => exact ⟨.inl thenPlain, .inl elsePlain⟩
  · exact ⟨.inr pairs, .inr pairs⟩

theorem whileDo (permits : alignment.Permits machine machine' (.whileDo condition statement)) :
    alignment.Permits machine machine' statement := by
  apply permits.imp_left
  rintro ⟨⟩
  assumption

end Permits

/-- A machine is aligned with itself. -/
theorem self_machines (wellFormed : machine.WellFormed) :
    (self machine.store).Machines machine machine := by
  have stores := self_stores wellFormed.store
  exact ⟨stores, stores.sees ⟨rfl, wellFormed.current⟩, rfl, rfl, rfl⟩

/-- Scopes that are made on both sides may be entered on both sides. -/
theorem Machines.enter (machines : alignment.Machines machine machine') {scope scope' : Scope}
    {parent parent' : ScopeId} (isParent : scope.parent = some parent)
    (isParent' : scope'.parent = some parent')
    (sees : alignment.Sees machine.store machine'.store parent parent')
    (bindings : alignment.Bindings scope scope') :
    let entered := alignment.pair machine.store.scopes.size machine'.store.scopes.size
    entered.Machines (machine.enter scope) (machine'.enter scope') ∧
    entered.Pairs (machine.enter scope).current (machine'.enter scope').current := by
  have stores := machines.stores.create isParent isParent' sees bindings
  have pairs : (alignment.pair machine.store.scopes.size machine'.store.scopes.size).Pairs
      (machine.enter scope).current (machine'.enter scope').current := .inr ⟨rfl, rfl⟩
  exact ⟨{ machines with stores := stores, sees := stores.sees pairs }, pairs⟩

/-- An extra scope may be made and entered on the left. -/
theorem Machines.enterLeft (machines : alignment.Machines machine machine') :
    (alignment.extraLeft machine.store.scopes.size).Machines
      (machine.enter ⟨some machine.current, []⟩) machine' := by
  have stores := machines.stores.createLeft machines.sees.has.1
  have grows := Grows.extraLeft alignment machine.store.scopes.size
  have sees := grows.sees (.create machine.store ⟨some machine.current, []⟩) (.refl machine'.store)
    machines.sees
  exact { machines with
    stores := stores
    sees := sees.at_left (Store.scope?_create_self ..) rfl (.inr rfl) }

/-- An extra scope may be made and entered on the right. -/
theorem Machines.enterRight (machines : alignment.Machines machine machine') :
    (alignment.extraRight machine'.store.scopes.size).Machines machine
      (machine'.enter ⟨some machine'.current, []⟩) := by
  have stores := machines.stores.createRight machines.sees.has.2
  have grows := Grows.extraRight alignment machine'.store.scopes.size
  have sees := grows.sees (.refl machine.store) (.create machine'.store ⟨some machine'.current, []⟩)
    machines.sees
  exact { machines with
    stores := stores
    sees := sees.at_right (Store.scope?_create_self ..) rfl (.inr rfl) }

namespace Results

variable {related : Alignment → α → β → Prop} {next : Alignment → γ → δ → Prop}

theorem pure (machines : alignment.Machines machine machine') {value : α} {value' : β}
    (values : related alignment value value') :
    alignment.Results related machine machine' ((Pure.pure value : Eval α) machine)
      ((Pure.pure value' : Eval β) machine') :=
  .ok (.refl ..) machines values

theorem stop (machines : alignment.Machines machine machine') (reason : Stop) :
    alignment.Results related machine machine' ((throw reason : Eval α) machine)
      ((throw reason : Eval β) machine') :=
  .error (.refl ..) machines

/-- What comes after aligned steps may begin in a later alignment. -/
theorem of_continues {result : EStateM.Result Stop Machine α}
    {result' : EStateM.Result Stop Machine β}
    (continues : alignment.Continues machine machine' later after after')
    (results : later.Results related after after' result result') :
    alignment.Results related machine machine' result result' := by
  cases results with
  | ok further machines values => exact .ok (continues.trans further) machines values
  | error further machines => exact .error (continues.trans further) machines

theorem bind {first : Eval α} {first' : Eval β} {rest : α → Eval γ} {rest' : β → Eval δ}
    (firsts : alignment.Results related machine machine' (first machine) (first' machine'))
    (rests : ∀ {later after after' value value'},
      alignment.Continues machine machine' later after after' → later.Machines after after' →
      related later value value' →
      later.Results next after after' (rest value after) (rest' value' after')) :
    alignment.Results next machine machine' ((first >>= rest) machine)
      ((first' >>= rest') machine') := by
  generalize ran : first machine = result at firsts
  generalize ran' : first' machine' = result' at firsts
  cases firsts with
  | error continues machines =>
      rw [Eval.bind_of_error ran, Eval.bind_of_error ran']
      exact .error continues machines
  | ok continues machines values =>
      rw [Eval.bind_of_ok ran, Eval.bind_of_ok ran']
      exact of_continues continues (rests continues machines values)

/-- One may leave the scopes that were entered on either side. -/
theorem leave {inner inner' : Machine} {result : EStateM.Result Stop Machine α}
    {result' : EStateM.Result Stop Machine β} (machines : alignment.Machines machine machine')
    (grows : alignment.Grows later) (left : inner.store.Extends machine.store)
    (right : inner'.store.Extends machine'.store)
    (results : later.Results related inner inner' result result') :
    alignment.Results related machine machine' (Eval.returnTo machine.current result)
      (Eval.returnTo machine'.current result') := by
  have continues {last : Alignment} {after after' : Machine}
      (further : later.Continues inner inner' last after after') :
      alignment.Continues machine machine' last { after with current := machine.current }
        { after' with current := machine'.current } :=
    ⟨grows.trans further.grows, further.left.trans left, further.right.trans right, rfl, rfl⟩
  have back {last : Alignment} {after after' : Machine}
      (further : later.Continues inner inner' last after after')
      (ends : last.Machines after after') :
      last.Machines { after with current := machine.current }
        { after' with current := machine'.current } := by
    have sees := (grows.trans further.grows).sees (further.left.trans left)
      (further.right.trans right) machines.sees
    exact { ends with sees := sees }
  cases results with
  | ok further ends values => exact .ok (continues further) (back further ends) values
  | error further ends => exact .error (continues further) (back further ends)

/-- A step on the right that keeps the current scope need not go back to it. -/
theorem returnTo_right {result : EStateM.Result Stop Machine α}
    {result' : EStateM.Result Stop Machine β}
    (results : alignment.Results related machine machine' result result') :
    Eval.returnTo machine'.current result' = result' := by
  cases results with
  | ok continues _ _ => rw [← continues.currents.2]; rfl
  | error continues _ => rw [← continues.currents.2]; rfl

theorem returnTo_left {result : EStateM.Result Stop Machine α}
    {result' : EStateM.Result Stop Machine β}
    (results : alignment.Results related machine machine' result result') :
    Eval.returnTo machine.current result = result := by
  cases results with
  | ok continues _ _ => rw [← continues.currents.1]; rfl
  | error continues _ => rw [← continues.currents.1]; rfl

/-- What is run in scopes that are made on both sides is run in scopes that are the same. -/
theorem inScopes (machines : alignment.Machines machine machine') {scope scope' : Scope}
    {parent parent' : ScopeId} (isParent : scope.parent = some parent)
    (isParent' : scope'.parent = some parent')
    (sees : alignment.Sees machine.store machine'.store parent parent')
    (bindings : alignment.Bindings scope scope') {action : Eval α} {action' : Eval β}
    (actions : ∀ {later after after'}, alignment.Grows later → later.Machines after after' →
      later.Pairs after.current after'.current →
      later.Results related after after' (action after) (action' after')) :
    alignment.Results related machine machine'
      ((Eval.create scope >>= fun id => Eval.within id action) machine)
      ((Eval.create scope' >>= fun id => Eval.within id action') machine') := by
  have grows := Grows.pair alignment machine.store.scopes.size machine'.store.scopes.size
  rcases machines.enter isParent isParent' sees bindings with ⟨entered, pairs⟩
  rw [Eval.inScope_apply, Eval.inScope_apply]
  exact leave machines grows (.create ..) (.create ..) (actions grows entered pairs)

/-- What is run in an extra scope on the left comes to the same on the right. -/
theorem inScopeLeft (machines : alignment.Machines machine machine') {action : Eval α}
    {action' : Eval β}
    (actions : ∀ {later : Alignment} {after}, later.Machines after machine' →
      later.Results related after machine' (action after) (action' machine')) :
    alignment.Results related machine machine'
      ((Eval.create ⟨some machine.current, []⟩ >>= fun id => Eval.within id action) machine)
      (action' machine') := by
  have results := actions machines.enterLeft
  have grows := Grows.extraLeft alignment machine.store.scopes.size
  rw [Eval.inScope_apply, ← results.returnTo_right]
  exact leave machines grows (.create ..) (.refl _) results

/-- What is run in an extra scope on the right comes to the same on the left. -/
theorem inScopeRight (machines : alignment.Machines machine machine') {action : Eval α}
    {action' : Eval β}
    (actions : ∀ {later : Alignment} {after'}, later.Machines machine after' →
      later.Results related machine after' (action machine) (action' after')) :
    alignment.Results related machine machine' (action machine)
      ((Eval.create ⟨some machine'.current, []⟩ >>= fun id =>
        Eval.within id action') machine') := by
  have results := actions machines.enterRight
  have grows := Grows.extraRight alignment machine'.store.scopes.size
  rw [Eval.inScope_apply, ← results.returnTo_left]
  exact leave machines grows (.refl _) (.create ..) results

/-- An operation that gives the same on both sides, and never a function. -/
theorem ofExcept (machines : alignment.Machines machine machine')
    {result : Except RuntimeError Value}
    (isConstant : ∀ value, result = .ok value → ∃ constant, value = .constant constant) :
    alignment.Results Values machine machine' (Eval.ofExcept result machine)
      (Eval.ofExcept result machine') := by
  cases result with
  | error error => exact stop machines _
  | ok value =>
      rcases isConstant value rfl with ⟨constant, rfl⟩
      exact pure machines (.constant constant)

theorem lookup (machines : alignment.Machines machine machine') (name : Token) :
    alignment.Results Values machine machine' (Eval.lookup name machine)
      (Eval.lookup name machine') := by
  have owners := machines.stores.owner? machines.sees name.lexeme
  change alignment.Results Values machine machine'
    (Eval.ofExcept (machine.store.get machine.current name) machine)
    (Eval.ofExcept (machine'.store.get machine'.current name) machine')
  unfold Store.get Store.resolve
  generalize machine.store.owner? machine.current name.lexeme = owner at owners
  generalize machine'.store.owner? machine'.current name.lexeme = owner' at owners
  cases owners with
  | none => exact stop machines _
  | @some owner owner' pairs =>
      have found := machines.stores.bindings pairs name.lexeme
      unfold Store.bound? at found
      dsimp only [Bind.bind, Except.bind]
      generalize (machine.store.scope? owner).bind (·.find? name.lexeme) = value at found
      generalize (machine'.store.scope? owner').bind (·.find? name.lexeme) = value' at found
      cases found with
      | none => exact stop machines _
      | some values => exact pure machines values

/-- Defining the same in scopes that are the same keeps machines aligned. -/
theorem defined (machines : alignment.Machines machine machine') {id id' : ScopeId}
    (pairs : alignment.Pairs id id') (name : String) {value value' : Value}
    (values : alignment.Values value value') :
    alignment.Results (fun _ _ _ => True) machine machine'
      (.ok () { machine with store := machine.store.define id name value })
      (.ok () { machine' with store := machine'.store.define id' name value' }) := by
  have left := Store.Extends.define machine.store id name value
  have right := Store.Extends.define machine'.store id' name value'
  have stores := machines.stores.define pairs name values
  have sees := (Grows.refl alignment).sees left right machines.sees
  exact .ok ⟨.refl alignment, left, right, rfl, rfl⟩
    { machines with stores := stores, sees := sees }
    trivial

theorem assign (machines : alignment.Machines machine machine') (name : Token)
    {value value' : Value} (values : alignment.Values value value') :
    alignment.Results (fun _ _ _ => True) machine machine' (Eval.assign name value machine)
      (Eval.assign name value' machine') := by
  have owners := machines.stores.owner? machines.sees name.lexeme
  rw [Eval.assign_run, Eval.assign_run]
  unfold Store.assign Store.resolve
  generalize machine.store.owner? machine.current name.lexeme = owner at owners
  generalize machine'.store.owner? machine'.current name.lexeme = owner' at owners
  cases owners with
  | none => exact stop machines _
  | some pairs => exact defined machines pairs name.lexeme values

theorem printLine (machines : alignment.Machines machine machine') (text : String) :
    alignment.Results (fun _ _ _ => True) machine machine' (Eval.printLine text machine)
      (Eval.printLine text machine') := by
  refine .ok ⟨.refl alignment, .refl _, .refl _, rfl, rfl⟩ { machines with outputs := ?_ } trivial
  dsimp only
  rw [machines.outputs]

theorem close (machines : alignment.Machines machine machine')
    (pairs : alignment.Pairs machine.current machine'.current) (name : Token)
    (parameters : List Token) (body : List Stmt) :
    alignment.Results Values machine machine' (Eval.close name parameters body machine)
      (Eval.close name parameters body machine') := by
  have values : alignment.Values
      (.function ⟨name, parameters, body, machine.current, machine.functions⟩)
      (.function ⟨name, parameters, body, machine'.current, machine'.functions⟩) := by
    rw [← machines.functions]
    exact .function pairs
  have functions : machine.functions + 1 = machine'.functions + 1 := by rw [machines.functions]
  exact .ok ⟨.refl alignment, .refl _, .refl _, rfl, rfl⟩ { machines with functions := functions }
    values

theorem forEach {action action' : α → Eval Value}
    (actions : ∀ item, Agree Values (action item) (action' item))
    (items : List α) (machines : alignment.Machines machine machine') :
    alignment.Results (fun later => List.Forall₂ later.Values) machine machine'
      (Eval.forEach action items machine) (Eval.forEach action' items machine') := by
  induction items generalizing alignment machine machine' with
  | nil => exact pure machines .nil
  | cons item items ih =>
      refine (actions item machines).bind fun _ machines values => ?_
      refine (ih machines).bind fun continues machines others => ?_
      exact pure machines (.cons (continues.grows.values values) others)

/-- Statements are executed alike in scopes that are the same. -/
theorem sequence {execute execute' : Stmt → Eval Flow}
    (executes : ∀ statement, AgreeOn statement (execute statement) (execute' statement))
    (statements : List Stmt) (machines : alignment.Machines machine machine')
    (pairs : alignment.Pairs machine.current machine'.current) :
    alignment.Results Flows machine machine' (Eval.sequence execute statements machine)
      (Eval.sequence execute' statements machine') := by
  induction statements generalizing alignment machine machine' with
  | nil => exact pure machines .next
  | cons statement statements ih =>
      refine (executes statement machines (.inr pairs)).bind fun continues machines flows => ?_
      cases flows with
      | next => exact ih machines (continues.pairs pairs)
      | returned values => exact pure machines (.returned values)

theorem loop {condition condition' : Eval Value} {statement : Stmt} {body body' : Eval Flow}
    (conditions : Agree Values condition condition') (bodies : AgreeOn statement body body')
    (rounds : Nat) (machines : alignment.Machines machine machine')
    (permits : alignment.Permits machine machine' statement) :
    alignment.Results Flows machine machine' (Eval.loop condition body rounds machine)
      (Eval.loop condition' body' rounds machine') := by
  induction rounds generalizing alignment machine machine' with
  | zero => exact stop machines _
  | succ rounds ih =>
      refine (conditions machines).bind fun continues machines values => ?_
      have permits := permits.continues continues
      rw [values.isTruthy]
      split
      · refine (bodies machines permits).bind fun continues machines flows => ?_
        cases flows with
        | next => exact ih machines (permits.continues continues)
        | returned values => exact pure machines (.returned values)
      · exact pure machines .next

end Results

theorem Bindings.callScope {closure : Closure} {scope' : ScopeId}
    {arguments arguments' : List Value}
    (allValues : List.Forall₂ alignment.Values arguments arguments') :
    alignment.Bindings (Eval.callScope closure arguments)
      (Eval.callScope { closure with scope := scope' } arguments') := by
  have defineAll {parameters : List Token} {scope scope' : Scope}
      (bindings : alignment.Bindings scope scope') :
      alignment.Bindings
        ((parameters.zip arguments).foldl
          (fun scope pair => scope.define pair.1.lexeme pair.2) scope)
        ((parameters.zip arguments').foldl
          (fun scope pair => scope.define pair.1.lexeme pair.2) scope') := by
    induction allValues generalizing parameters scope scope' with
    | nil => simpa using bindings
    | cons values _ ih =>
        cases parameters with
        | nil => exact bindings
        | cons parameter parameters =>
            apply ih
            intro name
            rw [Scope.find?_define, Scope.find?_define]
            split
            · exact .some values
            · exact bindings name
  exact defineAll fun _ => .none

theorem Results.call {execute execute' : Stmt → Eval Flow}
    (executes : ∀ statement, AgreeOn statement (execute statement) (execute' statement))
    (machines : alignment.Machines machine machine') (paren : Token) {callee callee' : Value}
    (callees : alignment.Values callee callee') {arguments arguments' : List Value}
    (allValues : List.Forall₂ alignment.Values arguments arguments') :
    alignment.Results Values machine machine' (Eval.call execute paren callee arguments machine)
      (Eval.call execute' paren callee' arguments' machine') := by
  cases callees with
  | constant value => exact stop machines _
  | @function closure scope' pairs =>
      have sees := machines.stores.sees pairs
      have lengths := allValues.length_eq
      by_cases same : arguments.length = closure.arity
      · have same' : arguments'.length = Closure.arity { closure with scope := scope' } :=
          lengths.symm.trans same
        rw [Eval.call_of_eq execute paren same, Eval.call_of_eq execute' paren same']
        refine (inScopes machines (Eval.parent_callScope ..) (Eval.parent_callScope ..) sees
          (.callScope allValues) fun _ => sequence executes closure.body).bind
            fun _ machines flows => ?_
        cases flows with
        | next => exact pure machines (.constant _)
        | returned values => exact pure machines values
      · have differ : arguments'.length ≠ Closure.arity { closure with scope := scope' } :=
          fun equal => same (lengths.trans equal)
        rw [Eval.call_of_ne execute paren same, Eval.call_of_ne execute' paren differ, lengths]
        exact stop machines _

mutual

/-- An expression is evaluated alike by aligned machines. -/
theorem evaluate (rounds depth : Nat) (expr : Expr) :
    Agree Values (expr.evaluate rounds depth) (expr.evaluate rounds depth) := by
  intro alignment machine machine' machines
  match depth with
  | 0 =>
      rw [Expr.evaluate]
      exact .stop machines _
  | depth + 1 =>
      have inner := evaluate rounds depth
      cases expr with
      | literal value =>
          rw [Expr.evaluate]
          exact .pure machines (.constant value)
      | grouping expr =>
          rw [Expr.evaluate]
          exact inner expr machines
      | unary operator operand =>
          rw [Expr.evaluate]
          refine (inner operand machines).bind fun _ machines values => ?_
          rw [values.applyUnary]
          exact .ofExcept machines fun _ => eq_constant_of_applyUnary
      | binary left operator right =>
          rw [Expr.evaluate]
          refine (inner left machines).bind fun _ machines values => ?_
          refine (inner right machines).bind fun continues machines others => ?_
          rw [(continues.grows.values values).applyBinary others]
          exact .ofExcept machines fun _ => eq_constant_of_applyBinary
      | logical left operator right =>
          rw [Expr.evaluate]
          refine (inner left machines).bind fun _ machines values => ?_
          rw [values.isTruthy]
          split
          · exact .pure machines values
          · exact inner right machines
      | read name =>
          rw [Expr.evaluate]
          exact .lookup machines name
      | assign name value =>
          rw [Expr.evaluate]
          refine (inner value machines).bind fun _ machines values => ?_
          exact (Results.assign machines name values).bind fun continues machines _ =>
            .pure machines (continues.grows.values values)
      | call callee paren arguments =>
          rw [Expr.evaluate]
          refine (inner callee machines).bind fun _ machines callees => ?_
          refine (Results.forEach inner arguments machines).bind
            fun continues machines allValues => ?_
          exact .call (execute rounds depth) machines paren (continues.grows.values callees)
            allValues

/-- A statement is executed alike by aligned machines that may execute it. -/
theorem execute (rounds depth : Nat) (statement : Stmt) :
    AgreeOn statement (statement.execute rounds depth) (statement.execute rounds depth) := by
  intro alignment machine machine' machines permits
  match depth with
  | 0 =>
      rw [Stmt.execute]
      exact .stop machines _
  | depth + 1 =>
      have inner := evaluate rounds depth
      have body := execute rounds depth
      cases statement with
      | expression value =>
          rw [Stmt.execute]
          exact (inner value machines).bind fun _ machines _ => .pure machines .next
      | print value =>
          rw [Stmt.execute]
          refine (inner value machines).bind fun _ machines values => ?_
          rw [values.text]
          exact (Results.printLine machines _).bind fun _ machines _ => .pure machines .next
      | declare name initializer =>
          rcases permits with plain | pairs
          · cases plain
          cases initializer with
          | none =>
              rw [Stmt.execute]
              exact (Results.defined machines pairs name.lexeme (.constant _)).bind
                fun _ machines _ => .pure machines .next
          | some value =>
              rw [Stmt.execute]
              refine (inner value machines).bind fun continues machines values => ?_
              exact (Results.defined machines (continues.pairs pairs) name.lexeme values).bind
                fun _ machines _ => .pure machines .next
      | block statements =>
          rw [Stmt.execute]
          exact .inScopes machines rfl rfl machines.sees (fun _ => .none)
            fun _ => .sequence body statements
      | ifThen condition thenBranch =>
          rw [Stmt.execute]
          refine (inner condition machines).bind fun continues machines values => ?_
          rw [values.isTruthy]
          split
          · exact body thenBranch machines (permits.continues continues).ifThen
          · exact .pure machines .next
      | ifElse condition thenBranch elseBranch =>
          rw [Stmt.execute]
          refine (inner condition machines).bind fun continues machines values => ?_
          rw [values.isTruthy]
          split
          · exact body thenBranch machines (permits.continues continues).ifElse.1
          · exact body elseBranch machines (permits.continues continues).ifElse.2
      | whileDo condition statement =>
          rw [Stmt.execute]
          exact .loop (inner condition) (body statement) rounds machines permits.whileDo
      | function name parameters statements =>
          rcases permits with plain | pairs
          · cases plain
          rw [Stmt.execute]
          refine (Results.close machines pairs name parameters statements).bind
            fun continues machines values => ?_
          exact (Results.defined machines (continues.pairs pairs) name.lexeme values).bind
            fun _ machines _ => .pure machines .next
      | ret keyword result =>
          cases result with
          | none =>
              rw [Stmt.execute]
              exact .pure machines (.returned (.constant _))
          | some value =>
              rw [Stmt.execute]
              exact (inner value machines).bind fun _ machines values =>
                .pure machines (.returned values)

end

end Scriptlet.Alignment
