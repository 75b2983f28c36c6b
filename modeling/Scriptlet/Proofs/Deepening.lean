import Scriptlet.Proofs.Printing

/-!
# Deeper runs

A step that is not stopped because it nests too deeply comes to the same if it may nest deeper
(`Expr.evaluate_deepens`, `Stmt.execute_deepens`). A step that is stopped has by then printed a
beginning of what it prints if it may nest deeper: steps only add to the printed text, so this
follows a step from its parts (`Prolongs`).
-/

namespace Scriptlet

namespace Eval

variable {α β : Type}

/-- That a step comes to the same as another one, unless that one nests too deeply. -/
def Deepens (deeper shallow : Eval α) : Prop :=
  ∀ machine, (∃ after, shallow machine = .error .tooDeep after) ∨ deeper machine = shallow machine

namespace Deepens

theorem refl (action : Eval α) : Deepens action action :=
  fun _ => .inr rfl

theorem trans {first second third : Eval α} (firsts : Deepens first second)
    (seconds : Deepens second third) : Deepens first third := by
  intro machine
  rcases seconds machine with stopped | same
  · exact .inl stopped
  · rcases firsts machine with ⟨after, stopped⟩ | same'
    · exact .inl ⟨after, same.symm.trans stopped⟩
    · exact .inr (same'.trans same)

theorem tooDeep (action : Eval α) : Deepens action (throw .tooDeep) :=
  fun machine => .inl ⟨machine, rfl⟩

theorem bind {first first' : Eval α} {rest rest' : α → Eval β} (firsts : Deepens first first')
    (rests : ∀ value, Deepens (rest value) (rest' value)) :
    Deepens (first >>= rest) (first' >>= rest') := by
  intro machine
  rcases firsts machine with ⟨after, stopped⟩ | same
  · exact .inl ⟨after, bind_of_error stopped⟩
  · cases ran : first' machine with
    | error stop between =>
        rw [bind_of_error (same.trans ran), bind_of_error ran]
        exact .inr rfl
    | ok value between =>
        rw [bind_of_ok (same.trans ran), bind_of_ok ran]
        exact rests value between

theorem within (scope : ScopeId) {action action' : Eval α} (actions : Deepens action action') :
    Deepens (Eval.within scope action) (Eval.within scope action') := by
  intro machine
  rw [within_apply, within_apply]
  rcases actions { machine with current := scope } with ⟨after, stopped⟩ | same
  · rw [stopped]
    exact .inl ⟨_, rfl⟩
  · rw [same]
    exact .inr rfl

theorem loop {condition condition' : Eval Value} {body body' : Eval Flow}
    (conditions : Deepens condition condition') (bodies : Deepens body body') (rounds : Nat) :
    Deepens (Eval.loop condition body rounds) (Eval.loop condition' body' rounds) := by
  induction rounds with
  | zero => exact refl _
  | succ rounds ih =>
      refine conditions.bind fun value => ?_
      split
      · refine bodies.bind fun flow => ?_
        cases flow with
        | next => exact ih
        | returned value => exact refl _
      · exact refl _

end Deepens

/-- That a step adds to the printed text at most. -/
def Appends (action : Eval α) : Prop :=
  ∀ machine : Machine, machine.Prints (final (action machine))

@[simp]
theorem output_returnTo (outer : ScopeId) (result : EStateM.Result Stop Machine α) :
    (final (returnTo outer result)).output = (final result).output := by
  cases result <;> rfl

/-- What a step has printed is still there after steps that only add to it. -/
theorem prints_bind {earlier machine : Machine} {first : Eval α} {rest : α → Eval β}
    (prints : earlier.Prints (final (first machine))) (appends : ∀ value, Appends (rest value)) :
    earlier.Prints (final ((first >>= rest) machine)) := by
  cases ran : first machine with
  | ok value between =>
      rw [ran] at prints
      rw [bind_of_ok ran]
      exact prints.trans (appends value between)
  | error stop between =>
      rw [ran] at prints
      rwa [bind_of_error ran]

namespace Appends

theorem of_eq {action : Eval α}
    (same : ∀ machine, (final (action machine)).output = machine.output) : Appends action :=
  fun machine => .of_eq (same machine)

theorem pure (value : α) : Appends (Pure.pure value) :=
  of_eq fun _ => rfl

theorem stop (reason : Stop) : Appends (throw reason : Eval α) :=
  of_eq fun _ => rfl

theorem bind {first : Eval α} {rest : α → Eval β} (firstAppends : Appends first)
    (restAppends : ∀ value, Appends (rest value)) : Appends (first >>= rest) :=
  fun machine => prints_bind (firstAppends machine) restAppends

theorem ofExcept (result : Except RuntimeError α) : Appends (Eval.ofExcept result) := by
  cases result with
  | ok value => exact pure value
  | error error => exact stop _

theorem lookup (name : Token) : Appends (Eval.lookup name) :=
  (of_eq fun _ => rfl : Appends get).bind fun _ => ofExcept _

theorem assign (name : Token) (value : Value) : Appends (Eval.assign name value) := by
  apply of_eq
  intro machine
  rw [assign_run]
  split <;> rfl

theorem define (name : Token) (value : Value) : Appends (Eval.define name value) :=
  of_eq fun _ => rfl

theorem printLine (text : String) : Appends (Eval.printLine text) :=
  fun _ => ⟨text ++ "\n", String.append_assoc⟩

theorem within (scope : ScopeId) {action : Eval α} (appends : Appends action) :
    Appends (Eval.within scope action) := by
  intro machine
  have prints := appends { machine with current := scope }
  simpa [within_apply, Machine.Prints] using prints

end Appends

/--
That a step comes to the same as another one, unless that one nests too deeply, and that it has
printed all that the other one had printed when it was stopped.
-/
structure Prolongs (deeper shallow : Eval α) : Prop where
  deepens : Deepens deeper shallow
  appends : Appends deeper
  begins : ∀ {machine stopped}, shallow machine = .error .tooDeep stopped →
    stopped.Prints (final (deeper machine))

namespace Prolongs

theorem refl {action : Eval α} (appends : Appends action) : Prolongs action action where
  deepens := .refl action
  appends := appends
  begins isStopped := by
    rw [isStopped]
    exact .of_eq rfl

theorem tooDeep {action : Eval α} (appends : Appends action) :
    Prolongs action (throw .tooDeep) where
  deepens := .tooDeep action
  appends := appends
  begins {machine _} isStopped := by
    cases isStopped
    exact appends machine

theorem bind {first first' : Eval α} {rest rest' : α → Eval β} (firsts : Prolongs first first')
    (rests : ∀ value, Prolongs (rest value) (rest' value)) :
    Prolongs (first >>= rest) (first' >>= rest') where
  deepens := firsts.deepens.bind fun value => (rests value).deepens
  appends := firsts.appends.bind fun value => (rests value).appends
  begins {machine stopped} isStopped := by
    rcases firsts.deepens machine with ⟨between, early⟩ | same
    · rw [bind_of_error early] at isStopped
      cases isStopped
      exact prints_bind (firsts.begins early) fun value => (rests value).appends
    · cases ran : first' machine with
      | ok value between =>
          rw [bind_of_ok ran] at isStopped
          rw [bind_of_ok (same.trans ran)]
          exact (rests value).begins isStopped
      | error stop between =>
          rw [bind_of_error ran] at isStopped
          cases isStopped
          rw [bind_of_error (same.trans ran)]
          exact .of_eq rfl

theorem within (scope : ScopeId) {action action' : Eval α} (actions : Prolongs action action') :
    Prolongs (Eval.within scope action) (Eval.within scope action') where
  deepens := actions.deepens.within scope
  appends := actions.appends.within scope
  begins {machine stopped} isStopped := by
    rw [within_apply] at isStopped ⊢
    cases ran' : action' { machine with current := scope } with
    | ok value between => simp [ran', returnTo] at isStopped
    | error stop between =>
        rw [ran'] at isStopped
        cases isStopped
        simpa [Machine.Prints] using actions.begins ran'

theorem forEach {action action' : α → Eval β}
    (actions : ∀ item, Prolongs (action item) (action' item)) (items : List α) :
    Prolongs (Eval.forEach action items) (Eval.forEach action' items) := by
  induction items with
  | nil => exact refl (.pure _)
  | cons item items ih => exact (actions item).bind fun _ => ih.bind fun _ => refl (.pure _)

theorem sequence {execute execute' : Stmt → Eval Flow}
    (executes : ∀ statement, Prolongs (execute statement) (execute' statement))
    (statements : List Stmt) :
    Prolongs (Eval.sequence execute statements) (Eval.sequence execute' statements) := by
  induction statements with
  | nil => exact refl (.pure _)
  | cons statement statements ih =>
      refine (executes statement).bind fun flow => ?_
      cases flow with
      | next => exact ih
      | returned value => exact refl (.pure _)

theorem loop {condition condition' : Eval Value} {body body' : Eval Flow}
    (conditions : Prolongs condition condition') (bodies : Prolongs body body') (rounds : Nat) :
    Prolongs (Eval.loop condition body rounds) (Eval.loop condition' body' rounds) := by
  induction rounds with
  | zero => exact refl (.stop _)
  | succ rounds ih =>
      refine conditions.bind fun value => ?_
      split
      · refine bodies.bind fun flow => ?_
        cases flow with
        | next => exact ih
        | returned value => exact refl (.pure _)
      · exact refl (.pure _)

/-- Nothing is printed when a scope is made. -/
theorem inScope (scope : Scope) {action action' : ScopeId → Eval α}
    (actions : ∀ id, Prolongs (action id) (action' id)) :
    Prolongs (Eval.create scope >>= action) (Eval.create scope >>= action') :=
  (refl (.of_eq fun _ => rfl)).bind actions

theorem call {execute execute' : Stmt → Eval Flow}
    (executes : ∀ statement, Prolongs (execute statement) (execute' statement)) (paren : Token)
    (callee : Value) (arguments : List Value) :
    Prolongs (Eval.call execute paren callee arguments)
      (Eval.call execute' paren callee arguments) := by
  cases callee with
  | constant value => exact refl (.stop _)
  | function closure =>
      by_cases same : arguments.length = closure.arity
      · rw [call_of_eq _ _ same, call_of_eq _ _ same]
        apply Prolongs.bind
        · exact inScope _ fun scope => within scope (sequence executes closure.body)
        · exact fun _ => refl (.pure _)
      · rw [call_of_ne _ _ same, call_of_ne _ _ same]
        exact refl (.stop _)

end Prolongs

end Eval

open Eval

mutual

theorem Expr.evaluate_prolongs (rounds : Nat) {depth deeper : Nat} (isDeeper : depth ≤ deeper)
    (expr : Expr) : Prolongs (expr.evaluate rounds deeper) (expr.evaluate rounds depth) := by
  match depth, deeper with
  | 0, deeper =>
      rw [Expr.evaluate]
      exact .tooDeep (expr.evaluate_prints rounds deeper)
  | depth + 1, deeper + 1 =>
      have inner := Expr.evaluate_prolongs rounds (Nat.le_of_succ_le_succ isDeeper)
      cases expr with
      | literal value =>
          rw [Expr.evaluate, Expr.evaluate]
          exact .refl (.pure _)
      | grouping expr =>
          rw [Expr.evaluate, Expr.evaluate]
          exact inner expr
      | unary operator operand =>
          rw [Expr.evaluate, Expr.evaluate]
          exact (inner operand).bind fun _ => .refl (.ofExcept _)
      | binary left operator right =>
          rw [Expr.evaluate, Expr.evaluate]
          exact (inner left).bind fun _ => (inner right).bind fun _ => .refl (.ofExcept _)
      | logical left operator right =>
          rw [Expr.evaluate, Expr.evaluate]
          refine (inner left).bind fun value => ?_
          split
          · exact .refl (.pure _)
          · exact inner right
      | read name =>
          rw [Expr.evaluate, Expr.evaluate]
          exact .refl (.lookup name)
      | assign name value =>
          rw [Expr.evaluate, Expr.evaluate]
          exact (inner value).bind fun _ => .refl ((Appends.assign _ _).bind fun _ => .pure _)
      | call callee paren arguments =>
          rw [Expr.evaluate, Expr.evaluate]
          have body := Stmt.execute_prolongs rounds (Nat.le_of_succ_le_succ isDeeper)
          exact (inner callee).bind fun value =>
            (Prolongs.forEach inner arguments).bind fun values => .call body paren value values

theorem Stmt.execute_prolongs (rounds : Nat) {depth deeper : Nat} (isDeeper : depth ≤ deeper)
    (statement : Stmt) :
    Prolongs (statement.execute rounds deeper) (statement.execute rounds depth) := by
  match depth, deeper with
  | 0, deeper =>
      rw [Stmt.execute]
      exact .tooDeep (statement.execute_prints rounds deeper)
  | depth + 1, deeper + 1 =>
      have inner := Expr.evaluate_prolongs rounds (Nat.le_of_succ_le_succ isDeeper)
      have body := Stmt.execute_prolongs rounds (Nat.le_of_succ_le_succ isDeeper)
      have defined (name : Token) (value : Value) :
          Appends (Eval.define name value >>= fun _ => Pure.pure Flow.next) :=
        (Appends.define name value).bind fun _ => .pure _
      cases statement with
      | expression value =>
          rw [Stmt.execute, Stmt.execute]
          exact (inner value).bind fun _ => .refl (.pure _)
      | print value =>
          rw [Stmt.execute, Stmt.execute]
          exact (inner value).bind fun _ => .refl ((Appends.printLine _).bind fun _ => .pure _)
      | declare name initializer =>
          cases initializer with
          | none =>
              rw [Stmt.execute, Stmt.execute]
              exact .refl (defined _ _)
          | some value =>
              rw [Stmt.execute, Stmt.execute]
              exact (inner value).bind fun _ => .refl (defined _ _)
      | block statements =>
          rw [Stmt.execute, Stmt.execute]
          refine (Prolongs.refl (.of_eq fun _ => rfl)).bind fun machine => ?_
          exact .inScope _ fun scope => .within scope (.sequence body statements)
      | ifThen condition thenBranch =>
          rw [Stmt.execute, Stmt.execute]
          refine (inner condition).bind fun value => ?_
          split
          · exact body thenBranch
          · exact .refl (.pure _)
      | ifElse condition thenBranch elseBranch =>
          rw [Stmt.execute, Stmt.execute]
          refine (inner condition).bind fun value => ?_
          split
          · exact body thenBranch
          · exact body elseBranch
      | whileDo condition statement =>
          rw [Stmt.execute, Stmt.execute]
          exact .loop (inner condition) (body statement) rounds
      | function name parameters statements =>
          rw [Stmt.execute, Stmt.execute]
          exact .refl ((Appends.of_eq fun _ => rfl).bind fun _ => defined _ _)
      | ret keyword result =>
          cases result with
          | none =>
              rw [Stmt.execute, Stmt.execute]
              exact .refl (.pure _)
          | some value =>
              rw [Stmt.execute, Stmt.execute]
              exact (inner value).bind fun _ => .refl (.pure _)

end

theorem Expr.evaluate_deepens (rounds : Nat) {depth deeper : Nat} (isDeeper : depth ≤ deeper)
    (expr : Expr) : Deepens (expr.evaluate rounds deeper) (expr.evaluate rounds depth) :=
  (expr.evaluate_prolongs rounds isDeeper).deepens

theorem Stmt.execute_deepens (rounds : Nat) {depth deeper : Nat} (isDeeper : depth ≤ deeper)
    (statement : Stmt) :
    Deepens (statement.execute rounds deeper) (statement.execute rounds depth) :=
  (statement.execute_prolongs rounds isDeeper).deepens

/-- A program that nests too deeply has printed a beginning of what it prints if it may. -/
theorem interpret_prolongs (rounds : Nat) {depth deeper : Nat} (isDeeper : depth ≤ deeper)
    (statements : List Stmt) (scope : ScopeId) :
    Prolongs (interpret ⟨deeper, rounds⟩ statements scope)
      (interpret ⟨depth, rounds⟩ statements scope) := by
  have executes := (Prolongs.sequence (Stmt.execute_prolongs rounds isDeeper) statements).within
    scope
  constructor
  · intro machine
    rw [interpret_apply, interpret_apply]
    rcases executes.deepens machine with ⟨stopped, isStopped⟩ | same
    · exact .inl ⟨stopped, by rw [isStopped]; rfl⟩
    · exact .inr (by rw [same])
  · intro machine
    rw [interpret_apply, final_conclude]
    exact executes.appends machine
  · intro machine stopped isStopped
    rw [interpret_apply] at isStopped ⊢
    rw [final_conclude]
    apply executes.begins
    unfold conclude at isStopped
    split at isStopped <;> simp_all

end Scriptlet
