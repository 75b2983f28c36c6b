import Scriptlet.Proofs.Jobs

/-!
# Where runtime errors arise

A run that ends with an error has done a job in which that error arose: an operation on values that
it is not defined for, a name that is bound nowhere in sight, or a call that is not possible
(`exists_performs_of_interpret`).
-/

namespace Scriptlet

/-- That an error arises in a job itself, and not in one that it starts. -/
inductive Job.Raises (rounds : Nat) : Job → RuntimeError → Prop
  | unary {depth : Nat} {operator : Token} {operand : Expr} {value : Value}
      {machine between : Machine} {error : RuntimeError}
      (operandRan : operand.evaluate rounds depth machine = .ok value between)
      (fails : applyUnary operator value = .error error) :
      Raises rounds ⟨depth + 1, .evaluate (.unary operator operand), machine⟩ error
  | binary {depth : Nat} {left right : Expr} {operator : Token} {first second : Value}
      {machine between after : Machine} {error : RuntimeError}
      (leftRan : left.evaluate rounds depth machine = .ok first between)
      (rightRan : right.evaluate rounds depth between = .ok second after)
      (fails : applyBinary operator first second = .error error) :
      Raises rounds ⟨depth + 1, .evaluate (.binary left operator right), machine⟩ error
  | read {depth : Nat} {name : Token} {machine : Machine} {error : RuntimeError}
      (fails : machine.store.get machine.current name = .error error) :
      Raises rounds ⟨depth + 1, .evaluate (.read name), machine⟩ error
  | assign {depth : Nat} {name : Token} {expr : Expr} {value : Value}
      {machine between : Machine} {error : RuntimeError}
      (valueRan : expr.evaluate rounds depth machine = .ok value between)
      (fails : between.store.assign between.current name value = .error error) :
      Raises rounds ⟨depth + 1, .evaluate (.assign name expr), machine⟩ error
  | notCallable {depth : Nat} {callee : Expr} {paren : Token} {arguments : List Expr}
      {constant : Constant} {machine called : Machine}
      (calleeRan : callee.evaluate rounds depth machine = .ok (.constant constant) called) :
      Raises rounds ⟨depth + 1, .evaluate (.call callee paren arguments), machine⟩
        ⟨.notCallable, paren⟩
  | wrongArity {depth : Nat} {callee : Expr} {paren : Token} {arguments : List Expr}
      {closure : Closure} {machine called : Machine}
      (calleeRan : callee.evaluate rounds depth machine = .ok (.function closure) called)
      (differ : arguments.length ≠ closure.arity) :
      Raises rounds ⟨depth + 1, .evaluate (.call callee paren arguments), machine⟩
        ⟨.wrongArity closure.arity arguments.length, paren⟩

/-- That an error arises in a job or in one that it includes. -/
def Job.Brings (rounds : Nat) (job : Job) (error : RuntimeError) : Prop :=
  ∃ site, job.Includes rounds site ∧ site.Raises rounds error

namespace Eval

variable {α β : Type} {machine after : Machine} {stop : Stop}

/-- Two steps stop early if the first does, or the second after it. -/
theorem bind_eq_error {first : Eval α} {next : α → Eval β}
    (stopped : (first >>= next) machine = .error stop after) :
    first machine = .error stop after ∨
    ∃ value between,
      first machine = .ok value between ∧ next value between = .error stop after := by
  cases firstRan : first machine with
  | ok value between =>
      rw [bind_of_ok firstRan] at stopped
      exact .inr ⟨value, between, rfl, stopped⟩
  | error reason between =>
      rw [bind_of_error firstRan] at stopped
      cases stopped
      exact .inl rfl

theorem ofExcept_eq_error {result : Except RuntimeError α} {error : RuntimeError}
    (stopped : ofExcept result machine = .error (.error error) after) : result = .error error := by
  cases result with
  | ok value => contradiction
  | error error =>
      cases stopped
      rfl

theorem length_of_forEach {action : α → Eval β} {items : List α} {results : List β}
    (ran : forEach action items machine = .ok results after) : results.length = items.length := by
  induction items generalizing machine results with
  | nil =>
      cases ran
      rfl
  | cons item items ih =>
      rcases bind_eq_ok ran with ⟨result, between, _, restRan⟩
      rcases bind_eq_ok restRan with ⟨rest, last, laterRan, isResult⟩
      cases isResult
      simp [ih laterRan]

theorem forEach_eq_error {action : α → Eval β} {items : List α}
    (stopped : forEach action items machine = .error stop after) :
    ∃ before item rest results between, items = before ++ item :: rest ∧
      forEach action before machine = .ok results between ∧
      action item between = .error stop after := by
  induction items generalizing machine with
  | nil => contradiction
  | cons item items ih =>
      rcases bind_eq_error stopped with itemStopped | ⟨result, between, itemRan, laterStopped⟩
      · exact ⟨[], item, items, [], machine, rfl, rfl, itemStopped⟩
      · rcases bind_eq_error laterStopped with restStopped | ⟨_, _, _, impossible⟩
        · rcases ih restStopped with ⟨before, site, rest, results, last, rfl, ran, siteStopped⟩
          refine ⟨item :: before, site, rest, result :: results, last, rfl, ?_, siteStopped⟩
          exact (bind_of_ok itemRan).trans (bind_of_ok ran)
        · contradiction

theorem sequence_eq_error {execute : Stmt → Eval Flow} {statements : List Stmt}
    (stopped : sequence execute statements machine = .error stop after) :
    ∃ before statement rest between, statements = before ++ statement :: rest ∧
      sequence execute before machine = .ok .next between ∧
      execute statement between = .error stop after := by
  induction statements generalizing machine with
  | nil => contradiction
  | cons statement statements ih =>
      rcases bind_eq_error stopped with firstStopped | ⟨flow, between, firstRan, laterStopped⟩
      · exact ⟨[], statement, statements, machine, rfl, rfl, firstStopped⟩
      · cases flow with
        | returned value => contradiction
        | next =>
            rcases ih laterStopped with ⟨before, site, rest, last, rfl, ran, siteStopped⟩
            refine ⟨statement :: before, site, rest, last, rfl, ?_, siteStopped⟩
            exact (bind_of_ok firstRan).trans ran

/-- A loop stops early in one of its rounds, or because there are too many of them. -/
theorem loop_eq_error {condition : Eval Value} {body : Eval Flow} {rounds : Nat}
    (stopped : loop condition body rounds machine = .error stop after) :
    stop = .unfinished ∨
    ∃ count between, count < rounds ∧ Repeats condition body count machine between ∧
      (condition between = .error stop after ∨
        ∃ value tested, condition between = .ok value tested ∧ value.isTruthy = true ∧
          body tested = .error stop after) := by
  induction rounds generalizing machine with
  | zero =>
      cases stopped
      exact .inl rfl
  | succ rounds ih =>
      rcases bind_eq_error stopped with testStopped | ⟨value, tested, tests, laterStopped⟩
      · exact .inr ⟨0, machine, Nat.succ_pos _, .start machine, .inl testStopped⟩
      · split at laterStopped
        · rename_i isTruthy
          rcases bind_eq_error laterStopped with bodyStopped | ⟨flow, between, runs, restStopped⟩
          · exact .inr ⟨0, machine, Nat.succ_pos _, .start machine,
              .inr ⟨value, tested, tests, isTruthy, bodyStopped⟩⟩
          · cases flow with
            | returned value => contradiction
            | next =>
                rcases ih restStopped with tooMany | ⟨count, last, within, repeats, site⟩
                · exact .inl tooMany
                · exact .inr ⟨count + 1, last, Nat.succ_lt_succ within,
                    .again tests isTruthy runs repeats, site⟩
        · contradiction

/-- What is run in a new scope stops early where its action does. -/
theorem inScope_eq_error {scope : Scope} {action : Eval α}
    (stopped : (create scope >>= fun id => within id action) machine = .error stop after) :
    ∃ inner, action (machine.enter scope) = .error stop inner := by
  rw [inScope_apply] at stopped
  cases ran : action (machine.enter scope) with
  | ok value inner =>
      rw [ran] at stopped
      contradiction
  | error reason inner =>
      rw [ran] at stopped
      cases stopped
      exact ⟨inner, rfl⟩

end Eval

namespace Job

variable {rounds : Nat} {error : RuntimeError}

theorem Raises.brings {job : Job} (raises : job.Raises rounds error) : job.Brings rounds error :=
  ⟨job, .refl, raises⟩

theorem Starts.brings {job next : Job} (starts : job.Starts rounds next)
    (brings : next.Brings rounds error) : job.Brings rounds error := by
  rcases brings with ⟨site, includes, raises⟩
  exact ⟨site, .head starts includes, raises⟩

theorem brings_of_call {depth : Nat} {callee : Expr} {paren : Token} {arguments : List Expr}
    {value : Value} {values : List Value} {machine called ready after : Machine}
    (bodyBrings : ∀ {statement machine after},
      Stmt.execute rounds depth statement machine = .error (.error error) after →
      Job.Brings rounds ⟨depth, .execute statement, machine⟩ error)
    (calleeRan : callee.evaluate rounds depth machine = .ok value called)
    (argumentsRan : Eval.forEach (Expr.evaluate rounds depth) arguments called = .ok values ready)
    (stopped : Eval.call (Stmt.execute rounds depth) paren value values ready =
      .error (.error error) after) :
    Job.Brings rounds ⟨depth + 1, .evaluate (.call callee paren arguments), machine⟩ error := by
  have sameLength := Eval.length_of_forEach argumentsRan
  cases value with
  | constant constant =>
      cases stopped
      exact (Raises.notCallable calleeRan).brings
  | function closure =>
      by_cases same : values.length = closure.arity
      · rw [Eval.call_of_eq _ _ same] at stopped
        rcases Eval.bind_eq_error stopped with failed | ⟨_, _, _, impossible⟩
        · rcases Eval.inScope_eq_error failed with ⟨inner, bodyFailed⟩
          rcases Eval.sequence_eq_error bodyFailed with
              ⟨before, statement, rest, between, isBody, beforeRan, failed⟩
          exact (Starts.body calleeRan argumentsRan same isBody beforeRan).brings
            (bodyBrings failed)
        · cases impossible
      · rw [Eval.call_of_ne _ _ same] at stopped
        cases stopped
        rw [sameLength] at same ⊢
        exact (Raises.wrongArity calleeRan same).brings

mutual

/-- An error with which an evaluation ends arose in it. -/
theorem brings_of_evaluate {depth : Nat} {expr : Expr} {machine after : Machine}
    (stopped : expr.evaluate rounds depth machine = .error (.error error) after) :
    Job.Brings rounds ⟨depth, .evaluate expr, machine⟩ error := by
  match depth with
  | 0 =>
      rw [Expr.evaluate] at stopped
      cases stopped
  | depth + 1 =>
      cases expr with
      | literal value =>
          rw [Expr.evaluate] at stopped
          cases stopped
      | grouping inner =>
          rw [Expr.evaluate] at stopped
          exact Starts.grouping.brings (brings_of_evaluate stopped)
      | unary operator operand =>
          rw [Expr.evaluate] at stopped
          rcases Eval.bind_eq_error stopped with failed | ⟨value, between, operandRan, failed⟩
          · exact Starts.operand.brings (brings_of_evaluate failed)
          · exact (Raises.unary operandRan (Eval.ofExcept_eq_error failed)).brings
      | binary left operator right =>
          rw [Expr.evaluate] at stopped
          rcases Eval.bind_eq_error stopped with failed | ⟨first, between, leftRan, later⟩
          · exact Starts.left.brings (brings_of_evaluate failed)
          · rcases Eval.bind_eq_error later with failed | ⟨second, last, rightRan, failed⟩
            · exact (Starts.right leftRan).brings (brings_of_evaluate failed)
            · exact (Raises.binary leftRan rightRan (Eval.ofExcept_eq_error failed)).brings
      | logical left operator right =>
          rw [Expr.evaluate] at stopped
          rcases Eval.bind_eq_error stopped with failed | ⟨first, between, leftRan, later⟩
          · exact Starts.first.brings (brings_of_evaluate failed)
          · split at later
            · contradiction
            · rename_i unsettled
              exact (Starts.second leftRan unsettled).brings (brings_of_evaluate later)
      | read name =>
          rw [Expr.evaluate] at stopped
          exact (Raises.read (Eval.ofExcept_eq_error stopped)).brings
      | assign name value =>
          rw [Expr.evaluate] at stopped
          rcases Eval.bind_eq_error stopped with failed | ⟨value, between, valueRan, later⟩
          · exact Starts.assigned.brings (brings_of_evaluate failed)
          · rcases Eval.bind_eq_error later with failed | ⟨_, _, _, impossible⟩
            · rw [Eval.assign_run] at failed
              split at failed
              · cases failed
              · rename_i fails
                cases failed
                exact (Raises.assign valueRan fails).brings
            · cases impossible
      | call callee paren arguments =>
          rw [Expr.evaluate] at stopped
          rcases Eval.bind_eq_error stopped with failed | ⟨value, called, calleeRan, later⟩
          · exact Starts.callee.brings (brings_of_evaluate failed)
          · rcases Eval.bind_eq_error later with failed | ⟨values, ready, argumentsRan, failed⟩
            · rcases Eval.forEach_eq_error failed with
                  ⟨before, argument, rest, _, between, rfl, beforeRan, failed⟩
              exact (Starts.argument calleeRan beforeRan).brings (brings_of_evaluate failed)
            · exact brings_of_call brings_of_execute calleeRan argumentsRan failed

/-- An error with which an execution ends arose in it. -/
theorem brings_of_execute {depth : Nat} {statement : Stmt} {machine after : Machine}
    (stopped : statement.execute rounds depth machine = .error (.error error) after) :
    Job.Brings rounds ⟨depth, .execute statement, machine⟩ error := by
  match depth with
  | 0 =>
      rw [Stmt.execute] at stopped
      cases stopped
  | depth + 1 =>
      cases statement with
      | expression value =>
          rw [Stmt.execute] at stopped
          rcases Eval.bind_eq_error stopped with failed | ⟨_, _, _, impossible⟩
          · exact Starts.expression.brings (brings_of_evaluate failed)
          · cases impossible
      | print value =>
          rw [Stmt.execute] at stopped
          rcases Eval.bind_eq_error stopped with failed | ⟨_, _, _, impossible⟩
          · exact Starts.printed.brings (brings_of_evaluate failed)
          · cases impossible
      | declare name initializer =>
          cases initializer with
          | none =>
              rw [Stmt.execute] at stopped
              cases stopped
          | some value =>
              rw [Stmt.execute] at stopped
              rcases Eval.bind_eq_error stopped with failed | ⟨_, _, _, impossible⟩
              · exact Starts.initializer.brings (brings_of_evaluate failed)
              · cases impossible
      | block body =>
          rw [Stmt.execute] at stopped
          rcases Eval.inScope_eq_error stopped with ⟨inner, bodyFailed⟩
          rcases Eval.sequence_eq_error bodyFailed with
              ⟨before, statement, rest, between, rfl, beforeRan, failed⟩
          exact (Starts.inBlock beforeRan).brings (brings_of_execute failed)
      | ifThen condition thenBranch =>
          rw [Stmt.execute] at stopped
          rcases Eval.bind_eq_error stopped with failed | ⟨value, between, conditionRan, later⟩
          · exact Starts.ifCondition.brings (brings_of_evaluate failed)
          · split at later
            · rename_i isTruthy
              exact (Starts.ifBranch conditionRan isTruthy).brings (brings_of_execute later)
            · contradiction
      | ifElse condition thenBranch elseBranch =>
          rw [Stmt.execute] at stopped
          rcases Eval.bind_eq_error stopped with failed | ⟨value, between, conditionRan, later⟩
          · exact Starts.ifElseCondition.brings (brings_of_evaluate failed)
          · refine (Starts.ifElseBranch conditionRan).brings (brings_of_execute (.trans ?_ later))
            split
            · rfl
            · rfl
      | whileDo condition body =>
          rw [Stmt.execute] at stopped
          rcases Eval.loop_eq_error stopped with tooMany | ⟨count, between, within, repeats, site⟩
          · contradiction
          · rcases site with failed | ⟨value, tested, conditionRan, isTruthy, failed⟩
            · exact (Starts.loopCondition within repeats).brings (brings_of_evaluate failed)
            · exact (Starts.loopBody within repeats conditionRan isTruthy).brings
                (brings_of_execute failed)
      | function name parameters body =>
          rw [Stmt.execute] at stopped
          cases stopped
      | ret keyword result =>
          cases result with
          | none =>
              rw [Stmt.execute] at stopped
              cases stopped
          | some value =>
              rw [Stmt.execute] at stopped
              rcases Eval.bind_eq_error stopped with failed | ⟨_, _, _, impossible⟩
              · exact Starts.returned.brings (brings_of_evaluate failed)
              · cases impossible

end

end Job

/-- An error that a program ends with arose in one of its jobs. -/
theorem exists_performs_of_interpret {limits : Limits} {statements : List Stmt} {scope : ScopeId}
    {machine after : Machine} {error : RuntimeError}
    (ended : interpret limits statements scope machine = .ok (some error) after) :
    ∃ job, Performs limits statements scope machine job ∧ job.Raises limits.rounds error := by
  rw [Eval.interpret_apply, Eval.within_apply] at ended
  cases ran : Eval.sequence (Stmt.execute limits.rounds limits.depth) statements
      { machine with current := scope } with
  | ok flow between =>
      rw [ran] at ended
      cases ended
  | error stop between =>
      rw [ran] at ended
      cases stop with
      | tooDeep => cases ended
      | unfinished => cases ended
      | error reason =>
          cases ended
          rcases Eval.sequence_eq_error ran with
              ⟨before, statement, rest, last, rfl, beforeRan, failed⟩
          rcases Job.brings_of_execute failed with ⟨job, includes, raises⟩
          exact ⟨job, ⟨before, statement, rest, last, rfl, beforeRan, includes⟩, raises⟩

end Scriptlet
