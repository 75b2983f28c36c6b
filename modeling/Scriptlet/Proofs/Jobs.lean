import Mathlib.Logic.Relation
import Scriptlet.Proofs.Invariant

/-!
# Jobs

A run is made of jobs: expressions that are evaluated and statements that are executed, each with
the machine it finds. `Job.Starts` lists the jobs that a job starts by itself, one rule for each
place in the rules of evaluation, and `Performs` the jobs that are done when a program is run. They
make it possible to speak of what happens in the middle of a run. An invariant that holds when a
program starts holds at the start of each of its jobs (`Performs.sound`).
-/

namespace Scriptlet

inductive Task where
  | evaluate (expr : Expr)
  | execute (statement : Stmt)

/-- Something that is done in a run, nested to the given depth at most. -/
structure Job where
  depth : Nat
  task : Task
  /-- The machine that the job starts with. -/
  machine : Machine

/-- That a loop which starts with one machine begins another round, the given one, with another. -/
inductive Eval.Repeats (condition : Eval Value) (body : Eval Flow) :
    Nat → Machine → Machine → Prop
  | start (machine : Machine) : Repeats condition body 0 machine machine
  | again {count : Nat} {machine tested between after : Machine} {value : Value}
      (tests : condition machine = .ok value tested) (isTruthy : value.isTruthy = true)
      (runs : body tested = .ok .next between)
      (later : Repeats condition body count between after) :
      Repeats condition body (count + 1) machine after

/-- That a job starts another one by itself. -/
inductive Job.Starts (rounds : Nat) : Job → Job → Prop
  | grouping {depth : Nat} {inner : Expr} {machine : Machine} :
      Starts rounds ⟨depth + 1, .evaluate (.grouping inner), machine⟩
        ⟨depth, .evaluate inner, machine⟩
  | operand {depth : Nat} {operator : Token} {operand : Expr} {machine : Machine} :
      Starts rounds ⟨depth + 1, .evaluate (.unary operator operand), machine⟩
        ⟨depth, .evaluate operand, machine⟩
  | left {depth : Nat} {left right : Expr} {operator : Token} {machine : Machine} :
      Starts rounds ⟨depth + 1, .evaluate (.binary left operator right), machine⟩
        ⟨depth, .evaluate left, machine⟩
  | right {depth : Nat} {left right : Expr} {operator : Token} {value : Value}
      {machine between : Machine}
      (leftRan : left.evaluate rounds depth machine = .ok value between) :
      Starts rounds ⟨depth + 1, .evaluate (.binary left operator right), machine⟩
        ⟨depth, .evaluate right, between⟩
  | first {depth : Nat} {left right : Expr} {operator : Token} {machine : Machine} :
      Starts rounds ⟨depth + 1, .evaluate (.logical left operator right), machine⟩
        ⟨depth, .evaluate left, machine⟩
  | second {depth : Nat} {left right : Expr} {operator : Token} {value : Value}
      {machine between : Machine} (leftRan : left.evaluate rounds depth machine = .ok value between)
      (unsettled : value.isTruthy ≠ decide (operator.kind = .kwOr)) :
      Starts rounds ⟨depth + 1, .evaluate (.logical left operator right), machine⟩
        ⟨depth, .evaluate right, between⟩
  | assigned {depth : Nat} {name : Token} {value : Expr} {machine : Machine} :
      Starts rounds ⟨depth + 1, .evaluate (.assign name value), machine⟩
        ⟨depth, .evaluate value, machine⟩
  | callee {depth : Nat} {callee : Expr} {paren : Token} {arguments : List Expr}
      {machine : Machine} :
      Starts rounds ⟨depth + 1, .evaluate (.call callee paren arguments), machine⟩
        ⟨depth, .evaluate callee, machine⟩
  | argument {depth : Nat} {callee argument : Expr} {paren : Token} {before after : List Expr}
      {value : Value} {values : List Value} {machine called between : Machine}
      (calleeRan : callee.evaluate rounds depth machine = .ok value called)
      (beforeRan : Eval.forEach (Expr.evaluate rounds depth) before called = .ok values between) :
      Starts rounds
        ⟨depth + 1, .evaluate (.call callee paren (before ++ argument :: after)), machine⟩
        ⟨depth, .evaluate argument, between⟩
  | body {depth : Nat} {callee : Expr} {paren : Token} {arguments : List Expr} {closure : Closure}
      {values : List Value} {before after : List Stmt} {statement : Stmt}
      {machine called ready between : Machine}
      (calleeRan : callee.evaluate rounds depth machine = .ok (.function closure) called)
      (argumentsRan : Eval.forEach (Expr.evaluate rounds depth) arguments called = .ok values ready)
      (fits : values.length = closure.arity)
      (isBody : closure.body = before ++ statement :: after)
      (beforeRan : Eval.sequence (Stmt.execute rounds depth) before
        (ready.enter (Eval.callScope closure values)) = .ok .next between) :
      Starts rounds ⟨depth + 1, .evaluate (.call callee paren arguments), machine⟩
        ⟨depth, .execute statement, between⟩
  | expression {depth : Nat} {value : Expr} {machine : Machine} :
      Starts rounds ⟨depth + 1, .execute (.expression value), machine⟩
        ⟨depth, .evaluate value, machine⟩
  | printed {depth : Nat} {value : Expr} {machine : Machine} :
      Starts rounds ⟨depth + 1, .execute (.print value), machine⟩ ⟨depth, .evaluate value, machine⟩
  | initializer {depth : Nat} {name : Token} {value : Expr} {machine : Machine} :
      Starts rounds ⟨depth + 1, .execute (.declare name (some value)), machine⟩
        ⟨depth, .evaluate value, machine⟩
  | returned {depth : Nat} {keyword : Token} {value : Expr} {machine : Machine} :
      Starts rounds ⟨depth + 1, .execute (.ret keyword (some value)), machine⟩
        ⟨depth, .evaluate value, machine⟩
  | inBlock {depth : Nat} {before after : List Stmt} {statement : Stmt} {machine between : Machine}
      (beforeRan : Eval.sequence (Stmt.execute rounds depth) before
        (machine.enter ⟨some machine.current, []⟩) = .ok .next between) :
      Starts rounds ⟨depth + 1, .execute (.block (before ++ statement :: after)), machine⟩
        ⟨depth, .execute statement, between⟩
  | ifCondition {depth : Nat} {condition : Expr} {thenBranch : Stmt} {machine : Machine} :
      Starts rounds ⟨depth + 1, .execute (.ifThen condition thenBranch), machine⟩
        ⟨depth, .evaluate condition, machine⟩
  | ifBranch {depth : Nat} {condition : Expr} {thenBranch : Stmt} {value : Value}
      {machine between : Machine}
      (conditionRan : condition.evaluate rounds depth machine = .ok value between)
      (isTruthy : value.isTruthy = true) :
      Starts rounds ⟨depth + 1, .execute (.ifThen condition thenBranch), machine⟩
        ⟨depth, .execute thenBranch, between⟩
  | ifElseCondition {depth : Nat} {condition : Expr} {thenBranch elseBranch : Stmt}
      {machine : Machine} :
      Starts rounds ⟨depth + 1, .execute (.ifElse condition thenBranch elseBranch), machine⟩
        ⟨depth, .evaluate condition, machine⟩
  | ifElseBranch {depth : Nat} {condition : Expr} {thenBranch elseBranch : Stmt} {value : Value}
      {machine between : Machine}
      (conditionRan : condition.evaluate rounds depth machine = .ok value between) :
      Starts rounds ⟨depth + 1, .execute (.ifElse condition thenBranch elseBranch), machine⟩
        ⟨depth, .execute (if value.isTruthy then thenBranch else elseBranch), between⟩
  | loopCondition {depth count : Nat} {condition : Expr} {body : Stmt} {machine between : Machine}
      (within : count < rounds)
      (repeats : Eval.Repeats (condition.evaluate rounds depth) (body.execute rounds depth) count
        machine between) :
      Starts rounds ⟨depth + 1, .execute (.whileDo condition body), machine⟩
        ⟨depth, .evaluate condition, between⟩
  | loopBody {depth count : Nat} {condition : Expr} {body : Stmt} {value : Value}
      {machine between tested : Machine} (within : count < rounds)
      (repeats : Eval.Repeats (condition.evaluate rounds depth) (body.execute rounds depth) count
        machine between)
      (conditionRan : condition.evaluate rounds depth between = .ok value tested)
      (isTruthy : value.isTruthy = true) :
      Starts rounds ⟨depth + 1, .execute (.whileDo condition body), machine⟩
        ⟨depth, .execute body, tested⟩

/-- That a job includes another one, or is it. -/
def Job.Includes (rounds : Nat) : Job → Job → Prop :=
  Relation.ReflTransGen (Job.Starts rounds)

/-- That a job is done when statements are run in a scope. -/
def Performs (limits : Limits) (statements : List Stmt) (scope : ScopeId) (machine : Machine)
    (job : Job) : Prop :=
  ∃ before statement after between, statements = before ++ statement :: after ∧
    Eval.sequence (Stmt.execute limits.rounds limits.depth) before
      { machine with current := scope } = .ok .next between ∧
    Job.Includes limits.rounds ⟨limits.depth, .execute statement, between⟩ job

/-- The value that a job gives, if it gives one, and the machine that it leaves. -/
def Job.result (rounds : Nat) (job : Job) : Option Value × Machine :=
  match job.task with
  | .evaluate expr =>
    match expr.evaluate rounds job.depth job.machine with
    | .ok value after => (some value, after)
    | .error _ after => (none, after)
  | .execute statement =>
    match statement.execute rounds job.depth job.machine with
    | .ok (.returned value) after => (some value, after)
    | .ok .next after => (none, after)
    | .error _ after => (none, after)

/-- That the machine of a job satisfies an invariant, and its code has the tokens it may have. -/
structure Job.Sound (invariant : Invariant) (job : Job) : Prop where
  holds : invariant.Holds job.machine
  fits : match job.task with
    | .evaluate expr => expr.Fits invariant.Allows
    | .execute statement => statement.Fits invariant.Allows

namespace Invariant

variable {invariant : Invariant} {rounds depth : Nat} {machine : Machine}

theorem holds_of_evaluate {expr : Expr} (fits : expr.Fits invariant.Allows)
    (holds : invariant.Holds machine) {value : Value} {after : Machine}
    (ran : expr.evaluate rounds depth machine = .ok value after) : invariant.Holds after :=
  ((invariant.evaluate rounds depth fits machine holds).of_ok ran).1

theorem holds_of_arguments {arguments : List Expr}
    (allFit : ∀ argument ∈ arguments, argument.Fits invariant.Allows)
    (holds : invariant.Holds machine) {values : List Value} {after : Machine}
    (ran : Eval.forEach (Expr.evaluate rounds depth) arguments machine = .ok values after) :
    invariant.Holds after ∧ invariant.Grows machine after ∧
      ∀ value ∈ values, invariant.Valid after value := by
  have ends := Ends.forEach arguments
    (fun argument member => invariant.evaluate rounds depth (allFit argument member)) machine holds
  exact ends.of_ok ran

theorem holds_of_execute {statement : Stmt} (fits : statement.Fits invariant.Allows)
    (holds : invariant.Holds machine) {flow : Flow} {after : Machine}
    (ran : statement.execute rounds depth machine = .ok flow after) : invariant.Holds after :=
  ((invariant.execute rounds depth fits machine holds).of_ok ran).1

theorem holds_of_sequence {statements : List Stmt}
    (allFit : ∀ statement ∈ statements, statement.Fits invariant.Allows)
    (holds : invariant.Holds machine) {flow : Flow} {after : Machine}
    (ran : Eval.sequence (Stmt.execute rounds depth) statements machine = .ok flow after) :
    invariant.Holds after := by
  have ends := Ends.sequenceOf
    (fun statement member => invariant.execute rounds depth (allFit statement member)) machine holds
  exact (ends.of_ok ran).1

theorem holds_of_repeats {condition : Expr} (conditionFits : condition.Fits invariant.Allows)
    {body : Stmt} (bodyFits : body.Fits invariant.Allows) {count : Nat} {after : Machine}
    (holds : invariant.Holds machine)
    (repeats : Eval.Repeats (condition.evaluate rounds depth) (body.execute rounds depth) count
      machine after) : invariant.Holds after := by
  induction repeats with
  | start machine => exact holds
  | again tests _ runs _ ih =>
      apply ih
      apply holds_of_execute bodyFits _ runs
      exact holds_of_evaluate conditionFits holds tests

end Invariant

namespace Job

variable {invariant : Invariant} {rounds : Nat}

/-- One of several statements is executed after those before it. -/
theorem Sound.of_sequence {depth : Nat} {before after : List Stmt} {statement : Stmt}
    {machine between : Machine} {flow : Flow} (holds : invariant.Holds machine)
    (allFit : ∀ other ∈ before ++ statement :: after, other.Fits invariant.Allows)
    (beforeRan : Eval.sequence (Stmt.execute rounds depth) before machine = .ok flow between) :
    Sound invariant ⟨depth, .execute statement, between⟩ := by
  rw [List.forall_mem_append, List.forall_mem_cons] at allFit
  rcases allFit with ⟨beforeFit, fits, _⟩
  exact ⟨Invariant.holds_of_sequence beforeFit holds beforeRan, fits⟩

/-- What a job starts is as sound as the job itself. -/
theorem Sound.starts {job next : Job} (sound : job.Sound invariant)
    (starts : job.Starts rounds next) : next.Sound invariant := by
  rcases sound with ⟨holds, fits⟩
  cases starts with
  | grouping =>
      cases fits with
      | grouping innerFits => exact ⟨holds, innerFits⟩
  | operand =>
      cases fits with
      | unary _ operandFits => exact ⟨holds, operandFits⟩
  | left =>
      cases fits with
      | binary leftFits _ _ => exact ⟨holds, leftFits⟩
  | right leftRan =>
      cases fits with
      | binary leftFits _ rightFits =>
          exact ⟨Invariant.holds_of_evaluate leftFits holds leftRan, rightFits⟩
  | first =>
      cases fits with
      | logical leftFits _ _ => exact ⟨holds, leftFits⟩
  | second leftRan _ =>
      cases fits with
      | logical leftFits _ rightFits =>
          exact ⟨Invariant.holds_of_evaluate leftFits holds leftRan, rightFits⟩
  | assigned =>
      cases fits with
      | assign _ valueFits => exact ⟨holds, valueFits⟩
  | callee =>
      cases fits with
      | call calleeFits _ _ => exact ⟨holds, calleeFits⟩
  | argument calleeRan beforeRan =>
      cases fits with
      | call calleeFits _ argumentsFit =>
          have called := Invariant.holds_of_evaluate calleeFits holds calleeRan
          have beforeFits := fun argument member =>
            argumentsFit argument (List.mem_append_left _ member)
          exact ⟨(Invariant.holds_of_arguments beforeFits called beforeRan).1,
            argumentsFit _ (by simp)⟩
  | body calleeRan argumentsRan _ isBody beforeRan =>
      cases fits with
      | call calleeFits _ argumentsFit =>
          rcases (invariant.evaluate _ _ calleeFits _ holds).of_ok calleeRan with
              ⟨called, _, validCallee⟩
          rcases Invariant.holds_of_arguments argumentsFit called argumentsRan with
              ⟨ready, grows, validArguments⟩
          -- The function is still valid after its arguments were evaluated.
          have stillValid := invariant.mono grows validCallee
          have bodyFits := invariant.code stillValid
          rw [isBody] at bodyFits
          have entered := invariant.enter ready (.call stillValid validArguments)
          exact .of_sequence entered bodyFits beforeRan
  | expression =>
      cases fits with
      | expression valueFits => exact ⟨holds, valueFits⟩
  | printed =>
      cases fits with
      | print valueFits => exact ⟨holds, valueFits⟩
  | initializer =>
      cases fits with
      | declare _ initializerFits => exact ⟨holds, initializerFits _ rfl⟩
  | returned =>
      cases fits with
      | ret _ resultFits => exact ⟨holds, resultFits _ rfl⟩
  | inBlock beforeRan =>
      cases fits with
      | block bodyFits =>
          have entered := invariant.enter holds .block
          exact .of_sequence entered bodyFits beforeRan
  | ifCondition =>
      cases fits with
      | ifThen conditionFits _ => exact ⟨holds, conditionFits⟩
  | ifBranch conditionRan _ =>
      cases fits with
      | ifThen conditionFits thenFits =>
          exact ⟨Invariant.holds_of_evaluate conditionFits holds conditionRan, thenFits⟩
  | ifElseCondition =>
      cases fits with
      | ifElse conditionFits _ _ => exact ⟨holds, conditionFits⟩
  | ifElseBranch conditionRan =>
      cases fits with
      | ifElse conditionFits thenFits elseFits =>
          refine ⟨Invariant.holds_of_evaluate conditionFits holds conditionRan, ?_⟩
          dsimp only
          split
          · exact thenFits
          · exact elseFits
  | loopCondition _ repeats =>
      cases fits with
      | whileDo conditionFits bodyFits =>
          exact ⟨Invariant.holds_of_repeats conditionFits bodyFits holds repeats, conditionFits⟩
  | loopBody _ repeats conditionRan _ =>
      cases fits with
      | whileDo conditionFits bodyFits =>
          have begun := Invariant.holds_of_repeats conditionFits bodyFits holds repeats
          exact ⟨Invariant.holds_of_evaluate conditionFits begun conditionRan, bodyFits⟩

theorem Sound.includes {job other : Job} (sound : job.Sound invariant)
    (includes : job.Includes rounds other) : other.Sound invariant := by
  induction includes with
  | refl => exact sound
  | tail _ starts ih => exact ih.starts starts

end Job

/-- An invariant that holds when a program starts holds at the start of each of its jobs. -/
theorem Performs.sound {invariant : Invariant} {limits : Limits} {statements : List Stmt}
    {scope : ScopeId} {machine : Machine} {job : Job}
    (performs : Performs limits statements scope machine job)
    (holds : invariant.Holds { machine with current := scope })
    (allFit : ∀ statement ∈ statements, statement.Fits invariant.Allows) :
    job.Sound invariant := by
  rcases performs with ⟨before, statement, after, between, rfl, beforeRan, includes⟩
  have begun := Job.Sound.of_sequence holds allFit beforeRan
  exact begun.includes includes

end Scriptlet
