import Scriptlet.Proofs.Jobs.Order
import Scriptlet.Proofs.ScopeGraph.Runs

/-!
# Calls in a run

A call finds a function, evaluates the arguments, and runs the body of the function in a scope that
is made for it. Scopes are numbered in the order in which they are made; so of two calls in a run,
the one whose scope has the greater number is the later one. What was there when the body of the
earlier one began is still there when the body of the later one begins
(`Run.Call.entered_becomes`), together with all that has been declared in the meantime
(`Run.Call.binds_of_declares`).
-/

namespace Scriptlet

open Eval

section Declarations

variable {rounds : Nat} {job next : Job} {token : Token} {found : Machine}

/-- A job that declares a name binds it in the scope that is current then. -/
theorem Job.Declares.binds (declares : job.Declares rounds token found)
    (has : found.store.Has found.current) :
    (job.final rounds).store.binds found.current token.lexeme = true := by
  cases declares with
  | bare =>
      rw [final_execute, Stmt.execute]
      exact (Store.binds_define ..).2 (.inr ⟨has, rfl, rfl⟩)
  | initialized ran =>
      rw [final_execute, Stmt.execute, bind_of_ok ran]
      exact (Store.binds_define ..).2 (.inr ⟨has, rfl, rfl⟩)
  | function =>
      rw [final_execute, Stmt.execute]
      exact (Store.binds_define ..).2 (.inr ⟨has, rfl, rfl⟩)

/-- All that a declaration starts is the initializer, and the name is declared after it. -/
theorem Job.Declares.final_of_starts (declares : job.Declares rounds token found)
    (starts : job.Starts rounds next) : next.final rounds = found := by
  cases declares with
  | bare => cases starts
  | initialized ran =>
      cases starts
      rw [final_evaluate, ran]
      rfl
  | function => cases starts

theorem Job.Declares.becomes {gains : ScopeId → String → Nat → Prop}
    (declares : job.Declares rounds token found) (listed : job.Listed rounds gains) :
    job.machine.Becomes gains found := by
  cases declares with
  | bare => exact .refl _
  | initialized ran =>
      have becomes := (listed.of_starts .initializer).becomes
      rw [final_evaluate, ran] at becomes
      exact becomes
  | function => exact .refl _

theorem Job.Declares.wellFormed {start : Store} (declares : job.Declares rounds token found)
    (sound : job.Sound (.scopes start)) : found.WellFormed := by
  rcases sound with ⟨holds, fits⟩
  cases declares with
  | bare => exact holds.1
  | initialized ran =>
      cases fits with
      | declare _ initializerFits =>
          exact (Invariant.holds_of_evaluate (initializerFits _ rfl) holds ran).1
  | function => exact holds.1

end Declarations

/-- Statements that are run in a scope, on a machine that one can come to. -/
structure Run where
  limits : Limits
  statements : List Stmt
  scope : ScopeId
  machine : Machine
  reachable : machine.Reachable
  has : machine.store.Has scope

namespace Run

variable {run : Run}

/-- That a job is done in a run. -/
def Does (run : Run) (job : Job) : Prop :=
  Performs run.limits run.statements run.scope run.machine job

/--
That a name is declared in a scope in the course of a run, at a time when there are `count` scopes.
-/
def Declares (run : Run) (id : ScopeId) (name : String) (count : Nat) : Prop :=
  ∃ job token found, run.Does job ∧ job.Declares run.limits.rounds token found ∧
    found.current = id ∧ token.lexeme = name ∧ found.store.scopes.size = count

/-- A call of a function in a run. -/
structure Call (run : Run) where
  depth : Nat
  callee : Expr
  paren : Token
  arguments : List Expr
  closure : Closure
  values : List Value
  machine : Machine
  /-- The machine when the function has been found. -/
  called : Machine
  /-- The machine when the arguments have been evaluated. -/
  ready : Machine
  does : run.Does ⟨depth + 1, .evaluate (.call callee paren arguments), machine⟩
  calleeRan : callee.evaluate run.limits.rounds depth machine = .ok (.function closure) called
  argumentsRan :
    forEach (Expr.evaluate run.limits.rounds depth) arguments called = .ok values ready
  fits : values.length = closure.arity

section Does

variable {job other : Job}

theorem Does.includes (does : run.Does job) (includes : job.Includes run.limits.rounds other) :
    run.Does other := by
  rcases does with ⟨before, statement, after, between, isSplit, beforeRan, rest⟩
  exact ⟨before, statement, after, between, isSplit, beforeRan, rest.trans includes⟩

theorem Does.listed (does : run.Does job) : job.Listed run.limits.rounds run.Declares :=
  fun other token found includes declares =>
    ⟨other, token, found, does.includes includes, declares, rfl, rfl, rfl⟩

theorem Does.sound (does : run.Does job) : job.Sound (.scopes run.machine.store) := by
  have wellFormed := (Machine.wellFormed_of_leads Machine.wellFormed_initial run.reachable).1
  have begun : (Invariant.scopes run.machine.store).Holds
      { run.machine with current := run.scope } :=
    ⟨⟨wellFormed.store, run.has, wellFormed.globals⟩, .refl _⟩
  exact Performs.sound does begun fun statement _ => statement.fits_of_all fun _ _ => trivial

end Does

namespace Call

variable (call : run.Call)

def job : Job :=
  ⟨call.depth + 1, .evaluate (.call call.callee call.paren call.arguments), call.machine⟩

/-- The machine with which the body of the function begins. -/
def entered : Machine :=
  call.ready.enter (callScope call.closure call.values)

/-- The scope that is made for the call. -/
def scope : ScopeId :=
  call.entered.current

/-- A call is made with well-formed machines, in which the scope of the function is there. -/
theorem wellFormed :
    call.ready.WellFormed ∧ call.ready.store.Has call.closure.scope ∧ call.entered.WellFormed := by
  rcases call.does.sound with ⟨holds, fits⟩
  cases fits with
  | call calleeFits _ argumentsFit =>
      rcases ((Invariant.scopes _).evaluate _ _ calleeFits _ holds).of_ok call.calleeRan with
        ⟨called, _, lives⟩
      rcases Invariant.holds_of_arguments argumentsFit called call.argumentsRan with
        ⟨ready, grows, argumentsLive⟩
      have stillLives := (Invariant.scopes _).mono grows lives
      have entered := (Invariant.scopes _).enter ready (.call stillLives argumentsLive)
      exact ⟨ready.1, stillLives, entered.1⟩

theorem size_ready : call.ready.store.scopes.size = call.scope := rfl

theorem size_entered : call.entered.store.scopes.size = call.scope + 1 :=
  Array.size_push ..

theorem listed : call.job.Listed run.limits.rounds run.Declares :=
  call.does.listed

theorem inArguments_starts {job : Job}
    (inArguments : InArguments run.limits.rounds call.depth call.arguments call.called job) :
    call.job.Starts run.limits.rounds job := by
  rcases inArguments with ⟨before, argument, after, values, between, isSplit, beforeRan, rfl⟩
  unfold Call.job
  rw [isSplit]
  exact .argument call.calleeRan beforeRan

theorem inBody_starts {job : Job}
    (inBody : InSequence run.limits.rounds call.depth call.closure.body call.entered job) :
    call.job.Starts run.limits.rounds job := by
  rcases inBody with ⟨before, statement, after, between, isSplit, beforeRan, rfl⟩
  exact .body call.calleeRan call.argumentsRan call.fits isSplit beforeRan

theorem visits_arguments :
    Visits run.limits.rounds run.Declares (call.job.Starts run.limits.rounds)
      (InArguments run.limits.rounds call.depth call.arguments call.called) call.called
      call.ready := by
  have visits : Visits run.limits.rounds run.Declares _ _ _ _ :=
    .forEach call.called fun _ => call.inArguments_starts
  rw [call.argumentsRan] at visits
  exact visits

theorem visits_body :
    Visits run.limits.rounds run.Declares (call.job.Starts run.limits.rounds)
      (InSequence run.limits.rounds call.depth call.closure.body call.entered) call.entered
      (final (sequence (Stmt.execute run.limits.rounds call.depth) call.closure.body
        call.entered)) :=
  .sequence call.entered fun _ => call.inBody_starts

theorem final_callee :
    Job.final run.limits.rounds ⟨call.depth, .evaluate call.callee, call.machine⟩ =
      call.called := by
  rw [Job.final_evaluate, call.calleeRan]
  rfl

theorem machine_becomes : call.machine.Becomes run.Declares call.ready := by
  have found := (call.listed.of_starts .callee).becomes
  rw [final_callee] at found
  exact found.trans (call.visits_arguments.becomes fun _ => call.listed.of_starts)

/-- When the body has ended, the call goes back to the scope it was made in. -/
theorem final_job :
    call.job.final run.limits.rounds =
      { final (sequence (Stmt.execute run.limits.rounds call.depth) call.closure.body
          call.entered) with current := call.ready.current } := by
  unfold Call.job
  rw [Job.final_evaluate, Expr.evaluate, bind_of_ok call.calleeRan, bind_of_ok call.argumentsRan,
    call_of_eq _ _ call.fits]
  unfold entered
  have ran := inScope_apply (callScope call.closure call.values)
    (sequence (Stmt.execute run.limits.rounds call.depth) call.closure.body) call.ready
  generalize sequence _ _ (call.ready.enter _) = result at ran ⊢
  cases result with
  | ok flow after =>
      rw [bind_of_ok ran]
      rfl
  | error stop after =>
      rw [bind_of_error ran]
      rfl

theorem entered_becomes_final :
    call.entered.Becomes run.Declares (call.job.final run.limits.rounds) := by
  rw [final_job]
  exact (call.visits_body.becomes fun _ => call.listed.of_starts).trans (.of_store_eq rfl)

/-- What a call starts ends before the body begins, or begins after it. -/
theorem becomes_of_starts {next : Job} (starts : call.job.Starts run.limits.rounds next) :
    (next.final run.limits.rounds).Becomes run.Declares call.ready ∨
    call.entered.Becomes run.Declares next.machine := by
  unfold Call.job at starts
  generalize isList : call.arguments = arguments at starts
  cases starts with
  | callee =>
      rw [final_callee]
      exact .inl (call.visits_arguments.becomes fun _ => call.listed.of_starts)
  | argument calleeRan beforeRan =>
      cases call.calleeRan.symm.trans calleeRan
      have visited := call.visits_arguments.becomes_of_covered (fun _ => call.listed.of_starts)
        ⟨_, _, _, _, _, isList, beforeRan, rfl⟩
      exact .inl visited.2
  | body calleeRan argumentsRan fits isSplit beforeRan =>
      cases call.calleeRan.symm.trans calleeRan
      rw [← isList] at argumentsRan
      cases call.argumentsRan.symm.trans argumentsRan
      have visited := call.visits_body.becomes_of_covered (fun _ => call.listed.of_starts)
        ⟨_, _, _, _, isSplit, beforeRan, rfl⟩
      exact .inr visited.1

/-- A job is over when the body begins, or it begins later, or it includes the call. -/
theorem becomes_or_includes {job : Job} (does : run.Does job) :
    (job.final run.limits.rounds).Becomes run.Declares call.ready ∨
    call.entered.Becomes run.Declares job.machine ∨
    job.Includes run.limits.rounds call.job := by
  rcases Performs.comparable (fun _ => Does.listed) does call.does with
    includes | included | before | after
  · exact .inr (.inr includes)
  · rcases included.cases_head with rfl | ⟨next, starts, rest⟩
    · exact .inr (.inr .refl)
    · rcases (call.listed.of_starts starts).becomes_of_includes rest with ⟨begins, ends⟩
      rcases call.becomes_of_starts starts with before | after
      · exact .inl (ends.trans before)
      · exact .inr (.inl (after.trans begins))
  · exact .inl (before.trans call.machine_becomes)
  · exact .inr (.inl (call.entered_becomes_final.trans after))

theorem scope_eq_of_job_eq {other : run.Call} (same : call.job = other.job) :
    call.scope = other.scope := by
  rcases call with ⟨_, _, _, _, _, _, _, _, _, _, calleeRan, argumentsRan, _⟩
  rcases other with ⟨_, _, _, _, _, _, _, _, _, _, calleeRan', argumentsRan', _⟩
  cases same
  cases calleeRan.symm.trans calleeRan'
  cases argumentsRan.symm.trans argumentsRan'
  rfl

variable {call} {later : run.Call}

/-- What was there when the body of a function began is there when a later call is ready. -/
theorem entered_becomes (isLater : call.scope < later.scope) :
    call.entered.Becomes run.Declares later.ready := by
  rcases later.becomes_or_includes call.does with before | after | includes
  · exact call.entered_becomes_final.trans before
  · have tooLate := (after.trans call.machine_becomes).size_le
    rw [size_entered, size_ready] at tooLate
    exact absurd isLater (Nat.lt_asymm tooLate)
  · rcases includes.cases_head with same | ⟨next, starts, rest⟩
    · exact absurd (call.scope_eq_of_job_eq same) (Nat.ne_of_lt isLater)
    · rcases (call.listed.of_starts starts).becomes_of_includes rest with ⟨begins, ends⟩
      rcases call.becomes_of_starts starts with before | after
      · have tooLate := (later.entered_becomes_final.trans (ends.trans before)).size_le
        rw [size_entered, size_ready] at tooLate
        exact absurd isLater (Nat.lt_asymm tooLate)
      · exact after.trans (begins.trans later.machine_becomes)

/-- What was there when a call was ready is there when a later call is. -/
theorem ready_becomes (isLater : call.scope < later.scope) :
    call.ready.Becomes run.Declares later.ready :=
  .trans (.enter ..) (entered_becomes isLater)

/-- A name that a scope has gained from one call to a later one was declared there in between. -/
theorem exists_declares_of_binds (isLater : call.scope < later.scope) {id : ScopeId} {name : String}
    (has : call.ready.store.Has id) (wasFree : call.ready.store.binds id name = false)
    (isBound : later.ready.store.binds id name = true) :
    ∃ count, run.Declares id name count ∧ call.scope < count ∧ count ≤ later.scope := by
  have stillHas : call.entered.store.Has id := (Store.Extends.create ..).has has
  rcases (entered_becomes isLater).gained stillHas isBound with
    wasBound | ⟨count, declares, lower, upper⟩
  · have same : call.entered.store.binds id name = call.ready.store.binds id name :=
      Store.binds_create_of_has has ..
    rw [same, wasFree] at wasBound
    contradiction
  · rw [size_entered] at lower
    exact ⟨count, declares, lower, upper⟩

/-- What is declared before the body of a function begins is bound when the call is ready. -/
theorem binds_of_declares {id : ScopeId} {name : String} {count : Nat}
    (declares : run.Declares id name count) (isBefore : count ≤ call.scope) :
    call.ready.store.binds id name = true := by
  rcases declares with ⟨job, token, found, does, declares, rfl, rfl, rfl⟩
  have isBound := declares.binds (declares.wellFormed does.sound).current
  rcases call.becomes_or_includes does with before | after | includes
  · exact before.keeps isBound
  · have tooLate := (after.trans (declares.becomes does.listed)).size_le
    rw [size_entered] at tooLate
    omega
  · rcases includes.cases_head with rfl | ⟨next, starts, rest⟩
    · cases declares
    · have ends := ((does.listed.of_starts starts).becomes_of_includes rest).2
      rw [declares.final_of_starts starts] at ends
      have tooLate := (call.entered_becomes_final.trans ends).size_le
      rw [size_entered] at tooLate
      omega

end Call

end Run

end Scriptlet
