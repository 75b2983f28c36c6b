import Scriptlet.Proofs.Frame
import Scriptlet.Proofs.Jobs

/-!
# The order of jobs

The jobs that a job starts are done one after the other: each finds the scopes that the one before
it has left, and some names may have been bound in between (`Job.Trail`). A job is done from its
start to its end before the next one begins. So of two jobs in one run, either one includes the
other or one of them ends before the other starts (`Performs.comparable`).

From one moment of a run to a later one, scopes keep their parents and the names that they bind, and
they gain only names that are declared in the meantime (`Machine.Becomes`).
-/

namespace Scriptlet

theorem Store.Extends.size_le {store after : Store} (isExtension : after.Extends store) :
    store.scopes.size ≤ after.scopes.size := by
  cases count : store.scopes.size with
  | zero => exact Nat.zero_le _
  | succ last =>
      have isLast : store.Has last := Store.has_iff.2 (by omega)
      exact Store.has_iff.1 (isExtension.has isLast)

/--
That a machine is found later in a run than another one. The scopes are still there, and bind what
they bound. A name that one of them has gained is listed in `gains`, with the number of scopes that
there were when it was declared.
-/
structure Machine.Becomes (gains : ScopeId → String → Nat → Prop) (machine after : Machine) :
    Prop where
  scopes : after.store.Extends machine.store
  keeps : ∀ {id name}, machine.store.binds id name = true → after.store.binds id name = true
  gained : ∀ {id name}, machine.store.Has id → after.store.binds id name = true →
    machine.store.binds id name = true ∨
    ∃ count, gains id name count ∧ machine.store.scopes.size ≤ count ∧
      count ≤ after.store.scopes.size

namespace Machine.Becomes

variable {gains : ScopeId → String → Nat → Prop} {machine between after : Machine}

theorem of_store_eq (same : after.store = machine.store) : machine.Becomes gains after where
  scopes := same ▸ .refl _
  keeps := by simp [same]
  gained _ isBound := .inl (same ▸ isBound)

theorem refl (machine : Machine) : machine.Becomes gains machine :=
  of_store_eq rfl

theorem size_le (becomes : machine.Becomes gains after) :
    machine.store.scopes.size ≤ after.store.scopes.size :=
  becomes.scopes.size_le

theorem trans (first : machine.Becomes gains between) (second : between.Becomes gains after) :
    machine.Becomes gains after where
  scopes := second.scopes.trans first.scopes
  keeps isBound := second.keeps (first.keeps isBound)
  gained isScope isBound := by
    rcases second.gained (first.scopes.has isScope) isBound with
      wasBound | ⟨count, isGain, lower, upper⟩
    · rcases first.gained isScope wasBound with wasBound | ⟨count, isGain, lower, upper⟩
      · exact .inl wasBound
      · exact .inr ⟨count, isGain, lower, upper.trans second.size_le⟩
    · exact .inr ⟨count, isGain, first.size_le.trans lower, upper⟩

theorem define {owner : ScopeId} {name : String}
    (allowed : machine.store.binds owner name = true ∨ gains owner name machine.store.scopes.size)
    (value : Value) :
    machine.Becomes gains { machine with store := machine.store.define owner name value } where
  scopes := .define ..
  keeps isBound := (Store.binds_define ..).2 (.inl isBound)
  gained _ isBound := by
    rcases (Store.binds_define ..).1 isBound with wasBound | ⟨_, rfl, rfl⟩
    · exact .inl wasBound
    · exact allowed.imp_right fun isGain => ⟨_, isGain, Nat.le_refl _, by simp [Store.define]⟩

theorem enter (machine : Machine) (scope : Scope) :
    machine.Becomes gains (machine.enter scope) where
  scopes := .create ..
  keeps {id name} isBound := by
    rw [← isBound]
    exact Store.binds_create_of_has (Store.has_of_binds isBound) scope name
  gained {id name} isScope isBound :=
    .inl ((Store.binds_create_of_has isScope scope name).symm.trans isBound)

end Machine.Becomes

namespace Job

/-- The machine that a job leaves. -/
def final (rounds : Nat) (job : Job) : Machine :=
  (job.result rounds).2

/-- That a job declares a name; the machine is the one in whose current scope the name is bound. -/
inductive Declares (rounds : Nat) : Job → Token → Machine → Prop
  | bare {depth : Nat} {name : Token} {machine : Machine} :
      Declares rounds ⟨depth + 1, .execute (.declare name none), machine⟩ name machine
  | initialized {depth : Nat} {name : Token} {initializer : Expr} {value : Value}
      {machine after : Machine}
      (ran : initializer.evaluate rounds depth machine = .ok value after) :
      Declares rounds ⟨depth + 1, .execute (.declare name (some initializer)), machine⟩ name after
  | function {depth : Nat} {name : Token} {parameters : List Token} {body : List Stmt}
      {machine : Machine} :
      Declares rounds ⟨depth + 1, .execute (.function name parameters body), machine⟩ name machine

/-- That jobs are done one after the other, beginning with one machine and ending with another. -/
inductive Trail (rounds : Nat) (gains : ScopeId → String → Nat → Prop) :
    Machine → List Job → Machine → Prop
  | nil {machine after : Machine} (becomes : machine.Becomes gains after) :
      Trail rounds gains machine [] after
  | cons {machine after : Machine} {job : Job} {jobs : List Job}
      (becomes : machine.Becomes gains job.machine)
      (rest : Trail rounds gains (job.final rounds) jobs after) :
      Trail rounds gains machine (job :: jobs) after

variable {rounds : Nat} {gains : ScopeId → String → Nat → Prop}

theorem final_evaluate (rounds depth : Nat) (expr : Expr) (machine : Machine) :
    final rounds ⟨depth, .evaluate expr, machine⟩ =
      Eval.final (expr.evaluate rounds depth machine) := by
  simp only [final, result]
  cases expr.evaluate rounds depth machine <;> rfl

theorem final_execute (rounds depth : Nat) (statement : Stmt) (machine : Machine) :
    final rounds ⟨depth, .execute statement, machine⟩ =
      Eval.final (statement.execute rounds depth machine) := by
  simp only [final, result]
  rcases statement.execute rounds depth machine with ⟨_ | _, _⟩ | _ <;> rfl

namespace Trail

variable {machine between after : Machine} {jobs others : List Job}

theorem after_becomes (becomes : machine.Becomes gains between)
    (trail : Trail rounds gains between jobs after) : Trail rounds gains machine jobs after := by
  cases trail with
  | nil later => exact .nil (becomes.trans later)
  | cons later rest => exact .cons (becomes.trans later) rest

theorem append (first : Trail rounds gains machine jobs between)
    (second : Trail rounds gains between others after) :
    Trail rounds gains machine (jobs ++ others) after := by
  induction first with
  | nil becomes => exact second.after_becomes becomes
  | cons becomes _ ih => exact .cons becomes (ih second)

theorem then_becomes (trail : Trail rounds gains machine jobs between)
    (becomes : between.Becomes gains after) : Trail rounds gains machine jobs after := by
  simpa using trail.append (.nil becomes)

section Moments

variable (trail : Trail rounds gains machine jobs after)
  (each : ∀ job ∈ jobs, job.machine.Becomes gains (job.final rounds))

include trail each

theorem becomes : machine.Becomes gains after := by
  induction trail with
  | nil becomes => exact becomes
  | cons becomes _ ih =>
      rw [List.forall_mem_cons] at each
      exact becomes.trans (each.1.trans (ih each.2))

/-- A job on a trail starts after the trail does, and ends before it does. -/
theorem becomes_of_mem {job : Job} (isMember : job ∈ jobs) :
    machine.Becomes gains job.machine ∧ (job.final rounds).Becomes gains after := by
  induction trail with
  | nil => simp at isMember
  | cons becomes rest ih =>
      rw [List.forall_mem_cons] at each
      rcases List.mem_cons.1 isMember with rfl | isMember
      · exact ⟨becomes, rest.becomes each.2⟩
      · rcases ih each.2 isMember with ⟨starts, ends⟩
        exact ⟨becomes.trans (each.1.trans starts), ends⟩

/-- Of two jobs on a trail, one ends before the other starts. -/
theorem eq_or_becomes {job other : Job} (isMember : job ∈ jobs) (isOther : other ∈ jobs) :
    job = other ∨ (job.final rounds).Becomes gains other.machine ∨
      (other.final rounds).Becomes gains job.machine := by
  induction trail with
  | nil => simp at isMember
  | cons _ rest ih =>
      rw [List.forall_mem_cons] at each
      rcases List.mem_cons.1 isMember with rfl | isLater
      · rcases List.mem_cons.1 isOther with rfl | otherLater
        · exact .inl rfl
        · exact .inr (.inl (rest.becomes_of_mem each.2 otherLater).1)
      · rcases List.mem_cons.1 isOther with rfl | otherLater
        · exact .inr (.inr (rest.becomes_of_mem each.2 isLater).1)
        · exact ih each.2 isLater otherLater

end Moments

end Trail

end Job

namespace Eval

variable {α β : Type} {rounds depth : Nat} {gains : ScopeId → String → Nat → Prop}
  {allowed covered : Job → Prop} {machine after : Machine}

/--
That from one machine to another jobs are done one after the other, of which each is allowed, and
all that are covered are among them.
-/
def Visits (rounds : Nat) (gains : ScopeId → String → Nat → Prop) (allowed covered : Job → Prop)
    (machine after : Machine) : Prop :=
  ∃ jobs, (∀ job ∈ jobs, allowed job) ∧ (∀ job, covered job → job ∈ jobs) ∧
    Job.Trail rounds gains machine jobs after

/-- The jobs that are started for some of several statements, each after those before it. -/
def InSequence (rounds depth : Nat) (statements : List Stmt) (machine : Machine) (job : Job) :
    Prop :=
  ∃ before statement after between, statements = before ++ statement :: after ∧
    sequence (Stmt.execute rounds depth) before machine = .ok .next between ∧
    job = ⟨depth, .execute statement, between⟩

/-- The jobs that are started for some of several arguments, each after those before it. -/
def InArguments (rounds depth : Nat) (arguments : List Expr) (machine : Machine) (job : Job) :
    Prop :=
  ∃ before argument after values between, arguments = before ++ argument :: after ∧
    forEach (Expr.evaluate rounds depth) before machine = .ok values between ∧
    job = ⟨depth, .evaluate argument, between⟩

/-- The jobs that a loop starts, for its condition and for its body, in each of its rounds. -/
inductive InLoop (rounds depth : Nat) (condition : Expr) (body : Stmt) (most : Nat)
    (machine : Machine) : Job → Prop
  | condition {count : Nat} {between : Machine} (within : count < most)
      (repeats : Repeats (condition.evaluate rounds depth) (body.execute rounds depth) count
        machine between) :
      InLoop rounds depth condition body most machine ⟨depth, .evaluate condition, between⟩
  | body {count : Nat} {between tested : Machine} {value : Value} (within : count < most)
      (repeats : Repeats (condition.evaluate rounds depth) (body.execute rounds depth) count
        machine between)
      (conditionRan : condition.evaluate rounds depth between = .ok value tested)
      (isTruthy : value.isTruthy = true) :
      InLoop rounds depth condition body most machine ⟨depth, .execute body, tested⟩

/-- The jobs that are started for the body of a function when a value is called. -/
def InCall (rounds depth : Nat) (callee : Value) (arguments : List Value) (machine : Machine)
    (job : Job) : Prop :=
  ∃ closure, callee = .function closure ∧ arguments.length = closure.arity ∧
    InSequence rounds depth closure.body (machine.enter (callScope closure arguments)) job

namespace Visits

theorem mono {others : Job → Prop} (visits : Visits rounds gains allowed covered machine after)
    (implied : ∀ job, others job → covered job) :
    Visits rounds gains allowed others machine after := by
  rcases visits with ⟨jobs, areAllowed, areCovered, trail⟩
  exact ⟨jobs, areAllowed, fun job isOther => areCovered job (implied job isOther), trail⟩

theorem nothing (becomes : machine.Becomes gains after) :
    Visits rounds gains allowed (fun _ => False) machine after :=
  ⟨[], by simp, fun _ => False.elim, .nil becomes⟩

theorem pure (value : α) :
    Visits rounds gains allowed (fun _ => False) machine
      (final ((Pure.pure value : Eval α) machine)) :=
  nothing (.refl _)

theorem stop (reason : Stop) :
    Visits rounds gains allowed (fun _ => False) machine
      (final ((throw reason : Eval α) machine)) :=
  nothing (.refl _)

theorem ofExcept (result : Except RuntimeError α) :
    Visits rounds gains allowed (fun _ => False) machine
      (final (Eval.ofExcept result machine)) := by
  cases result with
  | ok value => exact pure value
  | error error => exact stop _

theorem evaluated {expr : Expr} (isAllowed : allowed ⟨depth, .evaluate expr, machine⟩) :
    Visits rounds gains allowed (· = ⟨depth, .evaluate expr, machine⟩) machine
      (final (expr.evaluate rounds depth machine)) := by
  refine ⟨[_], by simpa using isAllowed, by simp, .cons (.refl _) ?_⟩
  rw [Job.final_evaluate]
  exact .nil (.refl _)

theorem executed {statement : Stmt} (isAllowed : allowed ⟨depth, .execute statement, machine⟩) :
    Visits rounds gains allowed (· = ⟨depth, .execute statement, machine⟩) machine
      (final (statement.execute rounds depth machine)) := by
  refine ⟨[_], by simpa using isAllowed, by simp, .cons (.refl _) ?_⟩
  rw [Job.final_execute]
  exact .nil (.refl _)

theorem bind {first : Eval α} {rest : α → Eval β}
    (firstVisits : Visits rounds gains allowed covered machine (final (first machine)))
    (next : α → Machine → Job → Prop)
    (restVisits : ∀ {value between}, first machine = .ok value between →
      Visits rounds gains allowed (next value between) between (final (rest value between))) :
    Visits rounds gains allowed
      (fun job => covered job ∨
        ∃ value between, first machine = .ok value between ∧ next value between job)
      machine (final ((first >>= rest) machine)) := by
  rcases firstVisits with ⟨jobs, areAllowed, areCovered, trail⟩
  cases ran : first machine with
  | ok value between =>
      rw [ran] at trail
      rcases restVisits ran with ⟨others, othersAllowed, othersCovered, later⟩
      rw [bind_of_ok ran]
      refine ⟨jobs ++ others, List.forall_mem_append.2 ⟨areAllowed, othersAllowed⟩, ?_,
        trail.append later⟩
      rintro job (isCovered | ⟨_, _, ⟨⟩, isNext⟩)
      · exact List.mem_append_left _ (areCovered job isCovered)
      · exact List.mem_append_right _ (othersCovered job isNext)
  | error stop between =>
      rw [ran] at trail
      rw [bind_of_error ran]
      refine ⟨jobs, areAllowed, ?_, trail⟩
      rintro job (isCovered | ⟨_, _, ⟨⟩, _⟩)
      exact areCovered job isCovered

/-- A step may be followed by others that start nothing. -/
theorem andThen {first : Eval α} {rest : α → Eval β}
    (firstVisits : Visits rounds gains allowed covered machine (final (first machine)))
    (restVisits : ∀ {value between}, first machine = .ok value between →
      Visits rounds gains allowed (fun _ => False) between (final (rest value between))) :
    Visits rounds gains allowed covered machine (final ((first >>= rest) machine)) :=
  (firstVisits.bind _ restVisits).mono fun _ => .inl

theorem assign (name : Token) (value : Value) :
    Visits rounds gains allowed (fun _ => False) machine
      (final (Eval.assign name value machine)) := by
  rw [assign_run]
  cases assigned : machine.store.assign machine.current name value with
  | error error => exact nothing (.refl _)
  | ok store =>
      rcases Store.exists_of_assign_eq_ok assigned with ⟨owner, resolved, rfl⟩
      exact nothing (.define (.inl (Store.binds_of_resolve resolved)) value)

theorem inScope (scope : Scope) {action : Eval α}
    (visits : Visits rounds gains allowed covered (machine.enter scope)
      (final (action (machine.enter scope)))) :
    Visits rounds gains allowed covered machine
      (final ((Eval.create scope >>= fun id => Eval.within id action) machine)) := by
  rcases visits with ⟨jobs, areAllowed, areCovered, trail⟩
  rw [inScope_apply]
  refine ⟨jobs, areAllowed, areCovered,
    (trail.after_becomes (.enter machine scope)).then_becomes ?_⟩
  cases action (machine.enter scope) <;> exact .of_store_eq rfl

theorem sequence {statements : List Stmt} (machine : Machine)
    (areAllowed : ∀ job, InSequence rounds depth statements machine job → allowed job) :
    Visits rounds gains allowed (InSequence rounds depth statements machine) machine
      (final (Eval.sequence (Stmt.execute rounds depth) statements machine)) := by
  induction statements generalizing machine with
  | nil =>
      refine (pure Flow.next).mono ?_
      rintro job ⟨before, statement, after, between, isSplit, _⟩
      simp at isSplit
  | cons statement statements ih =>
      have isFirst : InSequence rounds depth (statement :: statements) machine
          ⟨depth, .execute statement, machine⟩ :=
        ⟨[], statement, statements, machine, rfl, rfl, rfl⟩
      have later {between : Machine} {job : Job}
          (ran : statement.execute rounds depth machine = .ok .next between)
          (isLater : InSequence rounds depth statements between job) :
          InSequence rounds depth (statement :: statements) machine job := by
        rcases isLater with ⟨before, other, after, last, rfl, beforeRan, rfl⟩
        refine ⟨statement :: before, other, after, last, rfl, ?_, rfl⟩
        rw [Eval.sequence, bind_of_ok ran]
        exact beforeRan
      refine ((executed (areAllowed _ isFirst)).bind
        (fun flow between job => flow = .next ∧ InSequence rounds depth statements between job)
        fun {flow between} ran => ?_).mono ?_
      · cases flow with
        | next =>
            have visits := ih between fun job isLater => areAllowed job (later ran isLater)
            exact visits.mono fun _ => And.right
        | returned value =>
            refine (pure _).mono ?_
            rintro _ ⟨⟨⟩, _⟩
      · rintro job ⟨before, other, after, last, isSplit, beforeRan, rfl⟩
        cases before with
        | nil =>
            cases isSplit
            cases beforeRan
            exact .inl rfl
        | cons first before =>
            cases isSplit
            rw [Eval.sequence] at beforeRan
            rcases bind_eq_ok beforeRan with ⟨flow, between, ran, restRan⟩
            cases flow with
            | next => exact .inr ⟨.next, between, ran, rfl, before, _, _, _, rfl, restRan, rfl⟩
            | returned value => cases restRan

theorem forEach {arguments : List Expr} (machine : Machine)
    (areAllowed : ∀ job, InArguments rounds depth arguments machine job → allowed job) :
    Visits rounds gains allowed (InArguments rounds depth arguments machine) machine
      (final (Eval.forEach (Expr.evaluate rounds depth) arguments machine)) := by
  induction arguments generalizing machine with
  | nil =>
      refine (pure []).mono ?_
      rintro job ⟨before, argument, after, values, between, isSplit, _⟩
      simp at isSplit
  | cons argument arguments ih =>
      have isFirst : InArguments rounds depth (argument :: arguments) machine
          ⟨depth, .evaluate argument, machine⟩ :=
        ⟨[], argument, arguments, [], machine, rfl, rfl, rfl⟩
      have later {value : Value} {between : Machine} {job : Job}
          (ran : argument.evaluate rounds depth machine = .ok value between)
          (isLater : InArguments rounds depth arguments between job) :
          InArguments rounds depth (argument :: arguments) machine job := by
        rcases isLater with ⟨before, other, after, values, last, rfl, beforeRan, rfl⟩
        refine ⟨argument :: before, other, after, value :: values, last, rfl, ?_, rfl⟩
        rw [Eval.forEach, bind_of_ok ran, bind_of_ok beforeRan]
        rfl
      refine ((evaluated (areAllowed _ isFirst)).bind
        (fun _ between => InArguments rounds depth arguments between)
        fun {value between} ran => ?_).mono ?_
      · have visits := ih between fun job isLater => areAllowed job (later ran isLater)
        exact visits.andThen fun _ => pure _
      · rintro job ⟨before, other, after, values, last, isSplit, beforeRan, rfl⟩
        cases before with
        | nil =>
            cases isSplit
            cases beforeRan
            exact .inl rfl
        | cons first before =>
            cases isSplit
            rw [Eval.forEach] at beforeRan
            rcases bind_eq_ok beforeRan with ⟨value, between, ran, restRan⟩
            rcases bind_eq_ok restRan with ⟨values, between', restRan, ended⟩
            cases ended
            exact .inr ⟨value, between, ran, before, _, _, values, _, rfl, restRan, rfl⟩

theorem loop {condition : Expr} {body : Stmt} (most : Nat) (machine : Machine)
    (areAllowed : ∀ job, InLoop rounds depth condition body most machine job → allowed job) :
    Visits rounds gains allowed (InLoop rounds depth condition body most machine) machine
      (final (Eval.loop (condition.evaluate rounds depth) (body.execute rounds depth) most
        machine)) := by
  induction most generalizing machine with
  | zero =>
      refine (stop Stop.unfinished).mono ?_
      rintro job (⟨within, _⟩ | ⟨within, _⟩) <;> simp at within
  | succ most ih =>
      have isFirst : InLoop rounds depth condition body (most + 1) machine
          ⟨depth, .evaluate condition, machine⟩ := .condition (Nat.succ_pos _) (.start _)
      have later {value : Value} {tested between : Machine} {job : Job}
          (tests : condition.evaluate rounds depth machine = .ok value tested)
          (isTruthy : value.isTruthy = true)
          (runs : body.execute rounds depth tested = .ok .next between)
          (isLater : InLoop rounds depth condition body most between job) :
          InLoop rounds depth condition body (most + 1) machine job := by
        cases isLater with
        | condition within repeats =>
            exact .condition (Nat.succ_lt_succ within) (.again tests isTruthy runs repeats)
        | body within repeats conditionRan holds =>
            exact .body (Nat.succ_lt_succ within) (.again tests isTruthy runs repeats)
              conditionRan holds
      refine ((evaluated (areAllowed _ isFirst)).bind
        (fun value tested job => value.isTruthy = true ∧ (job = ⟨depth, .execute body, tested⟩ ∨
          ∃ flow between, body.execute rounds depth tested = .ok flow between ∧ flow = .next ∧
            InLoop rounds depth condition body most between job))
        fun {value tested} tests => ?_).mono ?_
      · split
        · rename_i isTruthy
          have isBody : InLoop rounds depth condition body (most + 1) machine
              ⟨depth, .execute body, tested⟩ :=
            .body (Nat.succ_pos _) (.start _) tests isTruthy
          refine ((executed (areAllowed _ isBody)).bind
            (fun flow between job => flow = .next ∧
              InLoop rounds depth condition body most between job)
            fun {flow between} runs => ?_).mono fun _ => And.right
          cases flow with
          | next =>
              have visits := ih between fun job isLater =>
                areAllowed job (later tests isTruthy runs isLater)
              exact visits.mono fun _ => And.right
          | returned value =>
              refine (pure _).mono ?_
              rintro _ ⟨⟨⟩, _⟩
        · rename_i isFalsy
          exact (pure _).mono fun _ covered => isFalsy covered.1
      · intro job inLoop
        cases inLoop with
        | condition within repeats =>
            cases repeats with
            | start => exact .inl rfl
            | again tests isTruthy runs rest =>
                exact .inr ⟨_, _, tests, isTruthy, .inr ⟨_, _, runs, rfl,
                  .condition (Nat.lt_of_succ_lt_succ within) rest⟩⟩
        | body within repeats conditionRan holds =>
            cases repeats with
            | start => exact .inr ⟨_, _, conditionRan, holds, .inl rfl⟩
            | again tests isTruthy runs rest =>
                exact .inr ⟨_, _, tests, isTruthy, .inr ⟨_, _, runs, rfl,
                  .body (Nat.lt_of_succ_lt_succ within) rest conditionRan holds⟩⟩

theorem call (paren : Token) {callee : Value} {arguments : List Value}
    (areAllowed : ∀ job, InCall rounds depth callee arguments machine job → allowed job) :
    Visits rounds gains allowed (InCall rounds depth callee arguments machine) machine
      (final (Eval.call (Stmt.execute rounds depth) paren callee arguments machine)) := by
  cases callee with
  | constant value =>
      refine (stop _).mono ?_
      rintro job ⟨closure, ⟨⟩, _⟩
  | function closure =>
      by_cases same : arguments.length = closure.arity
      · rw [call_of_eq _ paren same]
        have isAllowed (job : Job) (isInBody : InSequence rounds depth closure.body
            (machine.enter (callScope closure arguments)) job) : allowed job :=
          areAllowed job ⟨closure, rfl, same, isInBody⟩
        refine (((sequence _ isAllowed).inScope _).andThen fun _ => pure _).mono ?_
        rintro job ⟨_, ⟨⟩, _, isInBody⟩
        exact isInBody
      · rw [call_of_ne _ paren same]
        refine (stop _).mono ?_
        rintro job ⟨_, ⟨⟩, isSame, _⟩
        exact same isSame

end Visits

end Eval

open Eval

/-- Evaluating an expression does the jobs that it starts, one after the other. -/
theorem Expr.evaluate_visits {gains : ScopeId → String → Nat → Prop} (rounds depth : Nat)
    (expr : Expr) (machine : Machine) :
    let starts := Job.Starts rounds ⟨depth, .evaluate expr, machine⟩
    Visits rounds gains starts starts machine (final (expr.evaluate rounds depth machine)) := by
  intro starts
  cases depth with
  | zero =>
      rw [Expr.evaluate]
      refine (Visits.stop _).mono ?_
      rintro job ⟨⟩
  | succ depth =>
      cases expr with
      | literal value =>
          rw [Expr.evaluate]
          refine (Visits.pure _).mono ?_
          rintro job ⟨⟩
      | grouping inner =>
          rw [Expr.evaluate]
          refine (Visits.evaluated .grouping).mono ?_
          rintro job ⟨⟩
          rfl
      | unary operator operand =>
          rw [Expr.evaluate]
          refine ((Visits.evaluated .operand).andThen fun _ => .ofExcept _).mono ?_
          rintro job ⟨⟩
          rfl
      | binary left operator right =>
          rw [Expr.evaluate]
          refine ((Visits.evaluated .left).bind _ fun leftRan =>
            (Visits.evaluated (.right leftRan)).andThen fun _ => .ofExcept _).mono ?_
          intro job starts
          cases starts with
          | left => exact .inl rfl
          | right leftRan => exact .inr ⟨_, _, leftRan, rfl⟩
      | logical left operator right =>
          rw [Expr.evaluate]
          refine ((Visits.evaluated .first).bind
            (fun value between job => value.isTruthy ≠ decide (operator.kind = .kwOr) ∧
              job = ⟨depth, .evaluate right, between⟩) fun leftRan => ?_).mono ?_
          · split
            · rename_i settled
              exact (Visits.pure _).mono fun _ covered => covered.1 settled
            · rename_i unsettled
              exact (Visits.evaluated (.second leftRan unsettled)).mono fun _ => And.right
          · intro job starts
            cases starts with
            | first => exact .inl rfl
            | second leftRan unsettled => exact .inr ⟨_, _, leftRan, unsettled, rfl⟩
      | read name =>
          rw [Expr.evaluate]
          refine (Visits.ofExcept (machine.store.get machine.current name)).mono ?_
          rintro job ⟨⟩
      | assign name value =>
          rw [Expr.evaluate]
          refine ((Visits.evaluated .assigned).andThen fun _ =>
            (Visits.assign name _).andThen fun _ => .pure _).mono ?_
          rintro job ⟨⟩
          rfl
      | call callee paren arguments =>
          rw [Expr.evaluate]
          have isArgument {value : Value} {called : Machine} {job : Job}
              (calleeRan : callee.evaluate rounds depth machine = .ok value called)
              (inArguments : InArguments rounds depth arguments called job) : starts job := by
            rcases inArguments with ⟨before, argument, after, values, between, rfl, beforeRan, rfl⟩
            exact .argument calleeRan beforeRan
          have isBody {value : Value} {values : List Value} {called ready : Machine} {job : Job}
              (calleeRan : callee.evaluate rounds depth machine = .ok value called)
              (argumentsRan : forEach (Expr.evaluate rounds depth) arguments called =
                .ok values ready)
              (inCall : InCall rounds depth value values ready job) : starts job := by
            rcases inCall with ⟨closure, rfl, fits, before, statement, after, between, isSplit,
              beforeRan, rfl⟩
            exact .body calleeRan argumentsRan fits isSplit beforeRan
          refine ((Visits.evaluated .callee).bind _ fun calleeRan =>
            (Visits.forEach _ fun _ => isArgument calleeRan).bind _ fun argumentsRan =>
              .call paren fun _ => isBody calleeRan argumentsRan).mono ?_
          intro job starts
          cases starts with
          | callee => exact .inl rfl
          | argument calleeRan beforeRan =>
              exact .inr ⟨_, _, calleeRan, .inl ⟨_, _, _, _, _, rfl, beforeRan, rfl⟩⟩
          | body calleeRan argumentsRan fits isSplit beforeRan =>
              exact .inr ⟨_, _, calleeRan, .inr ⟨_, _, argumentsRan, _, rfl, fits, _, _, _, _,
                isSplit, beforeRan, rfl⟩⟩

/-- Executing a statement does the jobs that it starts, and it gains what it declares. -/
theorem Stmt.execute_visits {gains : ScopeId → String → Nat → Prop} (rounds depth : Nat)
    (statement : Stmt) (machine : Machine)
    (declared : ∀ name found,
      Job.Declares rounds ⟨depth, .execute statement, machine⟩ name found →
      gains found.current name.lexeme found.store.scopes.size) :
    let starts := Job.Starts rounds ⟨depth, .execute statement, machine⟩
    Visits rounds gains starts starts machine
      (final (statement.execute rounds depth machine)) := by
  intro starts
  cases depth with
  | zero =>
      rw [Stmt.execute]
      refine (Visits.stop _).mono ?_
      rintro job ⟨⟩
  | succ depth =>
      cases statement with
      | expression value =>
          rw [Stmt.execute]
          refine ((Visits.evaluated .expression).andThen fun _ => .pure _).mono ?_
          rintro job ⟨⟩
          rfl
      | print value =>
          rw [Stmt.execute]
          refine ((Visits.evaluated .printed).andThen fun _ => .nothing (.of_store_eq rfl)).mono ?_
          rintro job ⟨⟩
          rfl
      | declare name initializer =>
          cases initializer with
          | none =>
              rw [Stmt.execute]
              refine (Visits.nothing (.define (.inr (declared _ _ .bare)) .null)).mono ?_
              rintro job ⟨⟩
          | some value =>
              rw [Stmt.execute]
              refine ((Visits.evaluated .initializer).andThen fun ran =>
                .nothing (.define (.inr (declared _ _ (.initialized ran))) _)).mono ?_
              rintro job ⟨⟩
              rfl
      | block body =>
          rw [Stmt.execute]
          have isAllowed (job : Job) (isInBody : InSequence rounds depth body
              (machine.enter ⟨some machine.current, []⟩) job) : starts job := by
            rcases isInBody with ⟨before, statement, after, between, rfl, beforeRan, rfl⟩
            exact .inBlock beforeRan
          have isCovered (job : Job) (isStarted : starts job) : InSequence rounds depth body
              (machine.enter ⟨some machine.current, []⟩) job := by
            cases isStarted with
            | inBlock beforeRan => exact ⟨_, _, _, _, rfl, beforeRan, rfl⟩
          exact ((Visits.sequence _ isAllowed).mono isCovered).inScope _
      | ifThen condition thenBranch =>
          rw [Stmt.execute]
          refine ((Visits.evaluated .ifCondition).bind
            (fun value between job => value.isTruthy = true ∧
              job = ⟨depth, .execute thenBranch, between⟩) fun conditionRan => ?_).mono ?_
          · split
            · rename_i isTruthy
              exact (Visits.executed (.ifBranch conditionRan isTruthy)).mono fun _ => And.right
            · rename_i isFalsy
              exact (Visits.pure _).mono fun _ covered => isFalsy covered.1
          · intro job starts
            cases starts with
            | ifCondition => exact .inl rfl
            | ifBranch conditionRan isTruthy => exact .inr ⟨_, _, conditionRan, isTruthy, rfl⟩
      | ifElse condition thenBranch elseBranch =>
          rw [Stmt.execute]
          refine ((Visits.evaluated .ifElseCondition).bind
            (fun value between job => job =
              ⟨depth, .execute (if value.isTruthy then thenBranch else elseBranch), between⟩)
            fun conditionRan => ?_).mono ?_
          · have visits : Visits rounds gains starts _ _ _ :=
              .executed (.ifElseBranch conditionRan)
            split
            · rename_i isTruthy
              rw [if_pos isTruthy] at visits
              exact visits
            · rename_i isFalsy
              rw [if_neg isFalsy] at visits
              exact visits
          · intro job starts
            cases starts with
            | ifElseCondition => exact .inl rfl
            | ifElseBranch conditionRan => exact .inr ⟨_, _, conditionRan, rfl⟩
      | whileDo condition body =>
          rw [Stmt.execute]
          have isAllowed (job : Job)
              (inLoop : InLoop rounds depth condition body rounds machine job) : starts job := by
            cases inLoop with
            | condition within repeats => exact .loopCondition within repeats
            | body within repeats conditionRan isTruthy =>
                exact .loopBody within repeats conditionRan isTruthy
          refine (Visits.loop rounds machine isAllowed).mono ?_
          intro job starts
          cases starts with
          | loopCondition within repeats => exact .condition within repeats
          | loopBody within repeats conditionRan isTruthy =>
              exact .body within repeats conditionRan isTruthy
      | function name parameters body =>
          rw [Stmt.execute]
          have defined (value : Value) : machine.Becomes gains _ :=
            .define (.inr (declared _ _ .function)) value
          refine (Visits.nothing ?_).mono ?_
          · exact (defined _).trans (.of_store_eq rfl)
          · rintro job ⟨⟩
      | ret keyword result =>
          cases result with
          | none =>
              rw [Stmt.execute]
              refine (Visits.pure _).mono ?_
              rintro job ⟨⟩
          | some value =>
              rw [Stmt.execute]
              refine ((Visits.evaluated .returned).andThen fun _ => .pure _).mono ?_
              rintro job ⟨⟩
              rfl

namespace Job

variable {rounds : Nat} {gains : ScopeId → String → Nat → Prop} {job next other : Job}

theorem Starts.depth_eq (starts : job.Starts rounds next) : job.depth = next.depth + 1 := by
  cases starts <;> rfl

/-- That all that is declared in a job is listed. -/
def Listed (rounds : Nat) (gains : ScopeId → String → Nat → Prop) (job : Job) : Prop :=
  ∀ other name found, job.Includes rounds other → other.Declares rounds name found →
    gains found.current name.lexeme found.store.scopes.size

/-- That one of two jobs includes the other, or that one of them ends before the other starts. -/
inductive Comparable (rounds : Nat) (gains : ScopeId → String → Nat → Prop) (job other : Job) : Prop
  | includes (includes : job.Includes rounds other)
  | included (included : other.Includes rounds job)
  | before (becomes : (job.final rounds).Becomes gains other.machine)
  | after (becomes : (other.final rounds).Becomes gains job.machine)

namespace Listed

theorem of_includes (listed : job.Listed rounds gains) (includes : job.Includes rounds other) :
    other.Listed rounds gains :=
  fun inner name found isInner => listed inner name found (includes.trans isInner)

theorem of_starts (listed : job.Listed rounds gains) (starts : job.Starts rounds next) :
    next.Listed rounds gains :=
  listed.of_includes (.single starts)

/-- A job does the jobs that it starts, one after the other. -/
theorem visits (listed : job.Listed rounds gains) :
    Visits rounds gains (job.Starts rounds) (job.Starts rounds) job.machine (job.final rounds) := by
  rcases job with ⟨depth, task, machine⟩
  cases task with
  | evaluate expr =>
      rw [final_evaluate]
      exact expr.evaluate_visits rounds depth machine
  | execute statement =>
      rw [final_execute]
      exact statement.execute_visits rounds depth machine fun name found =>
        listed _ name found .refl

theorem becomes (listed : job.Listed rounds gains) :
    job.machine.Becomes gains (job.final rounds) := by
  -- What a job starts may nest less deeply than the job itself.
  generalize isDepth : job.depth = depth
  induction depth using Nat.strongRecOn generalizing job with
  | ind depth ih =>
      rcases listed.visits with ⟨jobs, areStarted, _, trail⟩
      apply trail.becomes
      intro next isMember
      have starts := areStarted next isMember
      have isLess := starts.depth_eq
      exact ih next.depth (by omega) (listed.of_starts starts) rfl

end Listed

end Job

namespace Eval.Visits

variable {rounds : Nat} {gains : ScopeId → String → Nat → Prop} {allowed covered : Job → Prop}
  {machine after : Machine} (visits : Visits rounds gains allowed covered machine after)
  (listed : ∀ job, allowed job → job.Listed rounds gains)

include visits listed

theorem becomes : machine.Becomes gains after := by
  rcases visits with ⟨jobs, areAllowed, _, trail⟩
  exact trail.becomes fun job isMember => (listed job (areAllowed job isMember)).becomes

theorem becomes_of_covered {job : Job} (isCovered : covered job) :
    machine.Becomes gains job.machine ∧ (job.final rounds).Becomes gains after := by
  rcases visits with ⟨jobs, areAllowed, areCovered, trail⟩
  exact trail.becomes_of_mem (fun job isMember => (listed job (areAllowed job isMember)).becomes)
    (areCovered job isCovered)

theorem eq_or_becomes {job other : Job} (isCovered : covered job) (isOther : covered other) :
    job = other ∨ (job.final rounds).Becomes gains other.machine ∨
      (other.final rounds).Becomes gains job.machine := by
  rcases visits with ⟨jobs, areAllowed, areCovered, trail⟩
  exact trail.eq_or_becomes (fun job isMember => (listed job (areAllowed job isMember)).becomes)
    (areCovered job isCovered) (areCovered other isOther)

end Eval.Visits

namespace Job.Listed

variable {rounds : Nat} {gains : ScopeId → String → Nat → Prop} {job next other : Job}

/-- What a job starts begins after it and ends before it. -/
theorem becomes_of_starts (listed : job.Listed rounds gains) (starts : job.Starts rounds next) :
    job.machine.Becomes gains next.machine ∧
    (next.final rounds).Becomes gains (job.final rounds) :=
  listed.visits.becomes_of_covered (fun _ => listed.of_starts) starts

theorem becomes_of_includes (listed : job.Listed rounds gains)
    (includes : job.Includes rounds other) :
    job.machine.Becomes gains other.machine ∧
    (other.final rounds).Becomes gains (job.final rounds) := by
  induction includes with
  | refl => exact ⟨.refl _, .refl _⟩
  | tail includes starts ih =>
      rcases (listed.of_includes includes).becomes_of_starts starts with ⟨begins, ends⟩
      exact ⟨ih.1.trans begins, ends.trans ih.2⟩

/-- Jobs that two jobs include are in order if those are. -/
theorem comparable_of_becomes {outer outer' : Job} (listed : outer.Listed rounds gains)
    (listed' : outer'.Listed rounds gains)
    (inOrder : (outer.final rounds).Becomes gains outer'.machine ∨
      (outer'.final rounds).Becomes gains outer.machine)
    (includes : outer.Includes rounds job) (includes' : outer'.Includes rounds other) :
    job.Comparable rounds gains other := by
  rcases listed.becomes_of_includes includes with ⟨begins, ends⟩
  rcases listed'.becomes_of_includes includes' with ⟨begins', ends'⟩
  rcases inOrder with before | after
  · exact .before (ends.trans (before.trans begins'))
  · exact .after (ends'.trans (after.trans begins))

/-- Any two jobs that are included in one can be compared. -/
theorem comparable (listed : job.Listed rounds gains) (includes : job.Includes rounds next)
    (includes' : job.Includes rounds other) : next.Comparable rounds gains other := by
  induction includes using Relation.ReflTransGen.head_induction_on with
  | refl => exact .includes includes'
  | head starts rest ih =>
      rcases includes'.cases_head with rfl | ⟨first, starts', rest'⟩
      · exact .included (.head starts rest)
      · rcases listed.visits.eq_or_becomes (fun _ => listed.of_starts) starts starts' with
          rfl | inOrder
        · exact ih (listed.of_starts starts) rest'
        · exact (listed.of_starts starts).comparable_of_becomes (listed.of_starts starts') inOrder
            rest rest'

end Job.Listed

theorem performs_iff {limits : Limits} {statements : List Stmt} {scope : ScopeId}
    {machine : Machine} {job : Job} :
    Performs limits statements scope machine job ↔
      ∃ first, InSequence limits.rounds limits.depth statements { machine with current := scope }
        first ∧ first.Includes limits.rounds job := by
  constructor
  · rintro ⟨before, statement, after, between, isSplit, beforeRan, includes⟩
    exact ⟨_, ⟨before, statement, after, between, isSplit, beforeRan, rfl⟩, includes⟩
  · rintro ⟨first, ⟨before, statement, after, between, isSplit, beforeRan, rfl⟩, includes⟩
    exact ⟨before, statement, after, between, isSplit, beforeRan, includes⟩

/-- Any two jobs of a run can be compared. -/
theorem Performs.comparable {limits : Limits} {statements : List Stmt} {scope : ScopeId}
    {machine : Machine} {gains : ScopeId → String → Nat → Prop} {job other : Job}
    (listed : ∀ job, Performs limits statements scope machine job →
      job.Listed limits.rounds gains)
    (performs : Performs limits statements scope machine job)
    (performs' : Performs limits statements scope machine other) :
    job.Comparable limits.rounds gains other := by
  rcases performs_iff.1 performs with ⟨first, isFirst, includes⟩
  rcases performs_iff.1 performs' with ⟨first', isFirst', includes'⟩
  have visits : Visits limits.rounds gains (InSequence limits.rounds limits.depth statements
      { machine with current := scope }) _ _ _ := .sequence _ fun _ inSequence => inSequence
  have isListed (first : Job) (inSequence : InSequence limits.rounds limits.depth statements
      { machine with current := scope } first) : first.Listed limits.rounds gains :=
    listed first (performs_iff.2 ⟨first, inSequence, .refl⟩)
  rcases visits.eq_or_becomes isListed isFirst isFirst' with rfl | inOrder
  · exact (isListed first isFirst).comparable includes includes'
  · exact (isListed first isFirst).comparable_of_becomes (isListed first' isFirst') inOrder includes
      includes'

end Scriptlet
