import Scriptlet.Proofs.Jobs
import Scriptlet.Proofs.ScopeGraph

/-!
# Scopes in every run

Whatever programs are run one after the other, and however they end, the scopes form a forest, no
scope ever gets another parent, and the scope of every function is there. So it is also in the
middle of a run: whenever an expression is evaluated or a statement is executed, before and after
(`Machine.Reachable.scopeForest`).
-/

namespace Scriptlet

/--
What holds of the scopes of a machine. The way out of each scope ends at a scope without a parent
and meets no scope twice, and walking it takes no more steps than it has scopes.
-/
structure Machine.ScopeForest (machine : Machine) : Prop where
  paths : ∀ {id}, machine.store.Has id → ∃ path, machine.store.Path id path ∧ path.Nodup ∧
    machine.store.chain id = path ∧
    ∀ steps, path.length ≤ steps → machine.store.chainUpTo steps id = path
  members : ∀ {id member}, machine.store.Has id → member ∈ machine.store.chain id →
    machine.store.Has member
  closures : ∀ {id scope name closure}, machine.store.scope? id = some scope →
    scope.find? name = some (.function closure) → machine.store.Has closure.scope
  current : machine.store.Has machine.current
  globals : machine.store.Has machine.globals

/-- What can be done with a machine from outside: to supply a scope, and to run statements. -/
inductive Machine.Leads : Machine → Machine → Prop
  | supply {machine : Machine} {scope : Scope} (isRoot : scope.parent = none)
      (live : ∀ name value, scope.find? name = some value → value.LivesIn machine.store) :
      Leads machine { machine with store := (machine.store.create scope).2 }
  | finish {machine after : Machine} {limits : Limits} {statements : List Stmt} {id : ScopeId}
      {scope : Scope} {error : Option RuntimeError} (isScope : machine.store.scope? id = some scope)
      (isRoot : scope.parent = none)
      (ran : interpret limits statements id machine = .ok error after) : Leads machine after
  /-- The run comes to an end because a limit is exceeded. -/
  | exceed {machine after : Machine} {limits : Limits} {statements : List Stmt} {id : ScopeId}
      {scope : Scope} {stop : Stop} (isScope : machine.store.scope? id = some scope)
      (isRoot : scope.parent = none)
      (ran : interpret limits statements id machine = .error stop after) : Leads machine after

/-- The machines that one can come to, beginning with one that has not run anything. -/
def Machine.Reachable (machine : Machine) : Prop :=
  Relation.ReflTransGen Machine.Leads .initial machine

namespace Machine

variable {machine after : Machine}

theorem WellFormed.forest (wellFormed : machine.WellFormed) : machine.ScopeForest := by
  have paths {id : Nat} (has : machine.store.Has id) : ∃ path, machine.store.Path id path ∧
      path.Nodup ∧ machine.store.chain id = path ∧
      ∀ steps, path.length ≤ steps → machine.store.chainUpTo steps id = path := by
    rcases wellFormed.store.ordered.exists_path has with ⟨path, isPath⟩
    rcases wellFormed.store.ordered.pairwise_path isPath with ⟨ordered, _, _⟩
    exact ⟨path, isPath, ordered.imp Nat.ne_of_gt, wellFormed.store.ordered.chain_eq isPath,
      fun steps => isPath.chainUpTo_eq⟩
  constructor
  · exact paths
  · intro id member has isMember
    rcases paths has with ⟨path, isPath, _, isChain, _⟩
    exact isPath.has member (isChain ▸ isMember)
  · intro id scope name closure isScope isBound
    exact wellFormed.store.lives _ _ _ _ isScope isBound
  · exact wellFormed.current
  · exact wellFormed.globals

theorem wellFormed_initial : initial.WellFormed := by
  have hasFirst : initial.store.Has 0 := ⟨⟨none, []⟩, rfl⟩
  refine ⟨⟨?_, Store.allBound_initial _⟩, hasFirst, hasFirst⟩
  intro id parent scope isScope isParent
  cases id with
  | zero =>
      cases isScope
      contradiction
  | succ id => contradiction

/-- Running statements in a scope that is there keeps machines well formed. -/
theorem WellFormed.interpret (wellFormed : machine.WellFormed) (limits : Limits)
    (statements : List Stmt) {scope : ScopeId} (has : machine.store.Has scope) :
    (Invariant.scopes machine.store).Ends (fun _ _ => True) machine
      (interpret limits statements scope machine) := by
  have begun : (Invariant.scopes machine.store).Holds { machine with current := scope } :=
    ⟨⟨wellFormed.store, has, wellFormed.globals⟩, .refl _⟩
  apply (Invariant.scopes machine.store).interpret limits
    (fun statement _ => statement.fits_of_all fun _ _ => trivial) begun
  intro after holds grows
  exact ⟨⟨⟨holds.1.store, holds.2.has wellFormed.current, holds.1.globals⟩, holds.2⟩, grows.1, rfl,
    grows.2.2⟩

theorem Leads.wellFormed (leads : machine.Leads after) (wellFormed : machine.WellFormed) :
    after.WellFormed ∧ after.store.Extends machine.store := by
  cases leads with
  | @supply scope isRoot live =>
      have isExtension := Store.Extends.create machine.store scope
      refine ⟨⟨wellFormed.store.create ?_ live, isExtension.has wellFormed.current,
        isExtension.has wellFormed.globals⟩, isExtension⟩
      simp [isRoot]
  | finish isScope _ ran =>
      rcases (wellFormed.interpret _ _ ⟨_, isScope⟩).of_ok ran with ⟨holds, _, _⟩
      exact holds
  | exceed isScope _ ran =>
      rcases (wellFormed.interpret _ _ ⟨_, isScope⟩).of_error ran with ⟨holds, _⟩
      exact holds

theorem wellFormed_of_leads (wellFormed : machine.WellFormed)
    (leads : Relation.ReflTransGen Leads machine after) :
    after.WellFormed ∧ after.store.Extends machine.store := by
  induction leads with
  | refl => exact ⟨wellFormed, .refl _⟩
  | tail _ step ih =>
      rcases step.wellFormed ih.1 with ⟨stillWellFormed, isExtension⟩
      exact ⟨stillWellFormed, isExtension.trans ih.2⟩

end Machine

/-- A job that starts with a well-formed machine leaves one, and its value lives there. -/
theorem Job.Sound.result {start : Store} {job : Job} (sound : job.Sound (.scopes start))
    (rounds : Nat) :
    (Invariant.scopes start).Holds (job.result rounds).2 ∧
    ∀ value ∈ (job.result rounds).1, value.LivesIn (job.result rounds).2.store := by
  rcases job with ⟨depth, task, machine⟩
  rcases sound with ⟨holds, fits⟩
  cases task with
  | evaluate expr =>
      have ends := (Invariant.scopes start).evaluate rounds depth fits machine holds
      simp only [Job.result]
      generalize expr.evaluate rounds depth machine = result at ends
      cases ends with
      | ok holds _ lives =>
          refine ⟨holds, ?_⟩
          rintro _ ⟨⟩
          exact lives
      | error holds _ => exact ⟨holds, by simp⟩
  | execute statement =>
      have ends := (Invariant.scopes start).execute rounds depth fits machine holds
      simp only [Job.result]
      generalize statement.execute rounds depth machine = result at ends
      cases ends with
      | @ok flow _ holds _ isGood =>
          cases flow with
          | next => exact ⟨holds, by simp⟩
          | returned value =>
              refine ⟨holds, ?_⟩
              rintro _ ⟨⟩
              exact isGood
      | error holds _ => exact ⟨holds, by simp⟩

/--
Scopes form a forest in every machine that one can come to, and no scope ever gets another parent.
The same holds whenever something is done in a run, before and after it: as long as it lasts, the
scopes that were there keep their parents. The scope of a function that is given there as a value,
be it returned or passed on, is there.
-/
theorem Machine.Reachable.scopeForest {machine : Machine} (reachable : machine.Reachable) :
    machine.ScopeForest ∧
    (∀ later, Relation.ReflTransGen Machine.Leads machine later →
      later.store.Extends machine.store) ∧
    ∀ limits statements id scope job, machine.store.scope? id = some scope →
      Performs limits statements id machine job →
      job.machine.ScopeForest ∧ job.machine.store.Extends machine.store ∧
      (job.result limits.rounds).2.ScopeForest ∧
      (∀ value ∈ (job.result limits.rounds).1,
        value.LivesIn (job.result limits.rounds).2.store) ∧
      ∀ other, job.Includes limits.rounds other →
        other.machine.store.Extends job.machine.store ∧
        (other.result limits.rounds).2.store.Extends job.machine.store := by
  have wellFormed := (wellFormed_of_leads wellFormed_initial reachable).1
  refine ⟨wellFormed.forest, fun later leads => (wellFormed_of_leads wellFormed leads).2, ?_⟩
  intro limits statements id scope job isScope performs
  have begun : (Invariant.scopes machine.store).Holds { machine with current := id } :=
    ⟨⟨wellFormed.store, ⟨scope, isScope⟩, wellFormed.globals⟩, .refl _⟩
  have sound := performs.sound begun fun statement _ => statement.fits_of_all fun _ _ => trivial
  rcases sound.result limits.rounds with ⟨holds, lives⟩
  refine ⟨sound.holds.1.forest, sound.holds.2, holds.1.forest, lives, ?_⟩
  intro other includes
  -- The job is looked at as a run of its own, which begins with the job's own store.
  have ownSound : job.Sound (.scopes job.machine.store) := ⟨⟨sound.holds.1, .refl _⟩, sound.fits⟩
  have otherSound := ownSound.includes includes
  exact ⟨otherSound.holds.2, (otherSound.result limits.rounds).1.2⟩

/-- After `fun f() { return f; } { var g = f(); }` there are scopes of the block and the call. -/
theorem Machine.Reachable.scopeForest_call :
    let name := fun lexeme => Token.mk .identifier lexeme .null 1
    let token := fun kind => Token.mk kind "" .null 1
    let body := [Stmt.ret (token .kwReturn) (some (.read (name "f")))]
    let statements := [Stmt.function (name "f") [] body,
      .block [.declare (name "g") (some (.call (.read (name "f")) (token .rightParen) []))]]
    let function := Value.function ⟨name "f", [], body, 0, 0⟩
    let machine : Machine := ⟨⟨#[⟨none, [("f", function)]⟩, ⟨some 0, [("g", function)]⟩,
      ⟨some 0, []⟩]⟩, 0, 0, 1, ""⟩
    interpret ⟨9, 9⟩ statements 0 .initial = .ok none machine ∧ machine.Reachable ∧
    machine.ScopeForest := by
  intro name token body statements function machine
  have ran : interpret ⟨9, 9⟩ statements 0 .initial = .ok none machine := rfl
  have isScope : Machine.initial.store.scope? 0 = some ⟨none, []⟩ := rfl
  have reachable : machine.Reachable := .single (.finish isScope rfl ran)
  exact ⟨ran, reachable, (Machine.Reachable.scopeForest reachable).1⟩

end Scriptlet
