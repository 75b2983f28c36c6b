import Scriptlet.Grammar.Statement
import Scriptlet.Proofs.Calls
import Scriptlet.Proofs.ScopeChain
import Scriptlet.Scan

/-!
# Variables of functions

A variable in the body of a function belongs to a scope that is made by the call, or else to one on
the chain of the scope in which the function was declared. Names are looked up as they are needed,
and the scopes around a function may gain names after the function was declared and even after it
was called. So two calls of a function may find a variable in different scopes.

As long as it enters no other function, the body of a function runs inside of the scope of the call
(`Run.Call.mem_chain_of_own`). During a call no scope that is older than the call gains a name
(`Invariant.recent`). A variable is therefore found where the function's own scope sees it when the
call begins, and it is found there again in a later call, unless it has been declared in between in
a nearer scope of the chain (`Run.Call.Lookup.resolve_later`).
-/

namespace Scriptlet

open Eval

/-- That a job looks up a variable, to read it or to assign to it, and with which machine. -/
inductive Job.LooksUp (rounds : Nat) : Job → Token → Machine → Prop
  | read {depth : Nat} {name : Token} {machine : Machine} :
      LooksUp rounds ⟨depth + 1, .evaluate (.read name), machine⟩ name machine
  | assign {depth : Nat} {name : Token} {expr : Expr} {value : Value} {machine after : Machine}
      (ran : expr.evaluate rounds depth machine = .ok value after) :
      LooksUp rounds ⟨depth + 1, .evaluate (.assign name expr), machine⟩ name after

theorem Job.LooksUp.holds {invariant : Invariant} {rounds : Nat} {job : Job} {name : Token}
    {found : Machine} (looksUp : job.LooksUp rounds name found) (sound : job.Sound invariant) :
    invariant.Holds found := by
  rcases sound with ⟨holds, fits⟩
  cases looksUp with
  | read => exact holds
  | assign ran =>
      cases fits with
      | assign _ valueFits => exact Invariant.holds_of_evaluate valueFits holds ran

/--
What runs in scopes that are newer than a store binds no new names in the scopes of the store.
-/
def Invariant.recent (store : Store) : Invariant where
  Holds machine := store.scopes.size ≤ machine.current ∧
    store.scopes.size ≤ machine.store.scopes.size ∧
    ∀ id name, store.Has id → machine.store.binds id name = store.binds id name
  Valid _ _ := True
  Grows _ _ := True
  refl _ := trivial
  trans _ _ := trivial
  constant _ _ := trivial
  mono _ _ := trivial
  code _ statement _ := statement.fits_of_all fun _ _ => trivial
  bound _ _ := trivial
  print _ holds := ⟨holds, trivial⟩
  define {machine value} name holds _ := by
    rcases holds with ⟨isNew, grown, same⟩
    refine ⟨⟨isNew, by simpa [Store.define] using grown, fun id other has => ?_⟩, trivial⟩
    have differs : id ≠ machine.current := Nat.ne_of_lt ((Store.has_iff.1 has).trans_le isNew)
    rw [← same id other has, Bool.eq_iff_iff, Store.binds_define]
    simp [differs]
  assign {machine name value after} holds _ assigned := by
    rcases holds with ⟨isNew, grown, same⟩
    rcases Store.exists_of_assign_eq_ok assigned with ⟨owner, resolved, rfl⟩
    refine ⟨⟨isNew, by simpa [Store.define] using grown, fun id other has => ?_⟩, trivial⟩
    rw [← same id other has, Bool.eq_iff_iff, Store.binds_define]
    constructor
    · rintro (isBound | ⟨_, rfl, rfl⟩)
      · exact isBound
      · exact Store.binds_of_resolve resolved
    · exact .inl
  close _ _ _ holds _ := ⟨holds, trivial, trivial⟩
  enter {machine scope} holds _ := by
    rcases holds with ⟨_, grown, same⟩
    refine ⟨grown, ?_, fun id name has => ?_⟩
    · exact grown.trans (Store.Extends.create ..).size_le
    · have isOld : machine.store.Has id :=
        Store.has_iff.2 ((Store.has_iff.1 has).trans_le grown)
      exact (Store.binds_create_of_has isOld scope name).trans (same id name has)
  leave holds _ after _ := ⟨⟨holds.1, after.2⟩, trivial, fun _ _ => trivial⟩

namespace Store

variable {store : Store} {id : ScopeId}

/-- The way outwards from a scope goes on from each scope on it as it does from that one. -/
theorem Path.exists_of_mem {path : List ScopeId} (isPath : store.Path id path) {member : ScopeId}
    (isMember : member ∈ path) :
    ∃ nearer further, path = nearer ++ further ∧ store.Path member further := by
  induction isPath with
  | root isScope isRoot =>
      cases List.mem_singleton.1 isMember
      exact ⟨[], _, rfl, .root isScope isRoot⟩
  | link isScope isParent rest ih =>
      rcases List.mem_cons.1 isMember with rfl | isMember
      · exact ⟨[], _, rfl, .link isScope isParent rest⟩
      · rcases ih isMember with ⟨nearer, further, rfl, isPath⟩
        exact ⟨_ :: nearer, further, rfl, isPath⟩

theorem Path.mem_start {path : List ScopeId} (isPath : store.Path id path) : id ∈ path := by
  cases isPath with
  | root => exact List.mem_singleton_self _
  | link => exact List.mem_cons_self

theorem resolve_eq_ok_iff {name : Token} {owner : ScopeId} :
    store.resolve id name = .ok owner ↔ store.owner? id name.lexeme = some owner := by
  unfold resolve
  split <;> simp_all

theorem Extends.chain_eq {after : Store} (isExtension : after.Extends store)
    (ordered : store.Ordered) (ordered' : after.Ordered) (has : store.Has id) :
    after.chain id = store.chain id :=
  ordered'.chain_eq (isExtension.path (ordered.path_chain has))

end Store

/-- That a job starts another one without entering a function. -/
def Job.Continues (rounds : Nat) (job next : Job) : Prop :=
  job.Starts rounds next ∧
    ∀ expr statement, job.task = .evaluate expr → next.task ≠ .execute statement

theorem Job.includes_of_own {rounds : Nat} {job next : Job}
    (own : Relation.ReflTransGen (Continues rounds) job next) : job.Includes rounds next :=
  Relation.ReflTransGen.mono (fun _ _ continues => continues.1) _ _ own

theorem Eval.Restores.current_of_ok {α : Type} {action : Eval α} (restores : Restores action)
    {machine after : Machine} {value : α} (ran : action machine = .ok value after) :
    after.current = machine.current := by
  have same := (restores machine).1
  rw [ran] at same
  exact same

section OwnCode

variable {rounds depth : Nat} {machine after : Machine}

theorem Expr.current_of_evaluate {expr : Expr} {value : Value}
    (ran : expr.evaluate rounds depth machine = .ok value after) :
    after.current = machine.current := by
  have frames : Frames (fun _ => False) _ := expr.evaluate_frames rounds depth
  exact frames.restores.current_of_ok ran

theorem Stmt.frames_anything (statement : Stmt) :
    Frames (fun _ => True) (statement.execute rounds depth) :=
  (statement.execute_frames rounds depth).mono fun _ _ => trivial

theorem Eval.current_of_arguments {arguments : List Expr} {values : List Value}
    (ran : forEach (Expr.evaluate rounds depth) arguments machine = .ok values after) :
    after.current = machine.current := by
  have frames : Frames (fun _ => False) _ :=
    .forEach (Expr.evaluate_frames rounds depth) arguments
  exact frames.restores.current_of_ok ran

theorem Eval.current_of_sequence {statements : List Stmt} {flow : Flow}
    (ran : sequence (Stmt.execute rounds depth) statements machine = .ok flow after) :
    after.current = machine.current :=
  (Frames.sequence Stmt.frames_anything statements).restores.current_of_ok ran

theorem Eval.Repeats.current_eq {condition : Expr} {body : Stmt} {count : Nat}
    (repeats : Repeats (condition.evaluate rounds depth) (body.execute rounds depth) count machine
      after) : after.current = machine.current := by
  induction repeats with
  | start machine => rfl
  | again tests _ runs _ ih =>
      rw [ih, body.frames_anything.restores.current_of_ok runs, Expr.current_of_evaluate tests]

end OwnCode

/-- A job goes on in the current scope, or else in the scope of a block that it has entered. -/
theorem Job.Continues.current_eq {rounds : Nat} {job next : Job}
    (continues : job.Continues rounds next) :
    next.machine.current = job.machine.current ∨
    ∃ statements flow, sequence (Stmt.execute rounds next.depth) statements
      (job.machine.enter ⟨some job.machine.current, []⟩) = .ok flow next.machine := by
  rcases continues with ⟨starts, notBody⟩
  cases starts with
  | grouping | operand | left | first | assigned | callee | expression | printed | initializer
  | returned | ifCondition | ifElseCondition => exact .inl rfl
  | right leftRan => exact .inl (Expr.current_of_evaluate leftRan)
  | second leftRan _ => exact .inl (Expr.current_of_evaluate leftRan)
  | argument calleeRan beforeRan =>
      exact .inl ((current_of_arguments beforeRan).trans (Expr.current_of_evaluate calleeRan))
  | body => exact absurd rfl (notBody _ _ rfl)
  | inBlock beforeRan => exact .inr ⟨_, _, beforeRan⟩
  | ifBranch conditionRan _ => exact .inl (Expr.current_of_evaluate conditionRan)
  | ifElseBranch conditionRan => exact .inl (Expr.current_of_evaluate conditionRan)
  | loopCondition _ repeats => exact .inl repeats.current_eq
  | loopBody _ repeats conditionRan _ =>
      exact .inl ((Expr.current_of_evaluate conditionRan).trans repeats.current_eq)

namespace Machine.WellFormed

variable {machine after : Machine} {id : ScopeId}

/-- A scope that lies around the current one still does when there are more scopes. -/
theorem mem_chain_of_extends (wellFormed : machine.WellFormed) (stillWellFormed : after.WellFormed)
    (isExtension : after.store.Extends machine.store) (same : after.current = machine.current)
    (inside : id ∈ machine.store.chain machine.current) :
    id ∈ after.store.chain after.current := by
  rw [same, isExtension.chain_eq wellFormed.store.ordered stillWellFormed.store.ordered
    wellFormed.current]
  exact inside

theorem mem_chain_of_sequence {rounds depth : Nat} {statements : List Stmt} {flow : Flow}
    (wellFormed : machine.WellFormed)
    (ran : sequence (Stmt.execute rounds depth) statements machine = .ok flow after)
    (inside : id ∈ machine.store.chain machine.current) :
    id ∈ after.store.chain after.current := by
  have begun : (Invariant.scopes machine.store).Holds machine := ⟨wellFormed, .refl _⟩
  rcases Invariant.holds_of_sequence (fun statement _ => statement.fits_of_all fun _ _ => trivial)
    begun ran with ⟨stillWellFormed, isExtension⟩
  exact wellFormed.mem_chain_of_extends stillWellFormed isExtension (current_of_sequence ran) inside

/-- The scope of a block lies inside of the current one. -/
theorem mem_chain_enter (wellFormed : machine.WellFormed)
    (entered : (machine.enter ⟨some machine.current, []⟩).WellFormed)
    (inside : id ∈ machine.store.chain machine.current) :
    id ∈ (machine.enter ⟨some machine.current, []⟩).store.chain machine.store.scopes.size := by
  have isPath : (machine.enter ⟨some machine.current, []⟩).store.Path machine.store.scopes.size
      (machine.store.scopes.size :: machine.store.chain machine.current) :=
    .link (Store.scope?_create_self ..) rfl
      ((Store.Extends.create ..).path (wellFormed.store.ordered.path_chain wellFormed.current))
  rw [entered.store.ordered.chain_eq isPath]
  exact List.mem_cons_of_mem _ inside

end Machine.WellFormed

namespace Job.Sound

variable {rounds : Nat} {start : Store} {job next : Job} {id : ScopeId}
  (sound : job.Sound (.scopes start))

include sound

/-- A job may be looked at as a run of its own, which begins with the scopes that the job finds. -/
theorem fresh : job.Sound (.scopes job.machine.store) :=
  ⟨⟨sound.holds.1, .refl _⟩, sound.fits⟩

/-- A job that enters no function stays inside of the scopes that it is in. -/
theorem mem_chain_of_continues (continues : job.Continues rounds next)
    (inside : id ∈ job.machine.store.chain job.machine.current) :
    id ∈ next.machine.store.chain next.machine.current := by
  rcases (sound.fresh.starts continues.1).holds with ⟨wellFormed, isExtension⟩
  rcases continues.current_eq with same | ⟨statements, flow, ran⟩
  · exact sound.holds.1.mem_chain_of_extends wellFormed isExtension same inside
  · have entered := ((Invariant.scopes start).enter sound.holds .block).1
    exact entered.mem_chain_of_sequence ran (sound.holds.1.mem_chain_enter entered inside)

theorem mem_chain_of_own (own : Relation.ReflTransGen (Continues rounds) job next)
    (inside : id ∈ job.machine.store.chain job.machine.current) :
    next.Sound (.scopes start) ∧ id ∈ next.machine.store.chain next.machine.current := by
  induction own with
  | refl => exact ⟨sound, inside⟩
  | tail _ continues ih =>
      exact ⟨ih.1.starts continues.1, ih.1.mem_chain_of_continues continues ih.2⟩

theorem mem_chain_of_looksUp {name : Token} {found : Machine}
    (looksUp : job.LooksUp rounds name found)
    (inside : id ∈ job.machine.store.chain job.machine.current) :
    id ∈ found.store.chain found.current := by
  rcases looksUp.holds sound.fresh with ⟨wellFormed, isExtension⟩
  refine sound.holds.1.mem_chain_of_extends wellFormed isExtension ?_ inside
  cases looksUp with
  | read => rfl
  | assign ran => exact Expr.current_of_evaluate ran

end Job.Sound

/--
The first of some scopes that has a name, when scopes may have gained it. It is the same scope as
before if none of the nearer ones has gained the name, and else one of those.
-/
theorem find?_of_gains {scopes : List ScopeId} {owner : ScopeId} {binds gained : ScopeId → Bool}
    (found : scopes.find? binds = some owner) (keeps : ∀ id, binds id = true → gained id = true) :
    ∃ owner', scopes.find? gained = some owner' ∧
      (owner' = owner ∧ (∀ id ∈ scopes.takeWhile (· ≠ owner), gained id = false) ∨
        owner' ∈ scopes.takeWhile (· ≠ owner) ∧ gained owner' = true ∧ binds owner' = false) := by
  induction scopes with
  | nil => simp at found
  | cons id scopes ih =>
      by_cases isBound : binds id = true
      · have isOwner : id = owner := by simpa [isBound] using found
        exact ⟨id, by simp [keeps id isBound], .inl ⟨isOwner, by simp [isOwner]⟩⟩
      · rw [List.find?_cons_of_neg isBound] at found
        have differs : id ≠ owner := by
          rintro rfl
          exact isBound (List.find?_some found)
        rw [List.takeWhile_cons_of_pos (by simpa using differs)]
        by_cases isGained : gained id = true
        · exact ⟨id, by simp [isGained], .inr ⟨by simp, isGained, by simpa using isBound⟩⟩
        · rcases ih found with ⟨owner', isFound, same | ⟨isNearer, isNew⟩⟩
          · refine ⟨owner', by simpa [isGained] using isFound, .inl ⟨same.1, ?_⟩⟩
            exact List.forall_mem_cons.2 ⟨by simpa using isGained, same.2⟩
          · exact ⟨owner', by simpa [isGained] using isFound,
              .inr ⟨List.mem_cons_of_mem _ isNearer, isNew⟩⟩

namespace Run.Call

variable {run : Run}

/--
A variable that is looked up in a call, while the body of the function runs, and in a scope that is
the one of the call or lies inside of it.
-/
structure Lookup (call : run.Call) where
  job : Job
  name : Token
  machine : Machine
  during : Performs ⟨call.depth, run.limits.rounds⟩ call.closure.body call.scope call.entered job
  looksUp : job.LooksUp run.limits.rounds name machine
  inside : call.scope ∈ machine.store.chain machine.current

/-- The body of a function runs inside of the scope of the call, until it enters a function. -/
theorem mem_chain_of_own {call : run.Call} {first job : Job}
    (begins : InSequence run.limits.rounds call.depth call.closure.body call.entered first)
    (own : Relation.ReflTransGen (Job.Continues run.limits.rounds) first job) :
    job.Sound (.scopes call.entered.store) ∧
      call.scope ∈ job.machine.store.chain job.machine.current := by
  rcases begins with ⟨before, statement, after, between, _, beforeRan, rfl⟩
  have entered := call.wellFormed.2.2
  have sound : Job.Sound (.scopes call.entered.store) ⟨call.depth, .execute statement, between⟩ :=
    .of_sequence ⟨entered, .refl _⟩
      (fun other (_ : other ∈ before ++ statement :: after) =>
        other.fits_of_all fun _ _ => trivial) beforeRan
  have isPath := entered.store.ordered.path_chain entered.current
  exact sound.mem_chain_of_own own (entered.mem_chain_of_sequence beforeRan isPath.mem_start)

/-- What the body of a function looks up by itself, and not in a function that it calls. -/
def Lookup.own (call : run.Call) {first job : Job} {name : Token} {machine : Machine}
    (begins : InSequence run.limits.rounds call.depth call.closure.body call.entered first)
    (own : Relation.ReflTransGen (Job.Continues run.limits.rounds) first job)
    (looksUp : job.LooksUp run.limits.rounds name machine) : call.Lookup where
  job := job
  name := name
  machine := machine
  during := performs_iff.2 ⟨first, begins, Job.includes_of_own own⟩
  looksUp := looksUp
  inside := by
    rcases mem_chain_of_own begins own with ⟨sound, inside⟩
    exact sound.mem_chain_of_looksUp looksUp inside

/-- The variable that a function looks up which first of all prints it. -/
def Lookup.printed (call : run.Call) {depth : Nat} {name : Token} {rest : List Stmt}
    (isDepth : call.depth = depth + 2)
    (isBody : call.closure.body = .print (.read name) :: rest) : call.Lookup :=
  have continues : Job.Continues run.limits.rounds
      ⟨call.depth, .execute (.print (.read name)), call.entered⟩
      ⟨depth + 1, .evaluate (.read name), call.entered⟩ := by
    rw [isDepth]
    exact ⟨.printed, by simp⟩
  .own call ⟨[], _, rest, _, isBody, rfl, rfl⟩ (.single continues) .read

/-- A call without arguments, of a function that is found under a name. -/
def named {depth : Nat} {name paren : Token} {machine : Machine} {closure : Closure}
    (does : run.Does ⟨depth + 2, .evaluate (.call (.read name) paren []), machine⟩)
    (found : Eval.lookup name machine = .ok (.function closure) machine)
    (fits : 0 = closure.arity) : run.Call where
  depth := depth + 1
  callee := .read name
  paren := paren
  arguments := []
  closure := closure
  values := []
  machine := machine
  called := machine
  ready := machine
  does := does
  calleeRan := by
    rw [Expr.evaluate]
    exact found
  argumentsRan := rfl
  fits := fits

namespace Lookup

variable {call : run.Call} (lookup : call.Lookup)

/-- The scope that the variable belongs to. -/
def resolve : Except RuntimeError ScopeId :=
  lookup.machine.store.resolve lookup.machine.current lookup.name

theorem holds {invariant : Invariant} (holds : invariant.Holds call.entered)
    (fits : ∀ statement ∈ call.closure.body, statement.Fits invariant.Allows) :
    invariant.Holds lookup.machine :=
  lookup.looksUp.holds (lookup.during.sound holds fits)

theorem wellFormed :
    lookup.machine.WellFormed ∧ lookup.machine.store.Extends call.entered.store := by
  have begun : (Invariant.scopes call.entered.store).Holds call.entered :=
    ⟨call.wellFormed.2.2, .refl _⟩
  exact lookup.holds begun fun statement _ => statement.fits_of_all fun _ _ => trivial

/-- During a call, the scopes that are older than the call bind the same names. -/
theorem binds_eq {id : ScopeId} (has : call.ready.store.Has id) (name : String) :
    lookup.machine.store.binds id name = call.ready.store.binds id name := by
  have begun : (Invariant.recent call.ready.store).Holds call.entered := by
    refine ⟨Nat.le_refl _, (Store.Extends.create ..).size_le, fun id name has => ?_⟩
    exact Store.binds_create_of_has has _ name
  have holds := lookup.holds begun fun statement _ => statement.fits_of_all fun _ _ => trivial
  exact holds.2.2 id name has

/-- The chain that a variable is looked up on leads through scopes of the call to the function's. -/
theorem exists_chain_eq :
    ∃ inner, (∀ id ∈ inner, call.scope ≤ id) ∧
      lookup.machine.store.chain lookup.machine.current =
        inner ++ call.ready.store.chain call.closure.scope := by
  rcases call.wellFormed with ⟨ready, has, _⟩
  rcases lookup.wellFormed with ⟨wellFormed, isExtension⟩
  have ordered := wellFormed.store.ordered
  -- The scope of the call has the scope of the function as its parent.
  have isPath : call.entered.store.Path call.scope
      (call.scope :: call.ready.store.chain call.closure.scope) :=
    .link (Store.scope?_create_self ..) (parent_callScope ..)
      ((Store.Extends.create ..).path (ready.store.ordered.path_chain has))
  have whole := ordered.path_chain wellFormed.current
  rcases whole.exists_of_mem lookup.inside with ⟨nearer, further, isSplit, isFurther⟩
  obtain rfl := (ordered.chain_eq isFurther).symm.trans (ordered.chain_eq (isExtension.path isPath))
  refine ⟨nearer ++ [call.scope], ?_, by simp [isSplit]⟩
  have decreasing := (ordered.pairwise_path whole).1
  rw [isSplit, List.pairwise_append] at decreasing
  intro id isMember
  rcases List.mem_append.1 isMember with isNearer | isLast
  · exact Nat.le_of_lt (decreasing.2.2 id isNearer call.scope (by simp))
  · exact Nat.le_of_eq (List.mem_singleton.1 isLast).symm

theorem chain_closure :
    lookup.machine.store.chain call.closure.scope = call.ready.store.chain call.closure.scope := by
  rcases call.wellFormed with ⟨ready, has, _⟩
  rcases lookup.wellFormed with ⟨wellFormed, isExtension⟩
  exact (isExtension.trans (.create ..)).chain_eq ready.store.ordered wellFormed.store.ordered has

theorem chain_has {id : ScopeId} (isMember : id ∈ call.ready.store.chain call.closure.scope) :
    call.ready.store.Has id := by
  rcases call.wellFormed with ⟨ready, has, _⟩
  exact (ready.store.ordered.path_chain has).has id isMember

/-- A variable belongs to a scope of the call, or to the scope where the function itself sees it. -/
theorem exists_owner?_eq :
    ∃ inner : List ScopeId, (∀ id ∈ inner, call.scope ≤ id ∧
        id ∈ lookup.machine.store.chain lookup.machine.current) ∧
      lookup.machine.store.owner? lookup.machine.current lookup.name.lexeme =
        (inner.find? (lookup.machine.store.binds · lookup.name.lexeme)).or
          (call.ready.store.owner? call.closure.scope lookup.name.lexeme) := by
  rcases lookup.exists_chain_eq with ⟨inner, isInner, isChain⟩
  have sameOuter : (call.ready.store.chain call.closure.scope).find?
      (lookup.machine.store.binds · lookup.name.lexeme) =
        call.ready.store.owner? call.closure.scope lookup.name.lexeme :=
    List.find?_congr fun id isMember => lookup.binds_eq (chain_has isMember) _
  refine ⟨inner, fun id isMember => ⟨isInner id isMember, by simp [isChain, isMember]⟩, ?_⟩
  rw [Store.owner?, isChain, List.find?_append, sameOuter]

/-- A variable that belongs to a scope around the function is where the function itself sees it. -/
theorem owner?_of_outer {owner : ScopeId} (resolved : lookup.resolve = .ok owner)
    (isOuter : owner ∈ lookup.machine.store.chain call.closure.scope) :
    call.ready.store.owner? call.closure.scope lookup.name.lexeme = some owner := by
  rcases lookup.exists_owner?_eq with ⟨inner, isInner, isOwner⟩
  rw [Store.resolve_eq_ok_iff.1 resolved] at isOwner
  rw [chain_closure] at isOuter
  cases isFound : inner.find? (lookup.machine.store.binds · lookup.name.lexeme) with
  | none =>
      rw [isFound, Option.none_or] at isOwner
      exact isOwner.symm
  | some id =>
      -- The scopes around the function are older than the call.
      rw [isFound, Option.some_or] at isOwner
      cases isOwner
      have isNew := (isInner owner (List.mem_of_find?_eq_some isFound)).1
      have isOld := Store.has_iff.1 (chain_has isOuter)
      exact absurd isOld (Nat.not_lt.2 isNew)

/-- A variable that no scope of the call binds is where the function itself sees it. -/
theorem owner?_of_free
    (free : ∀ id ∈ lookup.machine.store.chain lookup.machine.current, call.scope ≤ id →
      lookup.machine.store.binds id lookup.name.lexeme = false) :
    lookup.machine.store.owner? lookup.machine.current lookup.name.lexeme =
      call.ready.store.owner? call.closure.scope lookup.name.lexeme := by
  rcases lookup.exists_owner?_eq with ⟨inner, isInner, isOwner⟩
  have notFound : inner.find? (lookup.machine.store.binds · lookup.name.lexeme) = none := by
    rw [List.find?_eq_none]
    intro id isMember
    rcases isInner id isMember with ⟨isNew, isOnChain⟩
    simp [free id isOnChain isNew]
  rw [isOwner, notFound, Option.none_or]

/-- When the body of a function begins, the scope of the call is the only one made by it. -/
theorem free_of_entered (isEntered : lookup.machine = call.entered)
    (isFree : call.entered.store.binds call.scope lookup.name.lexeme = false) :
    ∀ id ∈ lookup.machine.store.chain lookup.machine.current, call.scope ≤ id →
      lookup.machine.store.binds id lookup.name.lexeme = false := by
  rw [isEntered]
  intro id isMember isNew
  have entered := call.wellFormed.2.2
  have isScope := (entered.store.ordered.path_chain entered.current).has id isMember
  rw [Store.has_iff, size_entered] at isScope
  obtain rfl : id = call.scope := Nat.le_antisymm (Nat.le_of_lt_succ isScope) isNew
  exact isFree

/--
A function that is called twice finds a variable in the same scope again, if it was found in a
scope around the function and is not bound by a scope of the later call: unless the variable was
declared in a nearer one of the scopes around the function, after the first call had begun and
before the second did. Then it is found in such a nearer scope.
-/
theorem resolve_later {later : run.Call} (same : later.closure = call.closure)
    (isLater : call.scope < later.scope) (again : later.Lookup)
    (sameName : again.name.lexeme = lookup.name.lexeme) {owner : ScopeId}
    (resolved : lookup.resolve = .ok owner)
    (isOuter : owner ∈ lookup.machine.store.chain call.closure.scope)
    (free : ∀ id ∈ again.machine.store.chain again.machine.current, later.scope ≤ id →
      again.machine.store.binds id again.name.lexeme = false) :
    let nearer := (again.machine.store.chain call.closure.scope).takeWhile (· ≠ owner)
    let declared := fun id => ∃ count, run.Declares id lookup.name.lexeme count ∧
      call.scope < count ∧ count ≤ later.scope
    ∃ owner', again.resolve = .ok owner' ∧
      (owner' = owner ∧ (∀ id ∈ nearer, ¬declared id) ∨ owner' ∈ nearer ∧ declared owner') := by
  intro nearer declared
  have becomes := ready_becomes isLater
  have sameChain : later.ready.store.chain call.closure.scope =
      call.ready.store.chain call.closure.scope := by
    rcases call.wellFormed with ⟨ready, has, _⟩
    exact becomes.scopes.chain_eq ready.store.ordered later.wellFormed.1.store.ordered has
  have isNearer : nearer = (call.ready.store.chain call.closure.scope).takeWhile (· ≠ owner) := by
    rw [← sameChain, ← same, ← again.chain_closure, same]
  have wasOwner := lookup.owner?_of_outer resolved isOuter
  have isOwner := again.owner?_of_free free
  rw [same, sameName, Store.owner?.eq_1 later.ready.store, sameChain] at isOwner
  rcases find?_of_gains wasOwner fun id => becomes.keeps with ⟨owner', isFound, isCase⟩
  rw [← isNearer] at isCase
  refine ⟨owner', Store.resolve_eq_ok_iff.2 ?_, ?_⟩
  · rw [sameName, isOwner, isFound]
  · rcases isCase with ⟨isSame, areFree⟩ | ⟨isNear, isGained, wasFree⟩
    · refine .inl ⟨isSame, ?_⟩
      rintro id isNear ⟨count, declares, _, isBefore⟩
      have isBound := later.binds_of_declares declares isBefore
      simp [areFree id isNear] at isBound
    · have isMember := List.takeWhile_subset _ (isNearer ▸ isNear)
      exact .inr ⟨isNear, exists_declares_of_binds isLater (chain_has isMember) wasFree isGained⟩

/--
In `var a = true; { fun f() { print a; } f(); { var a = false; f(); } }` the variable is declared
anew for the second call, but in a block that is not around the function.
-/
theorem resolve_later_other_block :
    let name := fun lexeme => Token.mk .identifier lexeme .null 1
    let declare := fun value => Stmt.declare (name "a") (some (.literal (.bool value)))
    let function := Stmt.function (name "f") [] [.print (.read (name "a"))]
    let calls := Stmt.expression (.call (.read (name "f")) ⟨.rightParen, ")", .null, 1⟩ [])
    let inner := Stmt.block [declare false, calls]
    ∃ (run : Run) (call later : run.Call) (lookup : call.Lookup) (again : later.Lookup),
      run.statements = [declare true, .block [function, calls, inner]] ∧
      run.machine = .initial ∧ later.closure = call.closure ∧ call.scope < later.scope ∧
      again.name = lookup.name ∧ lookup.resolve = .ok 0 ∧
      lookup.machine.store.chain call.closure.scope = [1, 0] ∧ again.resolve = .ok 0 ∧
      ¬∃ count, run.Declares 1 "a" count ∧ call.scope < count ∧ count ≤ later.scope := by
  intro name declare function calls inner
  let globals : Scope := ⟨none, [("a", .constant (.bool true))]⟩
  let block : Scope :=
    ⟨some 0, [("f", .function ⟨name "f", [], [.print (.read (name "a"))], 1, 0⟩)]⟩
  let begun : Machine := ⟨⟨#[globals]⟩, 0, 0, 0, ""⟩
  let first : Machine := ⟨⟨#[globals, block]⟩, 0, 1, 1, ""⟩
  let between : Machine := ⟨⟨#[globals, block, ⟨some 1, []⟩]⟩, 0, 1, 1, "true\n"⟩
  let second : Machine := ⟨⟨#[globals, block, ⟨some 1, []⟩,
    ⟨some 1, [("a", .constant (.bool false))]⟩]⟩, 0, 3, 1, "true\n"⟩
  have isFirst : Job.Starts 9 ⟨9, .execute (.block ([function] ++ calls :: [inner])), begun⟩
      ⟨8, .execute calls, first⟩ := .inBlock rfl
  have isInner : Job.Starts 9 ⟨9, .execute (.block ([function, calls] ++ inner :: [])), begun⟩
      ⟨8, .execute inner, between⟩ := .inBlock rfl
  have isSecond : Job.Starts 9 ⟨8, .execute (.block ([declare false] ++ calls :: [])), between⟩
      ⟨7, .execute calls, second⟩ := .inBlock rfl
  let run : Run := ⟨⟨9, 9⟩, [declare true, .block [function, calls, inner]], 0, .initial, .refl,
    ⟨_, rfl⟩⟩
  have does : run.Does ⟨9, .execute (.block [function, calls, inner]), begun⟩ :=
    ⟨[declare true], _, [], begun, rfl, rfl, .refl⟩
  let call : run.Call := named (does.includes (.head isFirst (.single .expression))) rfl rfl
  let later : run.Call := named
    (does.includes (.head isInner (.head isSecond (.single .expression)))) rfl rfl
  let lookup : call.Lookup := .printed call rfl rfl
  let again : later.Lookup := .printed later rfl rfl
  have same : later.closure = call.closure := rfl
  have isLater : call.scope < later.scope := (by decide : 2 < 4)
  have resolved : lookup.resolve = .ok 0 := rfl
  have isChain : lookup.machine.store.chain call.closure.scope = [1, 0] := rfl
  have isLaterChain : again.machine.store.chain call.closure.scope = [1, 0] := rfl
  have isFound : again.resolve = .ok 0 := rfl
  rcases lookup.resolve_later same isLater again rfl resolved (by simp [isChain])
    (again.free_of_entered rfl rfl) with ⟨owner', resolved', ⟨_, notDeclared⟩ | ⟨isNear, _⟩⟩
  · rw [isLaterChain] at notDeclared
    exact ⟨run, call, later, lookup, again, rfl, rfl, same, isLater, rfl, resolved, isChain,
      isFound, notDeclared 1 (by decide)⟩
  · cases isFound.symm.trans resolved'
    rw [isLaterChain] at isNear
    exact absurd isNear (by decide)

/--
A function may find a variable in another scope when it is called again, although no scope of the
call binds it: here it has been declared in between, in the block around the function.
-/
theorem later_call_finds_nearer_scope :
    let scanned :=
      scan "var a = true; \x7b fun f() \x7b print a; \x7d f(); var a = false; f(); \x7d"
    scanned.errors = [] ∧
    ∃ (run : Run) (call later : run.Call) (lookup : call.Lookup) (again : later.Lookup),
      parse run.limits.depth scanned.tokens = .ok ⟨run.statements, []⟩ ∧
      run.machine = .initial ∧ later.closure = call.closure ∧ call.scope < later.scope ∧
      again.name = lookup.name ∧ lookup.resolve = .ok 0 ∧
      lookup.machine.store.chain call.closure.scope = [1, 0] ∧
      (∀ id ∈ again.machine.store.chain again.machine.current, later.scope ≤ id →
        again.machine.store.binds id again.name.lexeme = false) ∧
      again.resolve = .ok 1 := by
  let name := fun lexeme => Token.mk .identifier lexeme .null 1
  let token := fun kind lexeme => Token.mk kind lexeme .null 1
  have isScanned :
      scan "var a = true; \x7b fun f() \x7b print a; \x7d f(); var a = false; f(); \x7d" =
        ⟨[token .kwVar "var", name "a", token .equal "=", token .kwTrue "true",
          token .semicolon ";", token .leftBrace "\x7b", token .kwFun "fun", name "f",
          token .leftParen "(", token .rightParen ")", token .leftBrace "\x7b",
          token .kwPrint "print", name "a", token .semicolon ";", token .rightBrace "\x7d",
          name "f", token .leftParen "(", token .rightParen ")", token .semicolon ";",
          token .kwVar "var", name "a", token .equal "=", token .kwFalse "false",
          token .semicolon ";", name "f", token .leftParen "(", token .rightParen ")",
          token .semicolon ";", token .rightBrace "\x7d", .endOfText 1], []⟩ := rfl
  rw [isScanned]
  let declare := fun value => Stmt.declare (name "a") (some (.literal (.bool value)))
  let function := Stmt.function (name "f") [] [.print (.read (name "a"))]
  let calls := Stmt.expression (.call (.read (name "f")) (token .rightParen ")") [])
  let globals : Scope := ⟨none, [("a", .constant (.bool true))]⟩
  let bound : String × Value :=
    ("f", .function ⟨name "f", [], [.print (.read (name "a"))], 1, 0⟩)
  let begun : Machine := ⟨⟨#[globals]⟩, 0, 0, 0, ""⟩
  let first : Machine := ⟨⟨#[globals, ⟨some 0, [bound]⟩]⟩, 0, 1, 1, ""⟩
  let second : Machine := ⟨⟨#[globals, ⟨some 0, [bound, ("a", .constant (.bool false))]⟩,
    ⟨some 1, []⟩]⟩, 0, 1, 1, "true\n"⟩
  have isFirst : Job.Starts 9
      ⟨40, .execute (.block ([function] ++ calls :: [declare false, calls])), begun⟩
      ⟨39, .execute calls, first⟩ := .inBlock rfl
  have isSecond : Job.Starts 9
      ⟨40, .execute (.block ([function, calls, declare false] ++ calls :: [])), begun⟩
      ⟨39, .execute calls, second⟩ := .inBlock rfl
  let run : Run := ⟨⟨40, 9⟩, [declare true, .block [function, calls, declare false, calls]], 0,
    .initial, .refl, ⟨_, rfl⟩⟩
  have does : run.Does ⟨40, .execute (.block [function, calls, declare false, calls]), begun⟩ :=
    ⟨[declare true], _, [], begun, rfl, rfl, .refl⟩
  let call : run.Call := named (does.includes (.head isFirst (.single .expression))) rfl rfl
  let later : run.Call := named (does.includes (.head isSecond (.single .expression))) rfl rfl
  let lookup : call.Lookup := .printed call rfl rfl
  let again : later.Lookup := .printed later rfl rfl
  exact ⟨rfl, run, call, later, lookup, again, rfl, rfl, rfl, (by decide : 2 < 3), rfl, rfl, rfl,
    again.free_of_entered rfl rfl, rfl⟩

end Lookup

end Run.Call

end Scriptlet
