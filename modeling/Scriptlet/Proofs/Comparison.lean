import Mathlib.Data.List.Find
import Scriptlet.Machine
import Scriptlet.Proofs.Correspondence

/-!
# Comparing two runs

Two runs of corresponding programs are compared step by step. What the programs can get at is the
same on both sides, up to the tokens of functions and their serial numbers. What they cannot get at
may be anything and stays as it is.
-/

namespace Scriptlet

/-- What two runs are compared by, and the machines that they start with. -/
structure Comparison where
  left : Machine
  right : Machine
  /-- The ways in which the tokens of a piece of program may correspond. -/
  Accepts : Likeness → Prop
  /-- The scopes that the programs can get at. -/
  Sees : ScopeId → Prop
  /-- Which functions of the two runs are the same, by their serial numbers. -/
  Same : Nat → Nat → Prop
  sees_new : ∀ {id}, left.store.scopes.size ≤ id → Sees id
  same_new : ∀ count, Same (left.functions + count) (right.functions + count)
  same_iff : ∀ {serial serial' other other'}, Same serial serial' → Same other other' →
    (serial = other ↔ serial' = other')

namespace Comparison

variable {comparison : Comparison}

/-- That two functions have corresponding code and the same place. -/
structure Closures (comparison : Comparison) (closure closure' : Closure) : Prop where
  code : ∃ likeness, comparison.Accepts likeness ∧ likeness.Holds closure.name closure'.name ∧
    List.Forall₂ likeness.Holds closure.parameters closure'.parameters ∧
    List.Forall₂ (Stmt.Corresponds likeness) closure.body closure'.body
  scope : closure.scope = closure'.scope
  seen : comparison.Sees closure.scope
  serial : comparison.Same closure.serial closure'.serial

/-- That two values are the same constant or correspond as functions. -/
inductive Values (comparison : Comparison) : Value → Value → Prop
  | constant (value : Constant) : Values comparison (.constant value) (.constant value)
  | function {closure closure' : Closure} (closures : comparison.Closures closure closure') :
      Values comparison (.function closure) (.function closure')

/-- That two scopes bind the same names to corresponding values. -/
structure Scopes (comparison : Comparison) (scope scope' : Scope) : Prop where
  parent : scope.parent = scope'.parent
  seen : ∀ id ∈ scope.parent, comparison.Sees id
  bindings : ∀ name, Option.Rel comparison.Values (scope.find? name) (scope'.find? name)

/-- That two stores have corresponding scopes in sight and are unchanged out of sight. -/
structure Stores (comparison : Comparison) (store store' : Store) : Prop where
  size : store.scopes.size = store'.scopes.size
  grown : comparison.left.store.scopes.size ≤ store.scopes.size
  seen : ∀ {id}, comparison.Sees id →
    Option.Rel comparison.Scopes (store.scope? id) (store'.scope? id)
  unseen : ∀ {id}, ¬comparison.Sees id →
    store.scope? id = comparison.left.store.scope? id ∧
    store'.scope? id = comparison.right.store.scope? id

/-- That two machines with the same current scope have made and printed the same so far. -/
structure Machines (comparison : Comparison) (current : ScopeId) (machine machine' : Machine) :
    Prop where
  stores : comparison.Stores machine.store machine'.store
  currents : machine.current = current ∧ machine'.current = current
  seen : comparison.Sees current
  globals : machine.globals = comparison.left.globals ∧
    machine'.globals = comparison.right.globals
  functions : ∃ count, machine.functions = comparison.left.functions + count ∧
    machine'.functions = comparison.right.functions + count
  outputs : ∃ printed, machine.output = comparison.left.output ++ printed ∧
    machine'.output = comparison.right.output ++ printed

/-- That two errors have the same cause at corresponding tokens. -/
structure Errors (comparison : Comparison) (error error' : RuntimeError) : Prop where
  cause : error.cause = error'.cause
  token : ∃ likeness, comparison.Accepts likeness ∧ likeness.Holds error.token error'.token

namespace Values

variable {value value' other other' : Value}

theorem isTruthy (values : comparison.Values value value') : value.isTruthy = value'.isTruthy := by
  cases values <;> rfl

theorem text (values : comparison.Values value value') : value.text = value'.text := by
  cases values with
  | constant value => rfl
  | function closures =>
      rcases closures.code with ⟨likeness, _, names, _⟩
      simp only [Value.text, Closure.text, (likeness.alike names).lexeme]

theorem isEqual (values : comparison.Values value value')
    (others : comparison.Values other other') : value.isEqual other = value'.isEqual other' := by
  cases values with
  | constant value =>
      cases others with
      | constant other => rfl
      | function closures => cases value <;> rfl
  | function closures =>
      cases others with
      | constant other => cases other <;> rfl
      | function otherClosures =>
          have same := comparison.same_iff closures.serial otherClosures.serial
          simp only [Value.isEqual]
          rw [Bool.eq_iff_iff, beq_iff_eq, beq_iff_eq, same]

end Values

theorem Scopes.define {scope scope' : Scope} {value value' : Value}
    (scopes : comparison.Scopes scope scope') (values : comparison.Values value value')
    (name : String) : comparison.Scopes (scope.define name value) (scope'.define name value') where
  parent := scopes.parent
  seen := scopes.seen
  bindings other := by
    rw [Scope.find?_define, Scope.find?_define]
    split
    · exact .some values
    · exact scopes.bindings other

theorem Scopes.empty {parent : ScopeId} (seen : comparison.Sees parent) :
    comparison.Scopes ⟨some parent, []⟩ ⟨some parent, []⟩ where
  parent := rfl
  seen := by
    rintro _ ⟨⟩
    exact seen
  bindings _ := .none

namespace Stores

variable {store store' : Store}

/-- The chain of a scope in sight is the same on both sides, and is in sight as well. -/
theorem chainUpTo (stores : comparison.Stores store store') (steps : Nat) {id : ScopeId}
    (seen : comparison.Sees id) :
    store.chainUpTo steps id = store'.chainUpTo steps id ∧
    ∀ member ∈ store.chainUpTo steps id, comparison.Sees member := by
  induction steps generalizing id with
  | zero => exact ⟨rfl, by simp [Store.chainUpTo]⟩
  | succ steps ih =>
      have found := stores.seen seen
      rw [Store.chainUpTo, Store.chainUpTo]
      generalize store.scope? id = scope at found
      generalize store'.scope? id = scope' at found
      cases found with
      | none => exact ⟨rfl, by simp⟩
      | @some scope scope' scopes =>
          dsimp only
          rw [← scopes.parent]
          cases isParent : scope.parent with
          | none => exact ⟨rfl, by simpa using seen⟩
          | some parent =>
              rcases ih (scopes.seen parent isParent) with ⟨same, allSeen⟩
              dsimp only
              rw [← same]
              exact ⟨rfl, List.forall_mem_cons.2 ⟨seen, allSeen⟩⟩

/-- What a scope in sight binds a name to is the same on both sides. -/
theorem find? (stores : comparison.Stores store store') {id : ScopeId} (seen : comparison.Sees id)
    (name : String) :
    Option.Rel comparison.Values ((store.scope? id).bind (·.find? name))
      ((store'.scope? id).bind (·.find? name)) := by
  have found := stores.seen seen
  generalize store.scope? id = scope at found
  generalize store'.scope? id = scope' at found
  cases found with
  | none => exact .none
  | some scopes => exact scopes.bindings name

theorem binds (stores : comparison.Stores store store') {id : ScopeId} (seen : comparison.Sees id)
    (name : String) : store.binds id name = store'.binds id name := by
  have isBound (store : Store) :
      store.binds id name = ((store.scope? id).bind (·.find? name)).isSome := by
    unfold Store.binds
    cases store.scope? id <;> rfl
  have found := stores.find? seen name
  rw [isBound, isBound]
  generalize (store.scope? id).bind (·.find? name) = value at found
  generalize (store'.scope? id).bind (·.find? name) = value' at found
  cases found <;> rfl

theorem owner? (stores : comparison.Stores store store') {id : ScopeId}
    (seen : comparison.Sees id) (name : String) :
    store.owner? id name = store'.owner? id name ∧
    ∀ owner ∈ store.owner? id name, comparison.Sees owner := by
  rcases stores.chainUpTo store.scopes.size seen with ⟨same, allSeen⟩
  have sameBinds : ∀ member ∈ store.chain id, store.binds member name = store'.binds member name :=
    fun member mem => stores.binds (allSeen member mem) name
  have sameChain : store'.chain id = store.chain id := by
    rw [Store.chain, Store.chain, ← stores.size, same]
  refine ⟨?_, fun owner found => allSeen owner (List.mem_of_find?_eq_some found)⟩
  rw [Store.owner?, Store.owner?, sameChain]
  exact List.find?_congr sameBinds

theorem define (stores : comparison.Stores store store') {id : ScopeId}
    (seen : comparison.Sees id) {value value' : Value} (values : comparison.Values value value')
    (name : String) :
    comparison.Stores (store.define id name value) (store'.define id name value') where
  size := by simpa [Store.define] using stores.size
  grown := by simpa [Store.define] using stores.grown
  seen otherSeen := by
    rw [Store.scope?_define, Store.scope?_define]
    split
    · have found := stores.seen seen
      generalize store.scope? id = scope at found
      generalize store'.scope? id = scope' at found
      cases found with
      | none => exact .none
      | some scopes => exact .some (scopes.define values name)
    · exact stores.seen otherSeen
  unseen {other} otherUnseen := by
    have differs : other ≠ id := fun same => otherUnseen (same ▸ seen)
    rw [Store.scope?_define, Store.scope?_define, if_neg differs, if_neg differs]
    exact stores.unseen otherUnseen

theorem create (stores : comparison.Stores store store') {scope scope' : Scope}
    (scopes : comparison.Scopes scope scope') :
    comparison.Stores (store.create scope).2 (store'.create scope').2 where
  size := by simpa [Store.create] using stores.size
  grown := by
    have grown := stores.grown
    simp only [Store.create, Array.size_push]
    omega
  seen seen := by
    rw [Store.scope?_create, Store.scope?_create, stores.size]
    split
    · exact .some scopes
    · exact stores.seen seen
  unseen {id} unseen := by
    -- A scope that is made during a run is in sight.
    have differs : id ≠ store.scopes.size := by
      rintro rfl
      exact unseen (comparison.sees_new stores.grown)
    rw [Store.scope?_create, Store.scope?_create, ← stores.size, if_neg differs, if_neg differs]
    exact stores.unseen unseen

end Stores

/--
Two runs start with corresponding machines if these differ in what was printed at most, everything
is in sight, and every value that is bound corresponds to itself.
-/
theorem Machines.start {output : String}
    (isRight : comparison.right = { comparison.left with output := output })
    (allSeen : ∀ id, comparison.Sees id)
    (values : ∀ {id scope name value}, comparison.left.store.scope? id = some scope →
      scope.find? name = some value → comparison.Values value value) :
    comparison.Machines comparison.left.current comparison.left comparison.right where
  stores := {
    size := by rw [isRight]
    grown := Nat.le_refl _
    seen := by
      intro id _
      rw [isRight]
      cases isScope : comparison.left.store.scope? id with
      | none => exact .none
      | some scope =>
          refine .some ⟨rfl, fun parent _ => allSeen parent, fun name => ?_⟩
          cases isValue : scope.find? name with
          | none => exact .none
          | some value => exact .some (values isScope isValue)
    unseen := fun unseen => absurd (allSeen _) unseen }
  currents := by simp [isRight]
  seen := allSeen _
  globals := ⟨rfl, rfl⟩
  functions := ⟨0, rfl, rfl⟩
  outputs := ⟨"", String.append_empty.symm, String.append_empty.symm⟩

end Comparison

end Scriptlet
