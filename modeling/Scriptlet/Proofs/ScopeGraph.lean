import Scriptlet.Proofs.Numbering

/-!
# The graph of scopes

Functions can be bound in scopes older than their own, so that the scopes that a program can get at
may form cycles. The links from a scope to its parent never do: a parent is older than its children.
Together with the scopes of functions being there, this is a property that all runs keep
(`Invariant.scopes`), and that makes the way out of a scope end at a scope without a parent.
-/

namespace Scriptlet

namespace Store

/-- That there is a scope with a given number. -/
def Has (store : Store) (id : ScopeId) : Prop :=
  ∃ scope, store.scope? id = some scope

/-- What a scope of a store binds a name to. -/
def bound? (store : Store) (id : ScopeId) (name : String) : Option Value :=
  (store.scope? id).bind (·.find? name)

/-- The way from a scope outwards, link by link, up to a scope that has no parent. -/
inductive Path (store : Store) : ScopeId → List ScopeId → Prop
  | root {id : ScopeId} {scope : Scope} (isScope : store.scope? id = some scope)
      (isRoot : scope.parent = none) : Path store id [id]
  | link {id parent : ScopeId} {scope : Scope} {path : List ScopeId}
      (isScope : store.scope? id = some scope) (isParent : scope.parent = some parent)
      (rest : Path store parent path) : Path store id (id :: path)

/-- That every scope of a store is there in a later one, with the same parent. -/
structure Extends (after store : Store) : Prop where
  kept : ∀ {id scope}, store.scope? id = some scope →
    ∃ scope', after.scope? id = some scope' ∧ scope'.parent = scope.parent

end Store

/-- That parents are older than their children. -/
structure Store.Ordered (store : Store) : Prop where
  older : ∀ {id parent : Nat} {scope}, store.scope? id = some scope →
    scope.parent = some parent → parent < id

/-- That the scope of a value is there if the value is a function. -/
def Value.LivesIn (store : Store) : Value → Prop
  | .constant _ => True
  | .function closure => store.Has closure.scope

/-- That parents are older than their children, and that the scopes of bound functions are there. -/
structure Store.WellFormed (store : Store) : Prop where
  older : ∀ {id parent : Nat} {scope}, store.scope? id = some scope →
    scope.parent = some parent → parent < id
  lives : store.AllBound (Value.LivesIn store)

structure Machine.WellFormed (machine : Machine) : Prop where
  store : machine.store.WellFormed
  current : machine.store.Has machine.current
  globals : machine.store.Has machine.globals

namespace Store

variable {store after later : Store} {id : Nat}

theorem has_iff : store.Has id ↔ id < store.scopes.size := by
  constructor
  · rintro ⟨scope, isScope⟩
    exact (Array.getElem?_eq_some_iff.1 isScope).1
  · intro isBelow
    exact ⟨_, Array.getElem?_eq_getElem isBelow⟩

theorem has_of_binds {name : String} (isBound : store.binds id name = true) : store.Has id := by
  unfold binds at isBound
  cases isScope : store.scope? id with
  | none => simp [isScope] at isBound
  | some scope => exact ⟨scope, isScope⟩

theorem binds_eq (store : Store) (id : ScopeId) (name : String) :
    store.binds id name = (store.bound? id name).isSome := by
  unfold binds bound?
  cases store.scope? id <;> rfl

theorem bound?_define (has : store.Has id) (name : String) (value : Value) (other : ScopeId)
    (bound : String) :
    (store.define id name value).bound? other bound =
      if other = id ∧ bound = name then some value else store.bound? other bound := by
  rcases has with ⟨scope, isScope⟩
  unfold bound?
  rw [scope?_define]
  by_cases same : other = id
  · subst same
    simp [isScope]
  · simp [same]

theorem bound?_create (store : Store) (scope : Scope) (id : ScopeId) (name : String) :
    (store.create scope).2.bound? id name =
      if id = store.scopes.size then scope.find? name else store.bound? id name := by
  unfold bound?
  rw [scope?_create]
  split
  · rfl
  · rfl

theorem bound?_create_of_has (has : store.Has id) (scope : Scope) (name : String) :
    (store.create scope).2.bound? id name = store.bound? id name := by
  rw [bound?_create, if_neg (Nat.ne_of_lt (has_iff.1 has))]

theorem scope?_create_self (store : Store) (scope : Scope) :
    (store.create scope).2.scope? store.scopes.size = some scope := by
  rw [scope?_create, if_pos rfl]

theorem not_has_size (store : Store) : ¬store.Has store.scopes.size :=
  fun has => Nat.lt_irrefl _ (has_iff.1 has)

theorem Path.has {path : List ScopeId} (isPath : store.Path id path) :
    ∀ member ∈ path, store.Has member := by
  induction isPath with
  | root isScope _ => simpa using ⟨_, isScope⟩
  | link isScope _ _ ih => simpa using ⟨⟨_, isScope⟩, ih⟩

theorem Path.has_start {path : List ScopeId} (isPath : store.Path id path) : store.Has id := by
  cases isPath with
  | root isScope _ => exact ⟨_, isScope⟩
  | link isScope _ _ => exact ⟨_, isScope⟩

/-- Walking outwards gives the whole path, if it may take that many steps. -/
theorem Path.chainUpTo_eq {path : List ScopeId} (isPath : store.Path id path) {steps : Nat}
    (enough : path.length ≤ steps) : store.chainUpTo steps id = path := by
  induction isPath generalizing steps with
  | root isScope isRoot =>
      cases steps with
      | zero => simp at enough
      | succ steps => simp [chainUpTo, isScope, isRoot]
  | link isScope isParent _ ih =>
      cases steps with
      | zero => simp at enough
      | succ steps => simp [chainUpTo, isScope, isParent, ih (Nat.le_of_succ_le_succ enough)]

theorem WellFormed.ordered (wellFormed : store.WellFormed) : store.Ordered :=
  ⟨wellFormed.older⟩

namespace Ordered

variable (ordered : store.Ordered)

include ordered

/-- The scopes on a path are older and older. -/
theorem pairwise_path {path : List ScopeId} (isPath : store.Path id path) :
    path.Pairwise (· > ·) ∧ (∀ member ∈ path, member ≤ id) ∧ path.length ≤ id + 1 := by
  induction isPath with
  | root _ _ => simp
  | @link id parent _ path isScope isParent _ ih =>
      have isOlder := ordered.older isScope isParent
      rcases ih with ⟨decreasing, below, short⟩
      have allOlder : ∀ member ∈ path, member < id := by
        intro member isMember
        exact Nat.lt_of_le_of_lt (below member isMember) isOlder
      refine ⟨List.pairwise_cons.2 ⟨allOlder, decreasing⟩, ?_, ?_⟩
      · intro member isMember
        rcases List.mem_cons.1 isMember with rfl | isMember
        · exact Nat.le_refl _
        · exact Nat.le_of_lt (allOlder member isMember)
      · simp only [List.length_cons]
        omega

theorem chain_eq {path : List ScopeId} (isPath : store.Path id path) : store.chain id = path := by
  rcases ordered.pairwise_path isPath with ⟨_, _, short⟩
  have isBelow := has_iff.1 isPath.has_start
  apply isPath.chainUpTo_eq
  omega

theorem exists_path (has : store.Has id) : ∃ path, store.Path id path := by
  -- A parent is older than its scope, so the numbers of scopes decrease on the way out.
  induction id using Nat.strongRecOn with
  | ind id ih =>
      rcases has with ⟨scope, isScope⟩
      cases isParent : scope.parent with
      | none => exact ⟨[id], .root isScope isParent⟩
      | some parent =>
          have isOlder := ordered.older isScope isParent
          have hasId : id < store.scopes.size := has_iff.1 ⟨scope, isScope⟩
          rcases ih parent isOlder (has_iff.2 (by omega)) with ⟨path, isPath⟩
          exact ⟨id :: path, .link isScope isParent isPath⟩

end Ordered

namespace Extends

theorem refl (store : Store) : store.Extends store :=
  ⟨fun isScope => ⟨_, isScope, rfl⟩⟩

theorem trans (second : later.Extends after) (first : after.Extends store) :
    later.Extends store := by
  constructor
  intro id scope isScope
  rcases first.kept isScope with ⟨between, isBetween, sameParent⟩
  rcases second.kept isBetween with ⟨last, isLast, sameParent'⟩
  exact ⟨last, isLast, sameParent'.trans sameParent⟩

theorem has (isExtension : after.Extends store) (has : store.Has id) : after.Has id := by
  rcases has with ⟨scope, isScope⟩
  rcases isExtension.kept isScope with ⟨scope', isScope', _⟩
  exact ⟨scope', isScope'⟩

theorem path (isExtension : after.Extends store) {path : List ScopeId}
    (isPath : store.Path id path) : after.Path id path := by
  induction isPath with
  | root isScope isRoot =>
      rcases isExtension.kept isScope with ⟨scope', isScope', sameParent⟩
      exact .root isScope' (sameParent.trans isRoot)
  | link isScope isParent _ ih =>
      rcases isExtension.kept isScope with ⟨scope', isScope', sameParent⟩
      exact .link isScope' (sameParent.trans isParent) ih

theorem livesIn (isExtension : after.Extends store) {value : Value} (lives : value.LivesIn store) :
    value.LivesIn after := by
  cases value with
  | constant value => trivial
  | function closure => exact isExtension.has lives

theorem define (store : Store) (id : ScopeId) (name : String) (value : Value) :
    (store.define id name value).Extends store := by
  constructor
  intro other scope isScope
  rw [scope?_define]
  split
  · rename_i same
    subst same
    exact ⟨scope.define name value, by simp [isScope], rfl⟩
  · exact ⟨scope, isScope, rfl⟩

theorem create (store : Store) (scope : Scope) : (store.create scope).2.Extends store := by
  constructor
  intro id old isScope
  have isOld : id ≠ store.scopes.size := Nat.ne_of_lt (has_iff.1 ⟨old, isScope⟩)
  exact ⟨old, by rw [scope?_create, if_neg isOld, isScope], rfl⟩

end Extends

namespace Ordered

theorem define (ordered : store.Ordered) (id : ScopeId) (name : String) (value : Value) :
    (store.define id name value).Ordered := by
  constructor
  intro other parent scope isScope isParent
  rw [scope?_define] at isScope
  split at isScope
  · rename_i same
    subst same
    rcases Option.map_eq_some_iff.1 isScope with ⟨old, isOld, rfl⟩
    exact ordered.older isOld isParent
  · exact ordered.older isScope isParent

theorem create (ordered : store.Ordered) {scope : Scope}
    (hasParent : ∀ parent ∈ scope.parent, store.Has parent) :
    (store.create scope).2.Ordered := by
  constructor
  intro id parent found isScope isParent
  rw [scope?_create] at isScope
  split at isScope
  · rename_i same
    subst same
    cases isScope
    exact has_iff.1 (hasParent parent isParent)
  · exact ordered.older isScope isParent

end Ordered

namespace WellFormed

theorem define (wellFormed : store.WellFormed) (id : ScopeId) (name : String) {value : Value}
    (lives : value.LivesIn store) : (store.define id name value).WellFormed := by
  have isExtension := Extends.define store id name value
  constructor
  · exact (wellFormed.ordered.define id name value).older
  · exact (wellFormed.lives.mono isExtension.livesIn).define id name (isExtension.livesIn lives)

theorem create (wellFormed : store.WellFormed) {scope : Scope}
    (hasParent : ∀ parent ∈ scope.parent, store.Has parent)
    (allLive : ∀ name value, scope.find? name = some value → value.LivesIn store) :
    (store.create scope).2.WellFormed := by
  have isExtension := Extends.create store scope
  constructor
  · exact (wellFormed.ordered.create hasParent).older
  · exact (wellFormed.lives.mono isExtension.livesIn).create fun name value isBound =>
      isExtension.livesIn (allLive name value isBound)

end WellFormed

end Store

theorem Eval.parent_callScope (closure : Closure) (arguments : List Value) :
    (Eval.callScope closure arguments).parent = some closure.scope := by
  have parent_defineAll (pairs : List (Token × Value)) (scope : Scope) :
      (pairs.foldl (fun scope pair => scope.define pair.1.lexeme pair.2) scope).parent =
        scope.parent := by
    induction pairs generalizing scope with
    | nil => rfl
    | cons pair pairs ih => simp [ih]
  exact parent_defineAll _ _

/-- Scopes for blocks and calls have parents that are there, and bind what lives in the store. -/
theorem Machine.Opens.has {machine : Machine} (wellFormed : machine.WellFormed) {scope : Scope}
    (opens : machine.Opens (Value.LivesIn machine.store) scope) :
    (∀ parent ∈ scope.parent, machine.store.Has parent) ∧
    ∀ name value, scope.find? name = some value → value.LivesIn machine.store := by
  cases opens with
  | block =>
      constructor
      · rintro _ ⟨⟩
        exact wellFormed.current
      · intro name value isBound
        contradiction
  | call callee validArguments =>
      constructor
      · intro parent isParent
        rw [Eval.parent_callScope] at isParent
        cases isParent
        exact callee
      · intro name value isBound
        exact validArguments value (mem_of_find?_callScope isBound)

/--
Runs keep the store well formed, and keep the scopes of the store `start` with their parents. The
current scope is the same after each step as before, and so are the globals.
-/
def Invariant.scopes (start : Store) : Invariant where
  Holds machine := machine.WellFormed ∧ machine.store.Extends start
  Valid machine value := value.LivesIn machine.store
  Grows machine after := after.store.Extends machine.store ∧ after.current = machine.current ∧
    after.globals = machine.globals
  refl machine := ⟨.refl machine.store, rfl, rfl⟩
  trans := by
    rintro machine between after ⟨first, current, globals⟩ ⟨second, current', globals'⟩
    exact ⟨second.trans first, current'.trans current, globals'.trans globals⟩
  constant _ _ := trivial
  mono grows lives := grows.1.livesIn lives
  code _ statement _ := statement.fits_of_all fun _ _ => trivial
  bound holds isValue := by
    rcases Store.exists_of_get_eq_ok isValue with ⟨owner, scope, isScope, isBound⟩
    exact holds.1.store.lives _ _ _ _ isScope isBound
  print _ holds :=
    ⟨⟨{ holds.1 with }, holds.2⟩, .refl _, rfl, rfl⟩
  define {machine value} name holds lives := by
    have isExtension := Store.Extends.define machine.store machine.current name value
    exact ⟨⟨⟨holds.1.store.define _ name lives, isExtension.has holds.1.current,
      isExtension.has holds.1.globals⟩, isExtension.trans holds.2⟩, isExtension, rfl, rfl⟩
  assign {machine name value store} holds lives assigned := by
    rcases Store.exists_of_assign_eq_ok assigned with ⟨owner, _, rfl⟩
    have isExtension := Store.Extends.define machine.store owner name.lexeme value
    exact ⟨⟨⟨holds.1.store.define _ _ lives, isExtension.has holds.1.current,
      isExtension.has holds.1.globals⟩, isExtension.trans holds.2⟩, isExtension, rfl, rfl⟩
  close _ _ _ holds _ := ⟨⟨{ holds.1 with }, holds.2⟩, ⟨.refl _, rfl, rfl⟩, holds.1.current⟩
  enter {machine scope} holds opens := by
    rcases opens.has holds.1 with ⟨hasParent, allLive⟩
    have isExtension := Store.Extends.create machine.store scope
    have hasScope : (machine.store.create scope).2.Has (machine.store.create scope).1 :=
      ⟨scope, by rw [Store.scope?_create]; exact if_pos rfl⟩
    exact ⟨⟨holds.1.store.create hasParent allLive, hasScope, isExtension.has holds.1.globals⟩,
      isExtension.trans holds.2⟩
  leave {machine scope after} holds _ holdsAfter grows := by
    have isExtension := grows.1.trans (Store.Extends.create machine.store scope)
    exact ⟨⟨⟨holdsAfter.1.store, isExtension.has holds.1.current, holdsAfter.1.globals⟩,
      holdsAfter.2⟩, ⟨isExtension, rfl, grows.2.2⟩, fun _ lives => lives⟩

end Scriptlet
