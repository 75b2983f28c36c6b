import Scriptlet.Proofs.ScopeGraph

/-!
# Aligned stores

Two runs can go the same way although each of them makes scopes that the other does not make, as
long as nothing is bound in those. An `Alignment` says which scopes of the two runs are the same,
and which ones are extra. Functions are then the same if they differ in nothing but their scopes,
and those are the same. Names are found in scopes that are the same, whatever extra scopes lie on
the way (`Alignment.Stores.owner?`).
-/

namespace Scriptlet

namespace Store

variable {store : Store} {id : ScopeId}

/-- A scope in which nothing is bound stays so when another scope is made. -/
theorem unbound_create (unbound : store.Has id ∧ ∀ name, store.bound? id name = none)
    (scope : Scope) :
    (store.create scope).2.Has id ∧ ∀ name, (store.create scope).2.bound? id name = none := by
  refine ⟨(Extends.create store scope).has unbound.1, fun name => ?_⟩
  rw [bound?_create_of_has unbound.1]
  exact unbound.2 name

/-- Nothing is bound in a scope that was just made for a block. -/
theorem unbound_create_self (store : Store) (parent : Option ScopeId) :
    (store.create ⟨parent, []⟩).2.Has store.scopes.size ∧
      ∀ name, (store.create ⟨parent, []⟩).2.bound? store.scopes.size name = none := by
  refine ⟨⟨_, scope?_create_self store _⟩, fun name => ?_⟩
  rw [bound?_create, if_pos rfl]
  rfl

/-- A scope in which nothing is bound stays so when a name is defined in another one. -/
theorem unbound_define {other : ScopeId} (has : store.Has other) (differs : id ≠ other)
    (unbound : store.Has id ∧ ∀ name, store.bound? id name = none) (name : String)
    (value : Value) :
    (store.define other name value).Has id ∧
      ∀ bound, (store.define other name value).bound? id bound = none := by
  refine ⟨(Extends.define store other name value).has unbound.1, fun bound => ?_⟩
  simpa [bound?_define has, differs] using unbound.2 bound

end Store

/-- Which scopes of two runs are the same, and which ones only one of the runs has. -/
structure Alignment where
  Pairs : ScopeId → ScopeId → Prop
  /-- The extra scopes of the run on the left. -/
  Left : ScopeId → Prop
  /-- The extra scopes of the run on the right. -/
  Right : ScopeId → Prop

namespace Alignment

/-- That two ways outwards lead through the same scopes, apart from extra ones. -/
inductive Ways (alignment : Alignment) : List ScopeId → List ScopeId → Prop
  | root : Ways alignment [] []
  | pair {id id' : ScopeId} {path path' : List ScopeId} (pairs : alignment.Pairs id id')
      (rest : Ways alignment path path') : Ways alignment (id :: path) (id' :: path')
  | left {id : ScopeId} {path path' : List ScopeId} (isExtra : alignment.Left id)
      (rest : Ways alignment path path') : Ways alignment (id :: path) path'
  | right {id' : ScopeId} {path path' : List ScopeId} (isExtra : alignment.Right id')
      (rest : Ways alignment path path') : Ways alignment path (id' :: path')

/-- That the ways out of two scopes lead through the same scopes, apart from extra ones. -/
structure Sees (alignment : Alignment) (store store' : Store) (id id' : ScopeId) : Prop where
  ways : ∃ path path', store.Path id path ∧ store'.Path id' path' ∧ alignment.Ways path path'

/-- That two values are the same constant, or the same function in scopes that are the same. -/
inductive Values (alignment : Alignment) : Value → Value → Prop
  | constant (value : Constant) : Values alignment (.constant value) (.constant value)
  | function {closure : Closure} {scope' : ScopeId} (pairs : alignment.Pairs closure.scope scope') :
      Values alignment (.function closure) (.function { closure with scope := scope' })

/-- That two scopes bind the same names to the same values. -/
def Bindings (alignment : Alignment) (scope scope' : Scope) : Prop :=
  ∀ name, Option.Rel alignment.Values (scope.find? name) (scope'.find? name)

/-- That two stores have the same scopes, but for extra ones, in which nothing is bound. -/
structure Stores (alignment : Alignment) (store store' : Store) : Prop where
  wellFormed : store.WellFormed
  wellFormed' : store'.WellFormed
  sees : ∀ {id id'}, alignment.Pairs id id' → alignment.Sees store store' id id'
  bindings : ∀ {id id'}, alignment.Pairs id id' → ∀ name,
    Option.Rel alignment.Values (store.bound? id name) (store'.bound? id' name)
  functional : ∀ {id id' other'}, alignment.Pairs id id' → alignment.Pairs id other' → id' = other'
  injective : ∀ {id other id'}, alignment.Pairs id id' → alignment.Pairs other id' → id = other
  left : ∀ {id}, alignment.Left id → store.Has id ∧ ∀ name, store.bound? id name = none
  right : ∀ {id'}, alignment.Right id' → store'.Has id' ∧ ∀ name, store'.bound? id' name = none
  apart : ∀ {id id'}, alignment.Pairs id id' → ¬alignment.Left id ∧ ¬alignment.Right id'

/-- That an alignment has become another one, which has more scopes. -/
structure Grows (alignment later : Alignment) : Prop where
  pairs : ∀ {id id'}, alignment.Pairs id id' → later.Pairs id id'
  left : ∀ {id}, alignment.Left id → later.Left id
  right : ∀ {id'}, alignment.Right id' → later.Right id'

/-- The alignment in which two more scopes are the same. -/
def pair (alignment : Alignment) (id id' : ScopeId) : Alignment :=
  { alignment with Pairs := fun a b => alignment.Pairs a b ∨ (a = id ∧ b = id') }

/-- The alignment with one more extra scope on the left. -/
def extraLeft (alignment : Alignment) (id : ScopeId) : Alignment :=
  { alignment with Left := fun a => alignment.Left a ∨ a = id }

/-- The alignment with one more extra scope on the right. -/
def extraRight (alignment : Alignment) (id' : ScopeId) : Alignment :=
  { alignment with Right := fun b => alignment.Right b ∨ b = id' }

/-- The alignment of a store with itself. -/
def self (store : Store) : Alignment where
  Pairs id id' := id = id' ∧ store.Has id
  Left _ := False
  Right _ := False

variable {alignment later : Alignment} {store store' after after' : Store} {id id' : ScopeId}

namespace Grows

theorem refl (alignment : Alignment) : alignment.Grows alignment :=
  ⟨fun pairs => pairs, fun isExtra => isExtra, fun isExtra => isExtra⟩

theorem trans {last : Alignment} (first : alignment.Grows later) (second : later.Grows last) :
    alignment.Grows last :=
  ⟨fun pairs => second.pairs (first.pairs pairs), fun isExtra => second.left (first.left isExtra),
    fun isExtra => second.right (first.right isExtra)⟩

theorem pair (alignment : Alignment) (id id' : ScopeId) :
    alignment.Grows (alignment.pair id id') :=
  ⟨.inl, fun isExtra => isExtra, fun isExtra => isExtra⟩

theorem extraLeft (alignment : Alignment) (id : ScopeId) :
    alignment.Grows (alignment.extraLeft id) :=
  ⟨fun pairs => pairs, .inl, fun isExtra => isExtra⟩

theorem extraRight (alignment : Alignment) (id' : ScopeId) :
    alignment.Grows (alignment.extraRight id') :=
  ⟨fun pairs => pairs, fun isExtra => isExtra, .inl⟩

variable (grows : alignment.Grows later)

include grows

theorem values {value value' : Value} (values : alignment.Values value value') :
    later.Values value value' := by
  cases values with
  | constant value => exact .constant value
  | function pairs => exact .function (grows.pairs pairs)

theorem option {value value' : Option Value} (values : Option.Rel alignment.Values value value') :
    Option.Rel later.Values value value' := by
  cases values with
  | none => exact .none
  | some values => exact .some (grows.values values)

theorem ways {path path' : List ScopeId} (ways : alignment.Ways path path') :
    later.Ways path path' := by
  induction ways with
  | root => exact .root
  | pair pairs _ ih => exact .pair (grows.pairs pairs) ih
  | left isExtra _ ih => exact .left (grows.left isExtra) ih
  | right isExtra _ ih => exact .right (grows.right isExtra) ih

theorem sees (left : after.Extends store) (right : after'.Extends store')
    (sees : alignment.Sees store store' id id') : later.Sees after after' id id' := by
  rcases sees with ⟨path, path', isPath, isPath', ways⟩
  exact ⟨path, path', left.path isPath, right.path isPath', grows.ways ways⟩

end Grows

theorem Sees.has (sees : alignment.Sees store store' id id') : store.Has id ∧ store'.Has id' := by
  rcases sees with ⟨path, path', isPath, isPath', _⟩
  exact ⟨isPath.has_start, isPath'.has_start⟩

theorem Sees.at_left (sees : alignment.Sees store store' id id') {inner : ScopeId} {scope : Scope}
    (isScope : store.scope? inner = some scope) (isParent : scope.parent = some id)
    (isExtra : alignment.Left inner) : alignment.Sees store store' inner id' := by
  rcases sees with ⟨path, path', isPath, isPath', ways⟩
  exact ⟨_, path', .link isScope isParent isPath, isPath', .left isExtra ways⟩

theorem Sees.at_right (sees : alignment.Sees store store' id id') {inner : ScopeId} {scope : Scope}
    (isScope : store'.scope? inner = some scope) (isParent : scope.parent = some id')
    (isExtra : alignment.Right inner) : alignment.Sees store store' id inner := by
  rcases sees with ⟨path, path', isPath, isPath', ways⟩
  exact ⟨path, _, isPath, .link isScope isParent isPath', .right isExtra ways⟩

namespace Values

variable {value value' other other' : Value}

theorem isTruthy (values : alignment.Values value value') : value.isTruthy = value'.isTruthy := by
  cases values <;> rfl

theorem text (values : alignment.Values value value') : value.text = value'.text := by
  cases values <;> rfl

theorem isEqual (values : alignment.Values value value') (others : alignment.Values other other') :
    value.isEqual other = value'.isEqual other' := by
  cases values with
  | constant value =>
      cases others with
      | constant other => rfl
      | function pairs => cases value <;> rfl
  | function pairs =>
      cases others with
      | constant other => cases other <;> rfl
      | function pairs => rfl

/-- Operators do not look at the scopes of functions. -/
theorem applyUnary (values : alignment.Values value value') (operator : Token) :
    applyUnary operator value = applyUnary operator value' := by
  cases values with
  | constant value => rfl
  | function pairs =>
      unfold Scriptlet.applyUnary
      cases operator.kind <;> rfl

theorem applyBinary (values : alignment.Values value value')
    (others : alignment.Values other other') (operator : Token) :
    applyBinary operator value other = applyBinary operator value' other' := by
  have same := values.isEqual others
  unfold Scriptlet.applyBinary
  cases values with
  | constant value =>
      cases others with
      | constant other => rfl
      | function pairs =>
          rw [same]
          cases operator.kind <;> cases value <;> rfl
  | function pairs =>
      rw [same]
      cases others with
      | constant other => cases operator.kind <;> rfl
      | function pairs => cases operator.kind <;> rfl

end Values

namespace Stores

variable (stores : alignment.Stores store store')

include stores

theorem lives {value value' : Value} (values : alignment.Values value value') :
    value.LivesIn store ∧ value'.LivesIn store' := by
  cases values with
  | constant value => exact ⟨trivial, trivial⟩
  | function pairs => exact (stores.sees pairs).has

theorem binds (pairs : alignment.Pairs id id') (name : String) :
    store.binds id name = store'.binds id' name := by
  have found := stores.bindings pairs name
  rw [Store.binds_eq, Store.binds_eq]
  generalize store.bound? id name = value at found
  generalize store'.bound? id' name = value' at found
  cases found <;> rfl

theorem find?_of_ways {path path' : List ScopeId} (ways : alignment.Ways path path')
    (name : String) :
    Option.Rel alignment.Pairs (path.find? (store.binds · name))
      (path'.find? (store'.binds · name)) := by
  induction ways with
  | root => exact .none
  | @pair id id' _ _ pairs _ ih =>
      rw [List.find?_cons, List.find?_cons, ← stores.binds pairs name]
      split
      · exact .some pairs
      · exact ih
  | left isExtra _ ih => simpa [Store.binds_eq, (stores.left isExtra).2 name] using ih
  | right isExtra _ ih => simpa [Store.binds_eq, (stores.right isExtra).2 name] using ih

/-- A name is found in the same scope on both sides. -/
theorem owner? (sees : alignment.Sees store store' id id') (name : String) :
    Option.Rel alignment.Pairs (store.owner? id name) (store'.owner? id' name) := by
  rcases sees with ⟨path, path', isPath, isPath', ways⟩
  unfold Store.owner?
  rw [stores.wellFormed.ordered.chain_eq isPath, stores.wellFormed'.ordered.chain_eq isPath']
  exact stores.find?_of_ways ways name

theorem define (pairs : alignment.Pairs id id') (name : String) {value value' : Value}
    (values : alignment.Values value value') :
    alignment.Stores (store.define id name value) (store'.define id' name value') := by
  have left := Store.Extends.define store id name value
  have right := Store.Extends.define store' id' name value'
  have has := (stores.sees pairs).has
  constructor
  case wellFormed => exact stores.wellFormed.define id name (stores.lives values).1
  case wellFormed' => exact stores.wellFormed'.define id' name (stores.lives values).2
  case sees => exact fun pairs => (Grows.refl alignment).sees left right (stores.sees pairs)
  case functional => exact stores.functional
  case injective => exact stores.injective
  case apart => exact stores.apart
  case bindings =>
    intro other other' others bound
    -- No two scopes are paired with the same one, so a name is defined in both or in neither.
    have sameScope : other = id ↔ other' = id' := by
      constructor
      · rintro rfl
        exact stores.functional others pairs
      · rintro rfl
        exact stores.injective others pairs
    simp only [Store.bound?_define has.1, Store.bound?_define has.2, sameScope]
    split
    · exact .some values
    · exact stores.bindings others bound
  case left =>
    intro extra isExtra
    have differs : extra ≠ id := fun same => (stores.apart pairs).1 (same ▸ isExtra)
    exact Store.unbound_define has.1 differs (stores.left isExtra) name value
  case right =>
    intro extra isExtra
    have differs : extra ≠ id' := fun same => (stores.apart pairs).2 (same ▸ isExtra)
    exact Store.unbound_define has.2 differs (stores.right isExtra) name value'

theorem allLive {scope scope' : Scope} (bindings : alignment.Bindings scope scope') :
    (∀ name value, scope.find? name = some value → value.LivesIn store) ∧
    ∀ name value, scope'.find? name = some value → value.LivesIn store' := by
  constructor
  · intro name value isBound
    have found := bindings name
    generalize scope'.find? name = other at found
    rw [isBound] at found
    cases found with
    | some values => exact (stores.lives values).1
  · intro name value isBound
    have found := bindings name
    generalize scope.find? name = other at found
    rw [isBound] at found
    cases found with
    | some values => exact (stores.lives values).2

/-- Scopes that are made on both sides in scopes that see the same are the same. -/
theorem create {scope scope' : Scope} {parent parent' : ScopeId}
    (isParent : scope.parent = some parent) (isParent' : scope'.parent = some parent')
    (sees : alignment.Sees store store' parent parent')
    (bindings : alignment.Bindings scope scope') :
    (alignment.pair store.scopes.size store'.scopes.size).Stores (store.create scope).2
      (store'.create scope').2 := by
  have left := Store.Extends.create store scope
  have right := Store.Extends.create store' scope'
  have grows := Grows.pair alignment store.scopes.size store'.scopes.size
  have hasPair {id id' : ScopeId} (pairs : alignment.Pairs id id') := (stores.sees pairs).has
  constructor
  case wellFormed =>
    apply stores.wellFormed.create _ (stores.allLive bindings).1
    simpa [isParent] using sees.has.1
  case wellFormed' =>
    apply stores.wellFormed'.create _ (stores.allLive bindings).2
    simpa [isParent'] using sees.has.2
  case sees =>
    rintro id id' (pairs | ⟨rfl, rfl⟩)
    · exact grows.sees left right (stores.sees pairs)
    · rcases sees with ⟨path, path', isPath, isPath', ways⟩
      exact ⟨_, _, .link (Store.scope?_create_self ..) isParent (left.path isPath),
        .link (Store.scope?_create_self ..) isParent' (right.path isPath'),
        .pair (.inr ⟨rfl, rfl⟩) (grows.ways ways)⟩
  case bindings =>
    rintro id id' (pairs | ⟨rfl, rfl⟩) name
    · rw [Store.bound?_create_of_has (hasPair pairs).1,
        Store.bound?_create_of_has (hasPair pairs).2]
      exact grows.option (stores.bindings pairs name)
    · rw [Store.bound?_create, Store.bound?_create, if_pos rfl, if_pos rfl]
      exact grows.option (bindings name)
  case functional =>
    rintro id id' other' (pairs | ⟨rfl, rfl⟩) (others | ⟨isNew, rfl⟩)
    · exact stores.functional pairs others
    · exact absurd (isNew ▸ (hasPair pairs).1) store.not_has_size
    · exact absurd (hasPair others).1 store.not_has_size
    · rfl
  case injective =>
    rintro id other id' (pairs | ⟨rfl, rfl⟩) (others | ⟨rfl, isNew⟩)
    · exact stores.injective pairs others
    · exact absurd (isNew ▸ (hasPair pairs).2) store'.not_has_size
    · exact absurd (hasPair others).2 store'.not_has_size
    · rfl
  case left => exact fun isExtra => Store.unbound_create (stores.left isExtra) scope
  case right => exact fun isExtra => Store.unbound_create (stores.right isExtra) scope'
  case apart =>
    rintro id id' (pairs | ⟨rfl, rfl⟩)
    · exact stores.apart pairs
    · exact ⟨fun isExtra => store.not_has_size (stores.left isExtra).1,
        fun isExtra => store'.not_has_size (stores.right isExtra).1⟩

theorem createLeft {parent : ScopeId} (has : store.Has parent) :
    (alignment.extraLeft store.scopes.size).Stores (store.create ⟨some parent, []⟩).2 store' := by
  have left := Store.Extends.create store ⟨some parent, []⟩
  have grows := Grows.extraLeft alignment store.scopes.size
  constructor
  case wellFormed =>
    apply stores.wellFormed.create
    · simpa using has
    · intro name value isBound
      contradiction
  case wellFormed' => exact stores.wellFormed'
  case sees => exact fun pairs => grows.sees left (.refl store') (stores.sees pairs)
  case bindings =>
    intro id id' pairs name
    rw [Store.bound?_create_of_has (stores.sees pairs).has.1]
    exact grows.option (stores.bindings pairs name)
  case functional => exact stores.functional
  case injective => exact stores.injective
  case left =>
    rintro id (isExtra | rfl)
    · exact Store.unbound_create (stores.left isExtra) _
    · exact store.unbound_create_self _
  case right => exact stores.right
  case apart =>
    intro id id' pairs
    refine ⟨?_, (stores.apart pairs).2⟩
    rintro (isExtra | rfl)
    · exact (stores.apart pairs).1 isExtra
    · exact store.not_has_size (stores.sees pairs).has.1

theorem createRight {parent' : ScopeId} (has : store'.Has parent') :
    (alignment.extraRight store'.scopes.size).Stores store
      (store'.create ⟨some parent', []⟩).2 := by
  have right := Store.Extends.create store' ⟨some parent', []⟩
  have grows := Grows.extraRight alignment store'.scopes.size
  constructor
  case wellFormed => exact stores.wellFormed
  case wellFormed' =>
    apply stores.wellFormed'.create
    · simpa using has
    · intro name value isBound
      contradiction
  case sees => exact fun pairs => grows.sees (.refl store) right (stores.sees pairs)
  case bindings =>
    intro id id' pairs name
    rw [Store.bound?_create_of_has (stores.sees pairs).has.2]
    exact grows.option (stores.bindings pairs name)
  case functional => exact stores.functional
  case injective => exact stores.injective
  case left => exact stores.left
  case right =>
    rintro id (isExtra | rfl)
    · exact Store.unbound_create (stores.right isExtra) _
    · exact store'.unbound_create_self _
  case apart =>
    intro id id' pairs
    refine ⟨(stores.apart pairs).1, ?_⟩
    rintro (isExtra | rfl)
    · exact (stores.apart pairs).2 isExtra
    · exact store'.not_has_size (stores.sees pairs).has.2

end Stores

/-- A store is aligned with itself. -/
theorem self_stores (wellFormed : store.WellFormed) : (self store).Stores store store := by
  have ways {path : List ScopeId} (allThere : ∀ member ∈ path, store.Has member) :
      (self store).Ways path path := by
    induction path with
    | nil => exact .root
    | cons id path ih =>
        rw [List.forall_mem_cons] at allThere
        exact .pair ⟨rfl, allThere.1⟩ (ih allThere.2)
  constructor
  case wellFormed => exact wellFormed
  case wellFormed' => exact wellFormed
  case sees =>
    rintro id _ ⟨rfl, has⟩
    rcases wellFormed.ordered.exists_path has with ⟨path, isPath⟩
    exact ⟨path, path, isPath, isPath, ways isPath.has⟩
  case bindings =>
    rintro id _ ⟨rfl, scope, isScope⟩ name
    cases isBound : store.bound? id name with
    | none => exact .none
    | some value =>
        have isFound : scope.find? name = some value := by
          simpa [Store.bound?, isScope] using isBound
        have lives := wellFormed.lives _ _ _ _ isScope isFound
        cases value with
        | constant value => exact .some (.constant value)
        | function closure => exact .some (.function ⟨rfl, lives⟩)
  case functional =>
    rintro id _ _ ⟨rfl, _⟩ ⟨rfl, _⟩
    rfl
  case injective =>
    rintro id _ _ ⟨rfl, _⟩ ⟨rfl, _⟩
    rfl
  case left => exact fun isExtra => isExtra.elim
  case right => exact fun isExtra => isExtra.elim
  case apart => exact fun _ => ⟨fun isExtra => isExtra, fun isExtra => isExtra⟩

end Alignment

end Scriptlet
