import Scriptlet.Proofs.ScopeGraph

/-!
# Bindings shared along chains

Seen from a scope, a name has the value that the nearest scope of the chain binds it to
(`Store.view`). Chains of different scopes run together, so that a binding is seen from many scopes
at once, as far as no nearer scope hides it. To define or to assign a name changes what is seen from
all these scopes and from no other one (`Store.changes_define`, `Store.changes_assign`).

Reading, resolving and assigning a name all find the same scope, and they fail alike where nothing
is seen (`scope_chains_share_bindings`).
-/

namespace Scriptlet

namespace Store

/-- What is seen along a way outwards: a scope overrides the scopes further out. -/
def viewAlong (store : Store) : List ScopeId → String → Option Value
  | [], _ => none
  | id :: outer, name => (store.bound? id name).or (store.viewAlong outer name)

/-- What is seen from a scope. -/
def view (store : Store) (id : ScopeId) : String → Option Value :=
  store.viewAlong (store.chain id)

/-- That a way outwards leads to a scope, and that no scope nearer than it binds a name. -/
def ExposedAlong (store : Store) (name : String) (id : ScopeId) (path : List ScopeId) : Prop :=
  ∃ nearer further, path = nearer ++ id :: further ∧
    ∀ member ∈ nearer, store.binds member name = false

/-- That a scope lies on the chain of another, and that no scope nearer than it binds a name. -/
def Exposes (store : Store) (name : String) (other id : ScopeId) : Prop :=
  store.ExposedAlong name id (store.chain other)

/-- That a scope is the nearest one on the chain of another that binds a name. -/
def Owns (store : Store) (name : String) (other owner : ScopeId) : Prop :=
  store.Exposes name other owner ∧ store.binds owner name = true

/--
That a name has got a value for the scopes from which the change is seen, while all else that is
seen from any scope is as it was. No chain has changed.
-/
structure Changes (store after : Store) (name : String) (value : Value)
    (seenFrom : ScopeId → Prop) : Prop where
  chain : ∀ other, after.chain other = store.chain other
  seen : ∀ other, seenFrom other → after.view other name = some value
  unseen : ∀ other bound, ¬(bound = name ∧ seenFrom other) →
    after.view other bound = store.view other bound

/-- Stores that are made by creating scopes, defining names and assigning to them. -/
inductive Built : Store → Prop
  | empty : Built ⟨#[]⟩
  | create {store : Store} {parent : Option ScopeId} (built : Built store)
      (hasParent : ∀ id ∈ parent, store.Has id) : Built (store.create ⟨parent, []⟩).2
  | define {store : Store} (built : Built store) (id : ScopeId) (has : store.Has id)
      (name : String) (value : Value) : Built (store.define id name value)
  | assign {store after : Store} {id : ScopeId} {name : Token} {value : Value}
      (built : Built store) (assigned : store.assign id name value = .ok after) : Built after

variable {store : Store} {id : ScopeId} {name : String}

theorem Built.ordered (built : store.Built) : store.Ordered := by
  induction built with
  | empty => exact ⟨fun isScope => by simp [scope?] at isScope⟩
  | create _ hasParent ih => exact ih.create hasParent
  | define _ id _ name value ih => exact ih.define id name value
  | assign _ assigned ih =>
      rcases exists_of_assign_eq_ok assigned with ⟨owner, _, rfl⟩
      exact ih.define owner _ _

/-- The chain of a scope is the whole way outwards. -/
theorem Ordered.path_chain (ordered : store.Ordered) (has : store.Has id) :
    store.Path id (store.chain id) := by
  rcases ordered.exists_path has with ⟨path, isPath⟩
  rwa [ordered.chain_eq isPath]

section Define

variable (store id) (value : Value)

theorem parent?_define (name : String) (other : ScopeId) :
    ((store.define id name value).scope? other).map Scope.parent =
      (store.scope? other).map Scope.parent := by
  rw [scope?_define]
  split
  · rename_i same
    subst same
    cases store.scope? other <;> rfl
  · rfl

theorem chainUpTo_eq_of_parents {after : Store}
    (parents : ∀ other, (after.scope? other).map Scope.parent =
      (store.scope? other).map Scope.parent) (steps : Nat) (other : ScopeId) :
    after.chainUpTo steps other = store.chainUpTo steps other := by
  induction steps generalizing other with
  | zero => rfl
  | succ steps ih =>
      have sameParent := parents other
      simp only [chainUpTo]
      cases isScope : store.scope? other with
      | none =>
          rw [isScope, Option.map_none, Option.map_eq_none_iff] at sameParent
          rw [sameParent]
      | some scope =>
          rw [isScope, Option.map_some, Option.map_eq_some_iff] at sameParent
          rcases sameParent with ⟨scope', isScope', same⟩
          simp only [isScope', same, ih]

/-- Defining a name leaves all chains as they were. -/
theorem chain_define (name : String) (other : ScopeId) :
    (store.define id name value).chain other = store.chain other := by
  have sameSize : (store.define id name value).scopes.size = store.scopes.size := by
    simp [define]
  rw [chain, chain, sameSize]
  exact store.chainUpTo_eq_of_parents (store.parent?_define id value name) _ other

end Define

theorem exposedAlong_cons {member : ScopeId} {path : List ScopeId} :
    store.ExposedAlong name id (member :: path) ↔
      member = id ∨ store.binds member name = false ∧ store.ExposedAlong name id path := by
  constructor
  · rintro ⟨nearer, further, parts, unbound⟩
    cases nearer with
    | nil => exact .inl (List.cons.inj parts).1
    | cons first nearer =>
        obtain ⟨rfl, rfl⟩ := List.cons.inj parts
        rw [List.forall_mem_cons] at unbound
        exact .inr ⟨unbound.1, nearer, further, rfl, unbound.2⟩
  · rintro (rfl | ⟨isFree, nearer, further, rfl, unbound⟩)
    · exact ⟨[], path, rfl, by simp⟩
    · exact ⟨member :: nearer, further, rfl, List.forall_mem_cons.2 ⟨isFree, unbound⟩⟩

open Classical in
/-- A name that is defined in a scope is seen where the scope is exposed, and only there. -/
theorem viewAlong_define (has : store.Has id) (name : String) (value : Value)
    (path : List ScopeId) (bound : String) :
    (store.define id name value).viewAlong path bound =
      if bound = name ∧ store.ExposedAlong name id path then some value
      else store.viewAlong path bound := by
  induction path with
  | nil => simp [viewAlong, ExposedAlong]
  | cons member path ih =>
      simp only [viewAlong, bound?_define has, ih, exposedAlong_cons, binds_eq]
      by_cases isName : bound = name
      · subst isName
        by_cases isHere : member = id
        · simp [isHere]
        · cases store.bound? member bound <;> simp [isHere]
      · simp [isName]

/-- A definition is seen from the scopes on whose chains no nearer scope hides it. -/
theorem changes_define (has : store.Has id) (name : String) (value : Value) :
    store.Changes (store.define id name value) name value (store.Exposes name · id) where
  chain := store.chain_define id value name
  seen other isExposed := by
    rw [view, chain_define, viewAlong_define has]
    exact if_pos ⟨rfl, isExposed⟩
  unseen other bound isUnseen := by
    rw [view, chain_define, viewAlong_define has]
    exact if_neg isUnseen

theorem owner?_eq_some_iff {owner : ScopeId} :
    store.owner? id name = some owner ↔ store.Owns name id owner := by
  simp only [owner?, Owns, Exposes, ExposedAlong, List.find?_eq_some_iff_append,
    Bool.not_eq_true']
  exact and_comm

theorem Owns.unique {owner owner' : ScopeId} (owns : store.Owns name id owner)
    (owns' : store.Owns name id owner') : owner = owner' :=
  Option.some.inj ((owner?_eq_some_iff.2 owns).symm.trans (owner?_eq_some_iff.2 owns'))

/-- What is seen of a name is what its owner binds it to. -/
theorem view_eq (store : Store) (id : ScopeId) (name : String) :
    store.view id name = (store.owner? id name).bind (store.bound? · name) := by
  unfold view owner?
  induction store.chain id with
  | nil => rfl
  | cons member path ih =>
      simp only [viewAlong, List.find?_cons, binds_eq, ih]
      cases isBound : store.bound? member name <;> simp [isBound]

/-- A name has an owner if it is seen, and the owner binds it to what is seen. -/
theorem exists_owner_of_view {seen : Value} (isSeen : store.view id name = some seen) :
    ∃ owner, store.owner? id name = some owner ∧ store.bound? owner name = some seen := by
  rw [view_eq] at isSeen
  exact Option.bind_eq_some_iff.1 isSeen

theorem owner?_of_view_eq_none (isHidden : store.view id name = none) :
    store.owner? id name = none := by
  cases isOwner : store.owner? id name with
  | none => rfl
  | some owner =>
      have isBound := (owner?_eq_some_iff.1 isOwner).2
      rw [view_eq, isOwner, Option.bind_some] at isHidden
      simp [binds_eq, isHidden] at isBound

section Found

variable {name : Token} {owner : ScopeId}

theorem resolve_of_owner (isOwner : store.owner? id name.lexeme = some owner) :
    store.resolve id name = .ok owner := by
  rw [resolve, isOwner]

theorem resolve_of_none (isNone : store.owner? id name.lexeme = none) :
    store.resolve id name = .error ⟨.undefinedVariable, name⟩ := by
  rw [resolve, isNone]

theorem get_of_owner (isOwner : store.owner? id name.lexeme = some owner) {seen : Value}
    (isBound : store.bound? owner name.lexeme = some seen) : store.get id name = .ok seen := by
  unfold bound? at isBound
  rw [get, resolve_of_owner isOwner]
  dsimp only [Bind.bind, Except.bind]
  rw [isBound]

theorem assign_of_owner (isOwner : store.owner? id name.lexeme = some owner) (value : Value) :
    store.assign id name value = .ok (store.define owner name.lexeme value) := by
  rw [assign, resolve_of_owner isOwner]
  rfl

theorem get_of_none (isNone : store.owner? id name.lexeme = none) :
    store.get id name = .error ⟨.undefinedVariable, name⟩ := by
  rw [get, resolve_of_none isNone]
  rfl

theorem assign_of_none (isNone : store.owner? id name.lexeme = none) (value : Value) :
    store.assign id name value = .error ⟨.undefinedVariable, name⟩ := by
  rw [assign, resolve_of_none isNone]
  rfl

end Found

theorem contains_eq (store : Store) (id : ScopeId) (name : String) :
    store.contains id name = (store.owner? id name).isSome := by
  rw [contains, owner?, List.isSome_find?]

/-- An assignment is seen from the scopes from which the name has the same owner. -/
theorem changes_assign {name : Token} {value : Value} {after : Store}
    (assigned : store.assign id name value = .ok after) :
    store.Changes after name.lexeme value fun other =>
      ∃ owner, store.Owns name.lexeme other owner ∧ store.Owns name.lexeme id owner := by
  cases isOwner : store.owner? id name.lexeme with
  | none =>
      rw [assign_of_none isOwner] at assigned
      contradiction
  | some owner =>
      have owns := owner?_eq_some_iff.1 isOwner
      obtain rfl : store.define owner name.lexeme value = after :=
        Except.ok.inj ((assign_of_owner isOwner value).symm.trans assigned)
      have changes := changes_define (has_of_binds owns.2) name.lexeme value
      refine ⟨changes.chain, ?_, ?_⟩
      · rintro other ⟨owner', otherOwns, idOwns⟩
        cases idOwns.unique owns
        exact changes.seen other otherOwns.1
      · intro other bound isUnseen
        apply changes.unseen
        rintro ⟨isName, isExposed⟩
        exact isUnseen ⟨isName, owner, ⟨isExposed, owns.2⟩, owns⟩

end Store

/--
Scopes share the bindings along their chains. In a store that was made by creating scopes, defining
names and assigning to them, a name that is seen from a scope is contained there, and resolving,
reading and assigning it succeed: resolving gives the nearest scope that binds it, reading gives the
value that is seen, and what an assignment changes is seen from the scopes from which the name has
the same owner. A name that is not seen is not contained, and resolving, reading and assigning it
fail with the same error, which leaves the machine as it was. A definition is seen from the scopes
on whose chains no nearer scope hides it.
-/
theorem scope_chains_share_bindings {store : Store} (built : store.Built) {id : ScopeId}
    (has : store.Has id) (name : Token) (value : Value) :
    let error : RuntimeError := ⟨.undefinedVariable, name⟩
    (∀ other, store.Has other → store.Path other (store.chain other)) ∧
    (∀ seen, store.view id name.lexeme = some seen →
      store.contains id name.lexeme = true ∧
      store.get id name = .ok seen ∧
      (∃ owner, store.resolve id name = .ok owner ∧
        ∀ other, store.Owns name.lexeme id other ↔ other = owner) ∧
      ∃ after, store.assign id name value = .ok after ∧
        store.Changes after name.lexeme value fun other =>
          ∃ owner, store.Owns name.lexeme other owner ∧ store.Owns name.lexeme id owner) ∧
    (store.view id name.lexeme = none →
      store.contains id name.lexeme = false ∧
      store.get id name = .error error ∧
      store.resolve id name = .error error ∧
      store.assign id name value = .error error ∧
      error.message = "Undefined variable '" ++ name.lexeme ++ "'." ∧
      ∀ machine : Machine, machine.store = store → machine.current = id →
        Eval.lookup name machine = .error (.error error) machine ∧
        Eval.assign name value machine = .error (.error error) machine) ∧
    store.Changes (store.define id name.lexeme value) name.lexeme value
      (store.Exposes name.lexeme · id) := by
  intro error
  refine ⟨fun other => built.ordered.path_chain, ?_, ?_, Store.changes_define has _ value⟩
  · intro seen isSeen
    rcases Store.exists_owner_of_view isSeen with ⟨owner, isOwner, isBound⟩
    have owns := Store.owner?_eq_some_iff.1 isOwner
    have assigned := Store.assign_of_owner isOwner value
    have onlyOwner (other : ScopeId) : store.Owns name.lexeme id other ↔ other = owner := by
      constructor
      · exact fun isOther => isOther.unique owns
      · rintro rfl
        exact owns
    have contained : store.contains id name.lexeme = true := by simp [Store.contains_eq, isOwner]
    exact ⟨contained, Store.get_of_owner isOwner isBound,
      ⟨owner, Store.resolve_of_owner isOwner, onlyOwner⟩, _, assigned,
      Store.changes_assign assigned⟩
  · intro isHidden
    have isNone := Store.owner?_of_view_eq_none isHidden
    have missing : store.contains id name.lexeme = false := by simp [Store.contains_eq, isNone]
    refine ⟨missing, Store.get_of_none isNone, Store.resolve_of_none isNone,
      Store.assign_of_none isNone value, rfl, ?_⟩
    rintro machine rfl rfl
    constructor
    · change Eval.ofExcept (machine.store.get machine.current name) machine = _
      rw [Store.get_of_none isNone]
      rfl
    · rw [Eval.assign_run, Store.assign_of_none isNone value]

/--
Scope 0 binds `n`, and scopes 1 and 2 lie in it. Scope 2 binds `n` anew, and scope 3 lies in it.
What is assigned in scope 1 is seen from scope 0, while in scope 3 the binding of scope 2 hides it.
-/
theorem scope_chains_share_bindings_hidden :
    let name : Token := ⟨.identifier, "n", .null, 1⟩
    let store : Store := ⟨#[⟨none, [("n", .bool false)]⟩, ⟨some 0, []⟩,
      ⟨some 0, [("n", .string "s")]⟩, ⟨some 2, []⟩]⟩
    store.Built ∧ store.Has 1 ∧ store.view 1 "n" = some (.bool false) ∧
    ∃ after, store.assign 1 name (.bool true) = .ok after ∧
      after.view 0 "n" = some (.bool true) ∧ after.view 3 "n" = some (.string "s") := by
  intro name store
  have within {store : Store} (parent : ScopeId) (built : store.Built) (has : store.Has parent) :
      (store.create ⟨some parent, []⟩).2.Built := by
    refine .create built ?_
    rintro _ ⟨⟩
    exact has
  have outermost : (Store.create ⟨#[]⟩ ⟨none, []⟩).2.Built := .create .empty (by simp)
  have unbound := within 2 (within 0 (within 0 outermost ⟨_, rfl⟩) ⟨_, rfl⟩) ⟨_, rfl⟩
  have outer := unbound.define 0 ⟨_, rfl⟩ "n" (.bool false)
  have built : store.Built := outer.define 2 ⟨_, rfl⟩ "n" (.string "s")
  have has : store.Has 1 := ⟨_, rfl⟩
  have isSeen : store.view 1 "n" = some (.bool false) := rfl
  rcases (scope_chains_share_bindings built has name (.bool true)).2.1 _ isSeen with
    ⟨_, _, _, after, assigned, changes⟩
  have ownsFirst : store.Owns "n" 1 0 := Store.owner?_eq_some_iff.1 rfl
  refine ⟨built, has, isSeen, after, assigned, changes.seen 0 ⟨0, ?_, ownsFirst⟩, ?_⟩
  · exact Store.owner?_eq_some_iff.1 rfl
  · apply changes.unseen 3 "n"
    rintro ⟨_, owner, ownsLast, owns⟩
    have ownsHidden : store.Owns "n" 3 2 := Store.owner?_eq_some_iff.1 rfl
    cases ownsLast.unique ownsHidden
    cases owns.unique ownsFirst

end Scriptlet
