import Scriptlet.RuntimeError
import Scriptlet.Text.Quoted
import Scriptlet.Value

/-!
# Scopes

A scope binds names to values and may have a parent. All scopes of a run live in one `Store`; the
`chain` of a scope is the scope itself, its parent, and so on. A name belongs to the nearest scope
of the chain that binds it, and reading and assigning it both go there.
-/

namespace Scriptlet

/-- Names with their values, and the scope around. -/
structure Scope where
  parent : Option ScopeId
  bindings : List (String × Value)

namespace Scope

/-- Binds a name in a list of bindings, in place of the binding it had. -/
def rebind (name : String) (value : Value) : List (String × Value) → List (String × Value)
  | [] => [(name, value)]
  | (other, old) :: rest =>
    if other = name then (name, value) :: rest else (other, old) :: rebind name value rest

/-- The value that a scope itself binds a name to. -/
def find? (scope : Scope) (name : String) : Option Value :=
  scope.bindings.lookup name

/-- Whether a scope itself binds a name. -/
def binds (scope : Scope) (name : String) : Bool :=
  (scope.find? name).isSome

/-- Binds a name in a scope. -/
def define (scope : Scope) (name : String) (value : Value) : Scope :=
  { scope with bindings := rebind name value scope.bindings }

theorem lookup_rebind (name other : String) (value : Value) (bindings : List (String × Value)) :
    (rebind name value bindings).lookup other =
      if other = name then some value else bindings.lookup other := by
  induction bindings with
  | nil =>
    simp only [rebind, List.lookup_cons, List.lookup_nil]
    split <;> simp_all
  | cons binding rest ih =>
    obtain ⟨bound, old⟩ := binding
    by_cases same : bound = name
    · simp only [rebind, same, if_true, List.lookup_cons]
      split <;> simp_all
    · simp only [rebind, same, if_false, List.lookup_cons, ih]
      split <;> simp_all

/-- Defining a name gives it its value and leaves every other name as it was. -/
@[simp]
theorem find?_define (scope : Scope) (name other : String) (value : Value) :
    (scope.define name value).find? other =
      if other = name then some value else scope.find? other :=
  lookup_rebind ..

@[simp]
theorem parent_define (scope : Scope) (name : String) (value : Value) :
    (scope.define name value).parent = scope.parent := rfl

end Scope

/-- All the scopes of a run, in the order in which they were made. -/
structure Store where
  scopes : Array Scope

namespace Store

/-- A store with a single empty scope that has no parent. -/
def initial : Store :=
  ⟨#[⟨none, []⟩]⟩

/-- The scope with a given number. -/
def scope? (store : Store) (id : ScopeId) : Option Scope :=
  store.scopes[id]?

/-- Makes a new scope, and gives its number. -/
def create (store : Store) (scope : Scope) : ScopeId × Store :=
  (store.scopes.size, ⟨store.scopes.push scope⟩)

/-- Binds a name in one scope, whatever its parents bind. -/
def define (store : Store) (id : ScopeId) (name : String) (value : Value) : Store :=
  ⟨store.scopes.modify id (·.define name value)⟩

/-- Making a scope leaves the others as they were. -/
theorem scope?_create (store : Store) (scope : Scope) (id : ScopeId) :
    (store.create scope).2.scope? id =
      if id = store.scopes.size then some scope else store.scope? id := by
  simp [create, scope?, Array.getElem?_push]

/-- Defining a name changes one scope. -/
theorem scope?_define (store : Store) (id other : ScopeId) (name : String) (value : Value) :
    (store.define id name value).scope? other =
      if other = id then (store.scope? id).map (·.define name value) else store.scope? other := by
  by_cases same : other = id
  · subst same
    simp [define, scope?, Array.getElem?_modify]
  · have differs : ¬ id = other := fun equal => same equal.symm
    simp [define, scope?, Array.getElem?_modify, same, differs]

/-- At most `steps` scopes of the chain of a scope. -/
def chainUpTo (store : Store) : Nat → ScopeId → List ScopeId
  | 0, _ => []
  | steps + 1, id =>
    match store.scope? id with
    | none => []
    | some scope =>
      match scope.parent with
      | none => [id]
      | some parent => id :: store.chainUpTo steps parent

/-- A scope, its parent, the parent of that, and so on. -/
def chain (store : Store) (id : ScopeId) : List ScopeId :=
  store.chainUpTo store.scopes.size id

/-- Whether a scope itself binds a name. -/
def binds (store : Store) (id : ScopeId) (name : String) : Bool :=
  (store.scope? id).any (·.binds name)

/-- The nearest scope that binds a name, seen from a scope. -/
def owner? (store : Store) (id : ScopeId) (name : String) : Option ScopeId :=
  (store.chain id).find? (store.binds · name)

/-- Whether a name is bound anywhere in the chain of a scope. -/
def contains (store : Store) (id : ScopeId) (name : String) : Bool :=
  (store.chain id).any (store.binds · name)

/-- The nearest scope that binds a token's name. -/
def resolve (store : Store) (id : ScopeId) (name : Token) : Except RuntimeError ScopeId :=
  match store.owner? id name.lexeme with
  | some owner => .ok owner
  | none => .error ⟨.undefinedVariable, name⟩

/-- The value of a token's name. -/
def get (store : Store) (id : ScopeId) (name : Token) : Except RuntimeError Value := do
  let owner ← store.resolve id name
  match (store.scope? owner).bind (·.find? name.lexeme) with
  | some value => .ok value
  | none => .error ⟨.undefinedVariable, name⟩

/-- Binds a token's name anew in the nearest scope that binds it. -/
def assign (store : Store) (id : ScopeId) (name : Token) (value : Value) :
    Except RuntimeError Store := do
  let owner ← store.resolve id name
  return store.define owner name.lexeme value

/-- The number of scopes around a scope. -/
def depth (store : Store) (id : ScopeId) : Nat :=
  (store.chain id).length - 1

/-- The bindings of a scope; none if there is no such scope. -/
def bindings (store : Store) (id : ScopeId) : List (String × Value) :=
  ((store.scope? id).map Scope.bindings).getD []

/-- The names that a scope itself binds, ordered by their characters. -/
def sortedNames (store : Store) (id : ScopeId) : List String :=
  ((store.bindings id).map Prod.fst).mergeSort fun first second => decide (first ≤ second)

/-- The names that a scope itself binds, and the number of scopes around it. -/
def description (store : Store) (id : ScopeId) : String :=
  let names := (store.sortedNames id).map Text.quoted
  "Environment(names=[" ++ ", ".intercalate names ++ "], depth=" ++ toString (store.depth id) ++ ")"

end Store

end Scriptlet
