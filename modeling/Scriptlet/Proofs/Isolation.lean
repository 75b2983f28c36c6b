import Scriptlet.Proofs.Comparison.Evaluation
import Scriptlet.Proofs.Numbering

/-!
# Isolation

What a program can get at from a scope is the reach of the scope: its parents, the scopes of the
functions that are bound there, and so on. A run in a scope depends on nothing outside the reach of
the scope and changes nothing there (`execute_isolated`).

The numbers of new functions are the one thing in which two runs may differ that agree on what they
can get at. All that a program sees of the numbers is which of them are equal.
-/

namespace Scriptlet

/--
The scopes that a program can get at from a scope: the scope itself, the parents of such scopes,
and the scopes of the functions that are bound in them.
-/
inductive Store.Reaches (store : Store) (root : ScopeId) : ScopeId → Prop
  | root : Reaches store root root
  | parent {id parent : ScopeId} {scope : Scope} (reached : Reaches store root id)
      (isScope : store.scope? id = some scope) (isParent : scope.parent = some parent) :
      Reaches store root parent
  | closure {id : ScopeId} {scope : Scope} {name : String} {closure : Closure}
      (reached : Reaches store root id) (isScope : store.scope? id = some scope)
      (isBound : scope.find? name = some (.function closure)) : Reaches store root closure.scope

/-- A reach whose scopes are unchanged is unchanged itself. -/
theorem Store.reaches_iff {store after : Store} {root : ScopeId}
    (unchanged : ∀ {id}, store.Reaches root id → after.scope? id = store.scope? id) (id : ScopeId) :
    after.Reaches root id ↔ store.Reaches root id := by
  constructor
  · intro reached
    induction reached with
    | root => exact .root
    | parent _ isScope isParent ih => exact .parent ih (unchanged ih ▸ isScope) isParent
    | closure _ isScope isBound ih => exact .closure ih (unchanged ih ▸ isScope) isBound
  · intro reached
    induction reached with
    | root => exact .root
    | parent reached isScope isParent ih =>
        exact .parent ih ((unchanged reached).trans isScope) isParent
    | closure reached isScope isBound ih =>
        exact .closure ih ((unchanged reached).trans isScope) isBound

/-- A value with another number if it is a function. -/
def Value.renumber (number : Nat → Nat) : Value → Value
  | .constant value => .constant value
  | .function closure => .function { closure with serial := number closure.serial }

theorem Value.map_renumber_self (value : Option Value) :
    value.map (Value.renumber fun serial => serial) = value := by
  rcases value with _ | _ | _ <;> rfl

/-- The same end of a statement, with functions numbered otherwise. -/
def Flow.renumber (number : Nat → Nat) : Flow → Flow
  | .next => .next
  | .returned value => .returned (value.renumber number)

/-- That two scopes have the same parent and bindings, with functions numbered otherwise. -/
structure Scope.Agree (number : Nat → Nat) (scope scope' : Scope) : Prop where
  parent : scope'.parent = scope.parent
  bindings : ∀ name, scope'.find? name = (scope.find? name).map (Value.renumber number)

namespace Machine

/-- That two machines have equally many scopes and agree on the reach of one of them. -/
structure Agree (root : ScopeId) (left right : Machine) : Prop where
  numbered : left.Numbered ∧ right.Numbered
  size : left.store.scopes.size = right.store.scopes.size
  scopes : ∀ {id}, left.store.Reaches root id →
    Option.Rel (Scope.Agree fun serial => serial) (left.store.scope? id) (right.store.scope? id)

variable (root : ScopeId) (left right : Machine)

/-- The number that a function has when new functions are counted from another number on. -/
def renumbered (serial : Nat) : Nat :=
  if serial < left.functions then serial else right.functions + (serial - left.functions)

/--
What two runs in a scope leave: the same output, scopes that agree where they can be got at or are
new, and all other scopes as they were.
-/
structure EndAlike (after after' : Machine) : Prop where
  numbered : after.Numbered ∧ after'.Numbered
  size : after.store.scopes.size = after'.store.scopes.size
  currents : after.current = left.current ∧ after'.current = right.current
  globals : after.globals = left.globals ∧ after'.globals = right.globals
  functions : ∃ count,
    after.functions = left.functions + count ∧ after'.functions = right.functions + count
  outputs : ∃ printed,
    after.output = left.output ++ printed ∧ after'.output = right.output ++ printed
  reached : ∀ {id}, left.store.Reaches root id ∨ left.store.scopes.size ≤ id →
    Option.Rel (Scope.Agree (renumbered left right)) (after.store.scope? id)
      (after'.store.scope? id)
  unreached : ∀ {id}, ¬left.store.Reaches root id → id < left.store.scopes.size →
    after.store.scope? id = left.store.scope? id ∧ after'.store.scope? id = right.store.scope? id
  /-- What can be got at from a scope apart is the same as before. -/
  apart : ∀ {other}, (∀ {id}, left.store.Reaches other id →
    ¬left.store.Reaches root id ∧ id < left.store.scopes.size) →
    ∀ id, after.store.Reaches other id ↔ left.store.Reaches other id

/-- That two runs in a scope come to the same result, or stop for the same reason. -/
inductive RunAlike {α : Type} (same : α → α → Prop) :
    EStateM.Result Stop Machine α → EStateM.Result Stop Machine α → Prop
  | ok {value value' : α} {after after' : Machine} (values : same value value')
      (afters : EndAlike root left right after after') :
      RunAlike same (.ok value after) (.ok value' after')
  | error {stop : Stop} {after after' : Machine} (afters : EndAlike root left right after after') :
      RunAlike same (.error stop after) (.error stop after')

/-- Programs that run alike end with the same error, if any. -/
theorem RunAlike.conclude {left right : Machine} {root : ScopeId} {same : Flow → Flow → Prop}
    {result result' : EStateM.Result Stop Machine Flow}
    (alike : RunAlike root left right same result result') :
    RunAlike root left right Eq (Eval.conclude result) (Eval.conclude result') := by
  cases alike with
  | ok values afters => exact .ok rfl afters
  | @error stop _ _ afters =>
      cases stop with
      | error error => exact .ok rfl afters
      | tooDeep => exact .error afters
      | unfinished => exact .error afters

end Machine

/-- The comparison of two runs in a scope, by what they can get at. -/
def Comparison.isolated (root : ScopeId) (left right : Machine) : Comparison where
  left := left
  right := right
  Accepts likeness := likeness = .only fun _ => True
  Sees id := left.store.Reaches root id ∨ left.store.scopes.size ≤ id
  Same serial serial' :=
    (serial < left.functions ∧ serial < right.functions ∧ serial' = serial) ∨
    (left.functions ≤ serial ∧ serial' = right.functions + (serial - left.functions))
  sees_new := .inr
  same_new count := by omega
  same_iff := by omega

namespace Comparison

variable {root : ScopeId} {left right : Machine}

theorem Values.eq_renumber {value value' : Value}
    (values : (isolated root left right).Values value value') :
    value' = value.renumber (left.renumbered right) := by
  cases values with
  | constant value => rfl
  | @function closure closure' closures =>
      rcases closures.code with ⟨likeness, rfl, names, parameterLists, bodies⟩
      have serials : closure'.serial = left.renumbered right closure.serial := by
        have same := closures.serial
        simp only [isolated] at same
        unfold Machine.renumbered
        split <;> omega
      have scopes := closures.scope
      rcases closure' with ⟨name', parameters', body', scope', serial'⟩
      dsimp only at names parameterLists bodies serials scopes
      simp only [Value.renumber]
      rw [names.2, Likeness.eq_of_forall₂_only parameterLists, Stmt.eq_of_forall₂_only bodies,
        serials, scopes]
      rfl

theorem Flows.eq_renumber {flow flow' : Flow}
    (flows : (isolated root left right).Flows flow flow') :
    flow' = flow.renumber (left.renumbered right) := by
  cases flows with
  | next => rfl
  | returned values => rw [values.eq_renumber, Flow.renumber]

theorem Errors.eq_of_isolated {error error' : RuntimeError}
    (errors : (isolated root left right).Errors error error') : error' = error := by
  rcases errors.token with ⟨likeness, rfl, tokens⟩
  rcases error with ⟨cause, token⟩
  rcases error' with ⟨cause', token'⟩
  cases errors.cause
  cases tokens.2
  rfl

theorem Stops.eq_of_isolated {stop stop' : Stop}
    (stops : (isolated root left right).Stops stop stop') : stop' = stop := by
  cases stops with
  | error errors => rw [errors.eq_of_isolated]
  | tooDeep => rfl
  | unfinished => rfl

theorem Scopes.agree {scope scope' : Scope}
    (scopes : (isolated root left right).Scopes scope scope') :
    scope.Agree (left.renumbered right) scope' where
  parent := scopes.parent.symm
  bindings name := by
    have found := scopes.bindings name
    generalize scope.find? name = value at found
    generalize scope'.find? name = value' at found
    cases found with
    | none => rfl
    | some values => rw [values.eq_renumber, Option.map_some]

theorem not_sees {id : ScopeId} (unreached : ¬left.store.Reaches root id)
    (isOld : id < left.store.scopes.size) : ¬(isolated root left right).Sees id := by
  rintro (reached | isNew)
  · exact unreached reached
  · exact absurd isOld (Nat.not_lt.2 isNew)

/-- Machines that correspond after two runs have ended alike. -/
theorem Machines.endAlike {after after' : Machine}
    (machines : (isolated root left right).Machines root after after')
    (numbered : after.Numbered ∧ after'.Numbered) :
    Machine.EndAlike root left right { after with current := left.current }
      { after' with current := right.current } where
  numbered := numbered
  size := machines.stores.size
  currents := ⟨rfl, rfl⟩
  globals := machines.globals
  functions := machines.functions
  outputs := machines.outputs
  reached {id} seen := by
    have found := machines.stores.seen seen
    generalize after.store.scope? id = scope at found
    generalize after'.store.scope? id = scope' at found
    cases found with
    | none => exact .none
    | some scopes => exact .some scopes.agree
  unreached unreached isOld := machines.stores.unseen (not_sees unreached isOld)
  apart apart := Store.reaches_iff fun reached =>
    (machines.stores.unseen (not_sees (apart reached).1 (apart reached).2)).1

section Start

variable {id : ScopeId} {scope scope' : Scope} (reached : left.store.Reaches root id)
  (isScope : left.store.scope? id = some scope)

include reached isScope

theorem isolated_values {name : String} {value : Value} (isBound : scope.find? name = some value)
    (below : value.NumberedBelow left.functions) (below' : value.NumberedBelow right.functions) :
    (isolated root left right).Values value value := by
  cases value with
  | constant value => exact .constant value
  | function closure =>
      have same (token : Token) : (Likeness.only fun _ => True).Holds token token := ⟨trivial, rfl⟩
      exact .function {
        code := ⟨_, rfl, same _, List.forall₂_same.2 fun token _ => same token,
          Stmt.correspond_selves _ fun token _ => same token⟩
        scope := rfl
        seen := .inl (.closure reached isScope isBound)
        serial := .inl ⟨below, below', rfl⟩ }

theorem isolated_scopes (agree : left.Agree root right)
    (isScope' : right.store.scope? id = some scope')
    (scopes : scope.Agree (fun serial => serial) scope') :
    (isolated root left right).Scopes scope scope' where
  parent := scopes.parent.symm
  seen parent isParent := .inl (.parent reached isScope isParent)
  bindings name := by
    have bound := scopes.bindings name
    rw [Value.map_renumber_self] at bound
    rw [bound]
    cases isBound : scope.find? name with
    | none => exact .none
    | some value =>
        exact .some (isolated_values reached isScope isBound
          (agree.numbered.1 _ _ _ _ isScope isBound)
          (agree.numbered.2 _ _ _ _ isScope' (bound.trans isBound)))

end Start

/-- Machines that agree on a reach correspond before two runs. -/
theorem isolated_machines (agree : left.Agree root right) :
    (isolated root left right).Machines root { left with current := root }
      { right with current := root } where
  stores := {
    size := agree.size
    grown := Nat.le_refl _
    seen := by
      rintro id (reached | isNew)
      · have found := agree.scopes reached
        dsimp only
        generalize isScope : left.store.scope? id = scope at found
        generalize isScope' : right.store.scope? id = scope' at found
        cases found with
        | none => exact .none
        | some scopes => exact .some (isolated_scopes reached isScope agree isScope' scopes)
      · have missing : left.store.scope? id = none := Array.getElem?_eq_none isNew
        have missing' : right.store.scope? id = none :=
          Array.getElem?_eq_none (agree.size ▸ isNew)
        dsimp only
        rw [missing, missing']
        exact .none
    unseen := fun _ => ⟨rfl, rfl⟩ }
  currents := ⟨rfl, rfl⟩
  seen := .inl .root
  globals := ⟨rfl, rfl⟩
  functions := ⟨0, rfl, rfl⟩
  outputs := ⟨"", String.append_empty.symm, String.append_empty.symm⟩

/-- Steps that correspond, and keep functions numbered, run alike in a scope. -/
theorem Simulates.runAlike {α : Type} {related same : α → α → Prop} {good : Machine → α → Prop}
    {action : Eval α} (agree : left.Agree root right)
    (actions : (isolated root left right).Simulates related action action)
    (keeps : ∀ machine, machine.Numbered → Invariant.numbering.Ends good machine (action machine))
    (sameOf : ∀ {value value'}, related value value' → same value value') :
    Machine.RunAlike root left right same (Eval.within root action left)
      (Eval.within root action right) := by
  have results := actions root _ _ (isolated_machines agree)
  have ends := keeps { left with current := root } agree.numbered.1
  have ends' := keeps { right with current := root } agree.numbered.2
  rw [Eval.within_apply, Eval.within_apply]
  generalize action { left with current := root } = result at results ends
  generalize action { right with current := root } = result' at results ends'
  cases results with
  | ok values machines =>
      cases ends with
      | ok numbered =>
          cases ends' with
          | ok numbered' => exact .ok (sameOf values) (machines.endAlike ⟨numbered, numbered'⟩)
  | error stops machines =>
      cases ends with
      | error numbered =>
          cases ends' with
          | error numbered' =>
              rw [stops.eq_of_isolated]
              exact .error (machines.endAlike ⟨numbered, numbered'⟩)

end Comparison

/--
Two machines that agree on the reach of a scope cannot be told apart there: a statement executed in
that scope ends in the same way, prints the same and leaves scopes that agree again, be they in the
reach or new, while nothing outside the reach is changed. So it is with a whole program that is run
in the scope.
-/
theorem execute_isolated {root : ScopeId} {left right : Machine} (agree : left.Agree root right) :
    (∀ rounds depth statement,
      Machine.RunAlike root left right
        (fun flow flow' => flow' = flow.renumber (left.renumbered right))
        (Eval.within root (Stmt.execute rounds depth statement) left)
        (Eval.within root (Stmt.execute rounds depth statement) right)) ∧
    ∀ limits statements,
      Machine.RunAlike root left right Eq (interpret limits statements root left)
        (interpret limits statements root right) := by
  have accepted : (Comparison.isolated root left right).Accepts (.only fun _ => True) := rfl
  have self (statement : Stmt) : statement.Corresponds (.only fun _ => True) statement :=
    statement.corresponds_self fun _ _ => ⟨trivial, rfl⟩
  constructor
  · intro rounds depth statement
    exact (Comparison.execute rounds depth accepted (self statement)).runAlike agree
      (Invariant.numbering.execute rounds depth statement) fun flows => flows.eq_renumber
  · intro limits statements
    have selves : List.Forall₂ (Stmt.Corresponds (.only fun _ => True)) statements statements :=
      List.forall₂_same.2 fun statement _ => self statement
    have alike : Machine.RunAlike root left right (fun _ _ => True)
        (Eval.within root (Eval.sequence (Stmt.execute limits.rounds limits.depth) statements) left)
        (Eval.within root (Eval.sequence (Stmt.execute limits.rounds limits.depth) statements)
          right) :=
      (Comparison.Simulates.sequence selves fun _ _ =>
        Comparison.execute limits.rounds limits.depth accepted).runAlike agree
          (.sequence (Invariant.numbering.execute limits.rounds limits.depth) statements)
          fun _ => trivial
    rw [Eval.interpret_apply, Eval.interpret_apply]
    exact alike.conclude

/--
A scope apart from the globals binds a variable and a function that assigns to it. What runs there
does not depend on what the globals are, nor on what has been printed and made before.
-/
theorem execute_isolated_globals :
    let name := fun lexeme => Token.mk .identifier lexeme .null 1
    let closure : Closure :=
      ⟨name "f", [], [.expression (.assign (name "n") (.literal (.bool false)))], 1, 0⟩
    let scope : Scope := ⟨none, [("n", .bool true), ("f", .function closure)]⟩
    let left : Machine := ⟨⟨#[⟨none, [("a", .bool true)]⟩, scope]⟩, 0, 0, 1, ""⟩
    let right : Machine := ⟨⟨#[⟨none, [("b", .string "x")]⟩, scope]⟩, 0, 0, 3, "x\n"⟩
    left.Agree 1 right ∧
    ∀ limits statements,
      Machine.RunAlike 1 left right Eq (interpret limits statements 1 left)
        (interpret limits statements 1 right) := by
  intro name closure scope left right
  have values {bindings : List (String × Value)} {name : String} {value : Value}
      (isBound : Scope.find? ⟨none, bindings⟩ name = some value) :
      value ∈ bindings.map Prod.snd := by
    rcases List.lookup_eq_some_iff.1 isBound with ⟨before, after, rfl, _⟩
    simp
  have numbered {global : String × Value} {count : Nat} (below : global.2.NumberedBelow count)
      (isPositive : 0 < count) : Store.NumberedBelow ⟨#[⟨none, [global]⟩, scope]⟩ count := by
    intro id _ _ value isScope isBound
    rcases id with _ | _ | _
    · cases isScope
      obtain rfl : value = global.2 := by simpa using values isBound
      exact below
    · cases isScope
      have either : value = .bool true ∨ value = .function closure := by
        simpa using values isBound
      rcases either with rfl | rfl
      · trivial
      · exact isPositive
    · cases isScope
  have onlyItself : ∀ id, left.store.Reaches 1 id → id = 1 := by
    intro id reached
    induction reached with
    | root => rfl
    | parent _ isScope isParent ih =>
        subst ih
        cases isScope
        contradiction
    | closure _ isScope isBound ih =>
        subst ih
        cases isScope
        obtain rfl : _ = closure := by simpa using values isBound
        rfl
  have agree : left.Agree 1 right := {
    numbered := ⟨numbered trivial (by decide), numbered trivial (by decide)⟩
    size := rfl
    scopes := by
      intro id reached
      cases onlyItself id reached
      exact .some ⟨rfl, fun name => (Value.map_renumber_self _).symm⟩ }
  exact ⟨agree, (execute_isolated agree).2⟩

end Scriptlet
