import Scriptlet.Proofs.Concatenation
import Scriptlet.Proofs.Numbering

/-!
# Where runtime errors come from

A program can call functions of programs that were run before it, whose tokens say nothing about
the text they were scanned in. Still it can be told whether an error lies in the program itself or
in such a function: if all functions that are already bound are moved a line down, the error stays
where it is or moves along (`interpret_lowered`).
-/

namespace Scriptlet

section MapTokens

variable (image : Token → Token)

/-- A function with an image in the place of every token. -/
def Closure.mapTokens (closure : Closure) : Closure :=
  { closure with
    name := image closure.name
    parameters := closure.parameters.map image
    body := Stmt.mapAllTokens image closure.body }

def Value.mapTokens : Value → Value
  | .constant value => .constant value
  | .function closure => .function (closure.mapTokens image)

def Scope.mapTokens (scope : Scope) : Scope :=
  { scope with
    bindings := scope.bindings.map fun binding => (binding.1, binding.2.mapTokens image) }

theorem Scope.find?_mapTokens (scope : Scope) (name : String) :
    (scope.mapTokens image).find? name = (scope.find? name).map (Value.mapTokens image) := by
  rcases scope with ⟨parent, bindings⟩
  change (bindings.map _).lookup name = (bindings.lookup name).map _
  induction bindings with
  | nil => rfl
  | cons binding rest ih =>
      rw [List.map_cons, List.lookup_cons, List.lookup_cons, ih]
      split <;> rfl

end MapTokens

/-- A machine whose functions are all a line further down. -/
def Machine.lowered (machine : Machine) : Machine :=
  { machine with store := ⟨machine.store.scopes.map (Scope.mapTokens (Token.later 1))⟩ }

theorem Machine.scope?_lowered (machine : Machine) (id : ScopeId) :
    machine.lowered.store.scope? id =
      (machine.store.scope? id).map (Scope.mapTokens (Token.later 1)) :=
  Array.getElem?_map ..

/-- There are no functions in the beginning. -/
theorem Machine.not_mentions_initial (token : Token) : ¬Machine.initial.Mentions token := by
  rintro ⟨id, scope, name, closure, isScope, isBound, _⟩
  exact Store.allBound_initial (fun _ => False) id scope name _ isScope isBound

/-- That a token of a function in a machine corresponds to the one a line below. -/
def Likeness.lowered (machine : Machine) : Likeness :=
  .along machine.Mentions (Token.later 1) fun _ => ⟨rfl, rfl, rfl⟩

theorem eq_iff_of_same_serials {serial serial' other other' : Nat} (same : serial' = serial)
    (otherSame : other' = other) : serial = other ↔ serial' = other' := by
  rw [same, otherSame]

/--
The comparison of a run of a text with the same run on a lowered machine. The tokens of the text are
the same, those of functions a line further down.
-/
def Comparison.lowered (machine : Machine) (text : String) : Comparison where
  left := machine
  right := machine.lowered
  Accepts likeness :=
    likeness = .only (· ∈ (scan text).tokens) ∨ likeness = .lowered machine
  Sees _ := True
  Same serial serial' := serial' = serial
  sees_new _ := trivial
  same_new _ := rfl
  same_iff := eq_iff_of_same_serials

namespace Comparison

variable (machine : Machine) (text : String)

theorem lowered_values {id : ScopeId} {scope : Scope} {name : String} {value : Value}
    (isScope : machine.store.scope? id = some scope) (isValue : scope.find? name = some value) :
    (lowered machine text).Values value (value.mapTokens (Token.later 1)) := by
  cases value with
  | constant value => exact .constant value
  | function closure =>
      have mentioned : ∀ token ∈ closure.tokens,
          (Likeness.lowered machine).Holds token (token.later 1) :=
        fun token member => ⟨⟨id, scope, name, closure, isScope, isValue, member⟩, rfl⟩
      simp only [Closure.tokens, List.forall_mem_append, List.forall_mem_cons] at mentioned
      exact .function {
        code := ⟨_, .inr rfl, mentioned.1.1,
          List.forall₂_map_right_iff.2 (List.forall₂_same.2 mentioned.1.2),
          Stmt.correspond_mapAllTokens _ mentioned.2⟩
        scope := rfl
        seen := trivial
        serial := rfl }

theorem lowered_machines :
    (lowered machine text).Machines machine.current machine machine.lowered where
  stores := {
    size := by simp [Machine.lowered]
    grown := Nat.le_refl _
    seen := by
      intro id _
      rw [Machine.scope?_lowered]
      cases isScope : machine.store.scope? id with
      | none => exact .none
      | some scope =>
          refine .some ⟨rfl, fun _ _ => trivial, fun name => ?_⟩
          rw [Scope.find?_mapTokens]
          cases isValue : scope.find? name with
          | none => exact .none
          | some value => exact .some (lowered_values machine text isScope isValue)
    unseen := fun unseen => absurd trivial unseen }
  currents := ⟨rfl, rfl⟩
  seen := trivial
  globals := ⟨rfl, rfl⟩
  functions := ⟨0, rfl, rfl⟩
  outputs := ⟨"", String.append_empty.symm, String.append_empty.symm⟩

end Comparison

open Comparison

/--
If the functions of a machine are moved a line down, a program ends with the same error. It is at
the same token, which is one of the text, or it has moved along with a token of a function.
-/
theorem interpret_lowered {text : String} {depth : Nat} {parsed : Parsed}
    (read : parse depth (scan text).tokens = .ok parsed) {limits : Limits} {scope : ScopeId}
    {machine after : Machine} {error : RuntimeError}
    (fails : interpret limits parsed.statements scope machine = .ok (some error) after) :
    ∃ other after', interpret limits parsed.statements scope machine.lowered =
        .ok (some other) after' ∧
      (error.token ∈ (scan text).tokens ∧ other = error ∨
        machine.Mentions error.token ∧ other = { error with token := error.token.later 1 }) := by
  rcases parse_corresponds (Likeness.forall₂_only fun _ member => member) read with
    ⟨again, readAgain, selves, _⟩
  cases read.symm.trans readAgain
  have executes : (lowered machine text).Simulates (lowered machine text).Flows
      (Eval.sequence (Stmt.execute limits.rounds limits.depth) parsed.statements) _ :=
    .sequence selves fun _ _ => Comparison.execute limits.rounds limits.depth (.inl rfl)
  have results : (lowered machine text).Results (Option.Rel (lowered machine text).Errors)
      machine.current (interpret limits parsed.statements scope machine)
      (interpret limits parsed.statements scope machine.lowered) := by
    rw [Eval.interpret_apply, Eval.interpret_apply]
    apply Results.conclude
    exact Simulates.within trivial executes _ _ _ (lowered_machines machine text)
  rw [fails] at results
  generalize interpret limits parsed.statements scope machine.lowered = result at results
  cases results with
  | ok errors machines =>
      cases errors with
      | @some error other errors =>
          refine ⟨other, _, rfl, ?_⟩
          rcases other with ⟨cause, token⟩
          obtain rfl : error.cause = cause := errors.cause
          rcases errors.token with ⟨_, rfl | rfl, isToken, same⟩
          · obtain rfl : token = error.token := same
            exact .inl ⟨isToken, rfl⟩
          · obtain rfl : token = error.token.later 1 := same
            exact .inr ⟨isToken, rfl⟩

end Scriptlet
