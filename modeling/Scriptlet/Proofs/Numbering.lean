import Scriptlet.Proofs.Invariant

/-!
# Functions are numbered as they are made

The serial number of a function that is bound anywhere is below the number of functions made so
far, so that a new function differs from all others. It is so at first, and programs keep it so
(`Machine.numbered_initial`, `Machine.Numbered.interpret`).
-/

namespace Scriptlet

theorem Scope.mem_of_find?_defineAll {pairs : List (Token × Value)} {scope : Scope} {name : String}
    {value : Value}
    (isBound : (pairs.foldl (fun scope (parameter, argument) =>
      scope.define parameter.lexeme argument) scope).find? name = some value) :
    scope.find? name = some value ∨ value ∈ pairs.map Prod.snd := by
  induction pairs generalizing scope with
  | nil => exact .inl isBound
  | cons pair pairs ih =>
      rcases pair with ⟨parameter, argument⟩
      rcases ih isBound with isDefined | isLater
      · rw [Scope.find?_define] at isDefined
        split at isDefined
        · cases isDefined
          exact .inr (by simp)
        · exact .inl isDefined
      · exact .inr (List.mem_cons_of_mem _ isLater)

/-- A call binds nothing but its arguments. -/
theorem mem_of_find?_callScope {closure : Closure} {arguments : List Value} {name : String}
    {value : Value} (isBound : (Eval.callScope closure arguments).find? name = some value) :
    value ∈ arguments := by
  rcases Scope.mem_of_find?_defineAll isBound with isEmpty | isArgument
  · contradiction
  · rcases List.mem_map.1 isArgument with ⟨⟨parameter, argument⟩, isPair, rfl⟩
    exact (List.of_mem_zip isPair).2

namespace Store

variable {store : Store} {id : ScopeId} {name : Token} {value : Value}

/-- A name that can be read is bound somewhere. -/
theorem exists_of_get_eq_ok (isValue : store.get id name = .ok value) :
    ∃ owner scope, store.scope? owner = some scope ∧ scope.find? name.lexeme = some value := by
  unfold get at isValue
  cases isOwner : store.resolve id name with
  | error error =>
      rw [isOwner] at isValue
      contradiction
  | ok owner =>
      rw [isOwner] at isValue
      dsimp only [Bind.bind, Except.bind] at isValue
      split at isValue
      · rename_i isBound
        cases isValue
        exact ⟨owner, Option.bind_eq_some_iff.1 isBound⟩
      · contradiction

/-- Assigning defines a name anew in one scope. -/
theorem exists_of_assign_eq_ok {after : Store} (assigned : store.assign id name value = .ok after) :
    ∃ owner, store.resolve id name = .ok owner ∧ after = store.define owner name.lexeme value := by
  unfold assign at assigned
  cases isOwner : store.resolve id name with
  | error error =>
      rw [isOwner] at assigned
      contradiction
  | ok owner =>
      rw [isOwner] at assigned
      cases assigned
      exact ⟨owner, rfl, rfl⟩

/-- Whether something holds of all the values that are bound in a store. -/
def AllBound (holds : Value → Prop) (store : Store) : Prop :=
  ∀ id scope name value, store.scope? id = some scope → scope.find? name = some value → holds value

namespace AllBound

variable {holds : Value → Prop} (all : store.AllBound holds)

include all

theorem mono {others : Value → Prop} (implied : ∀ {value}, holds value → others value) :
    store.AllBound others :=
  fun id scope name value isScope isBound => implied (all id scope name value isScope isBound)

theorem define (id : ScopeId) (name : String) (isHeld : holds value) :
    (store.define id name value).AllBound holds := by
  intro other scope bound found isScope isBound
  rw [Store.scope?_define] at isScope
  split at isScope
  · rcases Option.map_eq_some_iff.1 isScope with ⟨before, isBefore, rfl⟩
    rw [Scope.find?_define] at isBound
    split at isBound
    · cases isBound
      exact isHeld
    · exact all _ _ _ _ isBefore isBound
  · exact all _ _ _ _ isScope isBound

theorem create {scope : Scope}
    (isHeld : ∀ name value, scope.find? name = some value → holds value) :
    (store.create scope).2.AllBound holds := by
  intro id other bound found isScope isBound
  rw [Store.scope?_create] at isScope
  split at isScope
  · cases isScope
    exact isHeld _ _ isBound
  · exact all _ _ _ _ isScope isBound

end AllBound

theorem allBound_initial (holds : Value → Prop) : initial.AllBound holds := by
  intro id scope name value isScope isBound
  have isEmpty : scope = ⟨none, []⟩ := by
    cases id with
    | zero => cases isScope; rfl
    | succ id => contradiction
  rw [isEmpty] at isBound
  contradiction

end Store

/-- Whether a value is no function, or one with a number below `count`. -/
def Value.NumberedBelow (count : Nat) : Value → Prop
  | .constant _ => True
  | .function closure => closure.serial < count

theorem Value.NumberedBelow.mono {count more : Nat} {value : Value} (grows : count ≤ more)
    (below : value.NumberedBelow count) : value.NumberedBelow more := by
  cases value with
  | constant value => trivial
  | function closure => exact Nat.lt_of_lt_of_le below grows

/-- Whether all the functions that are bound in a store have numbers below `count`. -/
def Store.NumberedBelow (store : Store) (count : Nat) : Prop :=
  ∀ id scope name value, store.scope? id = some scope → scope.find? name = some value →
    value.NumberedBelow count

/-- Whether the functions of a machine are numbered as they were made. -/
def Machine.Numbered (machine : Machine) : Prop :=
  machine.store.NumberedBelow machine.functions

/-- Runs keep functions numbered as they are made. -/
def Invariant.numbering : Invariant where
  Holds := Machine.Numbered
  Valid machine value := value.NumberedBelow machine.functions
  Grows machine after := machine.functions ≤ after.functions
  refl _ := Nat.le_refl _
  trans := Nat.le_trans
  constant _ _ := trivial
  mono grows below := below.mono grows
  code _ statement _ := statement.fits_of_all fun _ _ => trivial
  bound numbered isValue := by
    rcases Store.exists_of_get_eq_ok isValue with ⟨owner, scope, isScope, isBound⟩
    exact numbered _ _ _ _ isScope isBound
  print _ numbered := ⟨numbered, Nat.le_refl _⟩
  define name numbered below := ⟨Store.AllBound.define numbered _ name below, Nat.le_refl _⟩
  assign numbered below assigned := by
    rcases Store.exists_of_assign_eq_ok assigned with ⟨owner, _, rfl⟩
    exact ⟨Store.AllBound.define numbered owner _ below, Nat.le_refl _⟩
  close _ _ _ numbered _ :=
    ⟨Store.AllBound.mono numbered fun below => below.mono (Nat.le_succ _), Nat.le_succ _,
      Nat.lt_succ_self _⟩
  enter numbered opens := by
    refine Store.AllBound.create numbered fun name value isBound => ?_
    cases opens with
    | block => contradiction
    | call _ validArguments => exact validArguments _ (mem_of_find?_callScope isBound)
  leave _ _ numbered grows := ⟨numbered, grows, fun _ below => below⟩

/-- Any statement at all keeps functions numbered as they are made. -/
theorem Invariant.numbering.execute (rounds depth : Nat) (statement : Stmt) (machine : Machine)
    (numbered : numbering.Holds machine) :
    numbering.Ends numbering.GoodFlow machine (statement.execute rounds depth machine) :=
  Invariant.execute numbering rounds depth (statement.fits_of_all fun _ _ => trivial) machine
    numbered

namespace Machine

theorem numbered_initial : initial.Numbered :=
  Store.allBound_initial _

/-- Programs, which may run in any scope, keep functions numbered as they are made. -/
theorem Numbered.interpret {machine : Machine} (numbered : machine.Numbered) (limits : Limits)
    (statements : List Stmt) (scope : ScopeId) :
    Invariant.numbering.Ends (fun _ _ => True) machine
      (interpret limits statements scope machine) := by
  apply Invariant.numbering.interpret limits fun statement _ =>
    statement.fits_of_all fun _ _ => trivial
  · exact numbered
  · intro after holds grows
    exact ⟨holds, grows⟩

end Machine

end Scriptlet
