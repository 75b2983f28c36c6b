import Scriptlet.Evaluation

/-!
# Laws of steps

How steps act one after the other, and those of a run in another scope and on lists of statements;
and what operators give, which is never a function.
-/

namespace Scriptlet

section Operators

variable {operator : Token} {left right value : Value}

theorem eq_constant_of_applyUnary (isValue : applyUnary operator left = .ok value) :
    ∃ constant, value = .constant constant := by
  unfold applyUnary at isValue
  split at isValue
  · exact ⟨_, (Except.ok.inj isValue).symm⟩
  · exact ⟨_, (Except.ok.inj isValue).symm⟩
  · contradiction

theorem eq_constant_of_arithmetic? {kind : Token.Kind} {left right : Float}
    (isValue : arithmetic? kind left right = some value) :
    ∃ constant, value = .constant constant := by
  unfold arithmetic? at isValue
  split at isValue
  all_goals first
    | exact ⟨_, (Option.some.inj isValue).symm⟩
    | contradiction

theorem eq_constant_of_add (isValue : add operator left right = .ok value) :
    ∃ constant, value = .constant constant := by
  unfold add at isValue
  split at isValue
  · exact ⟨_, (Except.ok.inj isValue).symm⟩
  · exact ⟨_, (Except.ok.inj isValue).symm⟩
  · contradiction

theorem eq_constant_of_applyBinary (isValue : applyBinary operator left right = .ok value) :
    ∃ constant, value = .constant constant := by
  unfold applyBinary at isValue
  split at isValue
  · exact ⟨_, (Except.ok.inj isValue).symm⟩
  · exact ⟨_, (Except.ok.inj isValue).symm⟩
  · exact eq_constant_of_add isValue
  · split at isValue
    · split at isValue
      · rename_i isSome
        cases isValue
        exact eq_constant_of_arithmetic? isSome
      · contradiction
    · contradiction

end Operators

/-- What a function gives, by how its body ended. -/
def Flow.value : Flow → Value
  | .next => .null
  | .returned value => value

namespace Eval

variable {α β : Type} {machine after : Machine}

section Bind

variable {ε σ : Type} {first : EStateM ε σ α} {next : α → EStateM ε σ β} {state between : σ}

theorem bind_of_ok {value : α} (ran : first state = .ok value between) :
    (first >>= next) state = next value between := by
  change EStateM.bind first next state = next value between
  rw [EStateM.bind, ran]

theorem bind_of_error {error : ε} (ran : first state = .error error between) :
    (first >>= next) state = .error error between := by
  change EStateM.bind first next state = .error error between
  rw [EStateM.bind, ran]

end Bind

/-- Two steps succeed if both do. -/
theorem bind_eq_ok {first : Eval α} {next : α → Eval β} {value : β}
    (ran : (first >>= next) machine = .ok value after) :
    ∃ firstValue between,
      first machine = .ok firstValue between ∧ next firstValue between = .ok value after := by
  cases firstRan : first machine with
  | ok firstValue between => exact ⟨firstValue, between, rfl, (bind_of_ok firstRan).symm.trans ran⟩
  | error stop between =>
      rw [bind_of_error firstRan] at ran
      contradiction

/-- What a step comes to when the current scope is another one afterwards. -/
def returnTo (outer : ScopeId) : EStateM.Result Stop Machine α → EStateM.Result Stop Machine α
  | .ok value machine => .ok value { machine with current := outer }
  | .error stop machine => .error stop { machine with current := outer }

theorem within_apply (scope : ScopeId) (action : Eval α) (machine : Machine) :
    within scope action machine =
      returnTo machine.current (action { machine with current := scope }) := by
  unfold within
  cases action { machine with current := scope } <;> rfl

/-- Statements after others are executed if those do not return. -/
theorem sequence_append (execute : Stmt → Eval Flow) (statements others : List Stmt) :
    sequence execute (statements ++ others) =
      sequence execute statements >>= fun
        | .next => sequence execute others
        | .returned value => pure (.returned value) := by
  induction statements with
  | nil => rfl
  | cons statement statements ih =>
      simp only [List.cons_append, sequence, ih, bind_assoc]
      refine bind_congr fun flow => ?_
      cases flow <;> rfl

theorem call_of_ne (execute : Stmt → Eval Flow) (paren : Token) {closure : Closure}
    {arguments : List Value} (differ : arguments.length ≠ closure.arity) :
    call execute paren (.function closure) arguments =
      throw (.error ⟨.wrongArity closure.arity arguments.length, paren⟩) := by
  unfold call
  dsimp only
  rw [if_pos differ]
  rfl

/-- A call with as many arguments as there are parameters runs the body in a scope of its own. -/
theorem call_of_eq (execute : Stmt → Eval Flow) (paren : Token) {closure : Closure}
    {arguments : List Value} (same : arguments.length = closure.arity) :
    call execute paren (.function closure) arguments =
      (create (callScope closure arguments) >>= fun id =>
        within id (sequence execute closure.body)) >>= fun flow => pure flow.value := by
  unfold call
  dsimp only
  rw [if_neg (not_not_intro same), bind_assoc]
  refine bind_congr fun _ => bind_congr fun flow => ?_
  cases flow <;> rfl

/-- What a program comes to, by how its statements ended. -/
def conclude : EStateM.Result Stop Machine Flow → EStateM.Result Stop Machine (Option RuntimeError)
  | .ok _ machine => .ok none machine
  | .error (.error error) machine => .ok (some error) machine
  | .error stop machine => .error stop machine

theorem interpret_apply (limits : Limits) (statements : List Stmt) (scope : ScopeId)
    (machine : Machine) :
    interpret limits statements scope machine =
      conclude (within scope (sequence (Stmt.execute limits.rounds limits.depth) statements)
        machine) := by
  unfold interpret conclude
  rfl

end Eval

end Scriptlet
