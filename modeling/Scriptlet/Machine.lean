import Scriptlet.Operator
import Scriptlet.Scope

/-!
# The machine

A `Machine` is the state of a run: the scopes, which of them is current, and the text printed so
far. An `Eval` is a step of a run. It keeps the state when it stops early, be it at a runtime
error, at a depth that is not allowed, or in a loop that went round too often.
-/

namespace Scriptlet

/-- The state of a run. -/
structure Machine where
  store : Store
  /-- The scope of the names that are bound outside all blocks and functions. -/
  globals : ScopeId
  /-- The scope in which the running statement stands. -/
  current : ScopeId
  /-- How many functions have been made. -/
  functions : Nat
  /-- The text printed so far. -/
  output : String

/-- Why a run stopped early. -/
inductive Stop where
  | error (error : RuntimeError)
  | tooDeep
  | unfinished

/-- How a statement ended. -/
inductive Flow where
  | next
  | returned (value : Value)

/-- A step of a run: it changes the machine, and gives a result or stops. -/
abbrev Eval := EStateM Stop Machine

namespace Machine

/-- A machine that has not run anything. -/
def initial : Machine where
  store := .initial
  globals := 0
  current := 0
  functions := 0
  output := ""

/-- The printed text, and the machine with nothing printed. -/
def takeOutput (machine : Machine) : String × Machine :=
  (machine.output, { machine with output := "" })

end Machine

namespace Eval

/-- The result of an operation that may fail. -/
def ofExcept {α : Type} : Except RuntimeError α → Eval α
  | .ok value => pure value
  | .error error => throw (.error error)

/-- Prints a text on a line of its own. -/
def printLine (text : String) : Eval Unit :=
  modify fun machine => { machine with output := machine.output ++ text ++ "\n" }

/-- The value of a name, seen from the current scope. -/
def lookup (name : Token) : Eval Value := do
  let machine ← get
  ofExcept (machine.store.get machine.current name)

/-- Assigns to a name, seen from the current scope. -/
def assign (name : Token) (value : Value) : Eval Unit := do
  let machine ← get
  let owner ← ofExcept (machine.store.resolve machine.current name)
  modify fun machine => { machine with store := machine.store.define owner name.lexeme value }

/-- Assigning changes the store as the store's own assignment does. -/
theorem assign_run (name : Token) (value : Value) (machine : Machine) :
    assign name value machine =
      match machine.store.assign machine.current name value with
      | .ok store => .ok () { machine with store := store }
      | .error error => .error (.error error) machine := by
  change (ofExcept (machine.store.resolve machine.current name) >>= fun owner =>
    modify fun machine =>
      { machine with store := machine.store.define owner name.lexeme value }) machine = _
  unfold Store.assign
  cases machine.store.resolve machine.current name <;> rfl

/-- Binds a name in the current scope. -/
def define (name : Token) (value : Value) : Eval Unit :=
  modify fun machine =>
    { machine with store := machine.store.define machine.current name.lexeme value }

/-- Makes a new scope. -/
def create (scope : Scope) : Eval ScopeId :=
  modifyGet fun machine =>
    let (id, store) := machine.store.create scope
    (id, { machine with store := store })

/-- Makes a function that is declared in the current scope. -/
def close (name : Token) (parameters : List Token) (body : List Stmt) : Eval Value :=
  modifyGet fun machine =>
    (.function {
      name := name
      parameters := parameters
      body := body
      scope := machine.current
      serial := machine.functions },
     { machine with functions := machine.functions + 1 })

/-- Runs an action in a scope, and makes the scope current again that was so before. -/
def within {α : Type} (scope : ScopeId) (action : Eval α) : Eval α :=
  fun machine =>
    let outer := machine.current
    match action { machine with current := scope } with
    | .ok value machine => .ok value { machine with current := outer }
    | .error stop machine => .error stop { machine with current := outer }

/-- The results of actions on each of the items, in order. -/
def forEach {α β : Type} (action : α → Eval β) : List α → Eval (List β)
  | [] => pure []
  | first :: rest => do
    let result ← action first
    let results ← forEach action rest
    return result :: results

/-- Executes statements in order until one of them returns. -/
def sequence (execute : Stmt → Eval Flow) : List Stmt → Eval Flow
  | [] => pure .next
  | first :: rest => do
    match ← execute first with
    | .next => sequence execute rest
    | .returned value => return .returned value

/-- Executes a body again and again while a condition holds, until the body returns. -/
def loop (condition : Eval Value) (body : Eval Flow) : Nat → Eval Flow
  | 0 => throw .unfinished
  | rounds + 1 => do
    if (← condition).isTruthy then
      match ← body with
      | .next => loop condition body rounds
      | .returned value => return .returned value
    else
      return .next

/-- The scope of a call: the parameters with their arguments, in the function's own scope. -/
def callScope (closure : Closure) (arguments : List Value) : Scope :=
  (closure.parameters.zip arguments).foldl
    (fun scope (parameter, argument) => scope.define parameter.lexeme argument)
    ⟨some closure.scope, []⟩

/-- Calls a value; errors point at `paren`. -/
def call (execute : Stmt → Eval Flow) (paren : Token) (callee : Value) (arguments : List Value) :
    Eval Value :=
  match callee with
  | .constant _ => throw (.error ⟨.notCallable, paren⟩)
  | .function closure => do
    if arguments.length ≠ closure.arity then
      throw (.error ⟨.wrongArity closure.arity arguments.length, paren⟩)
    let scope ← create (callScope closure arguments)
    match ← within scope (sequence execute closure.body) with
    | .next => return .null
    | .returned value => return value

end Eval

end Scriptlet
