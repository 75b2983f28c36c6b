import Scriptlet.Tree

/-!
# Values

A running program works with constants and functions. A function keeps the scope it was declared
in, and every declaration that is run makes a function of its own: two functions are equal only if
they came from the same run of a declaration.
-/

namespace Scriptlet

/-- The number of a scope in the store. -/
abbrev ScopeId := Nat

/-- A function: what its declaration says, and where and as which function it was made. -/
structure Closure where
  name : Token
  parameters : List Token
  body : List Stmt
  /-- The scope in which the function was declared. -/
  scope : ScopeId
  /-- How many functions were made before this one. -/
  serial : Nat

/-- A value of a running program. -/
inductive Value where
  | constant (value : Constant)
  | function (closure : Closure)

namespace Closure

/-- The number of arguments that a function takes. -/
def arity (closure : Closure) : Nat :=
  closure.parameters.length

/-- The text that printing a function produces. -/
def text (closure : Closure) : String :=
  "<fn " ++ closure.name.lexeme ++ ">"

/-- The name of a function and the number of its arguments. -/
def description (closure : Closure) : String :=
  "YaiFunction('" ++ closure.name.lexeme ++ "', arity=" ++ toString closure.arity ++ ")"

end Closure

namespace Value

/-- The null value. -/
@[match_pattern] abbrev null : Value := constant .null

/-- A boolean value. -/
@[match_pattern] abbrev bool (value : Bool) : Value := constant (.bool value)

/-- A number value. -/
@[match_pattern] abbrev number (value : Float) : Value := constant (.number value)

/-- A string value. -/
@[match_pattern] abbrev string (value : String) : Value := constant (.string value)

instance : Inhabited Value := ⟨null⟩

/-- Whether a condition with this value holds: only null and false do not. -/
def isTruthy : Value → Bool
  | null => false
  | bool value => value
  | _ => true

/-- Whether a value is a number. -/
def isNumber : Value → Bool
  | number _ => true
  | _ => false

/--
Equality of values. Values of different types differ; numbers compare as doubles do, so that a
number that is none differs from itself.
-/
def isEqual : Value → Value → Bool
  | null, null => true
  | bool left, bool right => left == right
  | number left, number right => left == right
  | string left, string right => left == right
  | function left, function right => left.serial == right.serial
  | _, _ => false

/-- The text that printing a value produces. -/
def text : Value → String
  | constant value => value.text
  | function closure => closure.text

end Value

end Scriptlet
