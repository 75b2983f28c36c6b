import Scriptlet.Number

/-!
# Constants

The values that can stand in a program's text: null, booleans, numbers and strings.
-/

namespace Scriptlet

/-- A value that a program can name without running. -/
inductive Constant where
  | null
  | bool (value : Bool)
  | number (value : Float)
  | string (value : String)

namespace Constant

instance : Inhabited Constant := ⟨.null⟩

/-- The text that printing a constant produces; a string is printed bare. -/
def text : Constant → String
  | .null => "null"
  | .bool true => "true"
  | .bool false => "false"
  | .number value => Number.text value
  | .string value => value

/-- The text of a constant in a listing; a string stands in quotes and nothing in it is escaped. -/
def listing : Constant → String
  | .string value => "\"" ++ value ++ "\""
  | constant => constant.text

/-- The text of a constant in the description of a token. -/
def description : Constant → String
  | .null => "None"
  | .bool true => "True"
  | .bool false => "False"
  | .number value => Number.fullText value
  | .string value => value

end Constant

end Scriptlet
