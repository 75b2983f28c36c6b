/-!
# Diagnostics

A diagnostic is what the user is told about an error: its message, the line it points at, and the
text on that line that is to blame.
-/

namespace Scriptlet

/-- Whether an error was found in the text of a program or while running it. -/
inductive Diagnostic.Kind where
  | static
  | runtime
  deriving DecidableEq, Repr

/-- An error as the user sees it. -/
structure Diagnostic where
  kind : Diagnostic.Kind := .static
  /-- The line it points at; none if it concerns no line. -/
  line : Option Int
  message : String
  /-- A description of the token to blame, to be read right after the word "error". -/
  place : String := ""
  /-- The text to blame; empty if there is none. -/
  lexeme : String := ""
  deriving DecidableEq, Repr

namespace Diagnostic

/-- How a report names the kind of an error. -/
def Kind.label : Kind → String
  | static => "error"
  | runtime => "runtime error"

/-- The text of a line number. -/
def lineText : Option Int → String
  | some line => toString line
  | none => "None"

/-- The error as a text of its own, without the path of its source. -/
def text (diagnostic : Diagnostic) : String :=
  match diagnostic.kind with
  | .static =>
    "[line " ++ lineText diagnostic.line ++ "] Error" ++ diagnostic.place ++ ": " ++
      diagnostic.message
  | .runtime => diagnostic.message ++ "\n[line " ++ lineText diagnostic.line ++ "]"

end Diagnostic

end Scriptlet
