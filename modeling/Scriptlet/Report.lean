import Scriptlet.Diagnostic
import Scriptlet.Text.Lines

/-!
# Reports

A `Reporter` tells the user about errors. It knows the lines of the source that is being run and
shows the one that an error points at, with the text to blame underlined. A fatal reporter ends the
program after an error; any other forgets about it and goes on.
-/

namespace Scriptlet

/-- Why the work on a program ended early. -/
inductive Failure where
  /-- The program was left with a status; none counts as success. -/
  | exit (status : Option Int)
  /-- The user interrupted the program. -/
  | interrupted
  /-- The program nests too deeply. -/
  | tooDeep
  /-- The program could not be brought to an end. -/
  | unfinished
  /-- An error that can be reported as it is. -/
  | diagnosed (diagnostic : Diagnostic)
  /-- Anything else, with the name of its kind and a description. -/
  | internal (kind description : String)

/-- A source that is being run. -/
structure Source where
  path : String
  lines : List String
  deriving DecidableEq, Repr

/-- How parts of a report are made to stand out. -/
structure Style where
  /-- The place of an error. -/
  bold : String → String
  /-- The kind of an error, and the text to blame with its underline. -/
  alarm : String → String

/-- Nothing stands out. -/
def Style.plain : Style where
  bold := id
  alarm := id

/-- The state of reporting. -/
structure Reporter where
  /-- Whether an error ends the program. -/
  fatal : Bool := true
  style : Style := .plain
  source : Option Source := none
  hadError : Bool := false
  /-- The reports written so far. -/
  written : String := ""

/-- The place of the first occurrence of one text in another. -/
def positionOf? (part : List Char) : List Char → Option Nat
  | [] => if part.isEmpty then some 0 else none
  | first :: rest =>
    if part.isPrefixOf (first :: rest) then some 0 else (positionOf? part rest).map (· + 1)

/--
A line with the first occurrence of a lexeme underlined below it, if there is one. Both lines are
indented.
-/
def excerpt? (style : Style) (lexeme line : String) : Option String := do
  let position ← positionOf? lexeme.toList line.toList
  let before := String.ofList (line.toList.take position)
  let after := String.ofList (line.toList.drop (position + lexeme.length))
  let spaces := String.ofList (List.replicate position ' ')
  let underline := String.ofList ('^' :: List.replicate (lexeme.length - 1) '~')
  return "  " ++ before ++ style.alarm lexeme ++ after ++ "\n" ++ "  " ++ spaces ++
    style.alarm underline

namespace Reporter

/-- Makes a text the source that is being run. -/
def register (reporter : Reporter) (path text : String) : Reporter :=
  { reporter with source := some ⟨path, Text.lines text⟩ }

/-- A line of the source, counted from one. -/
def sourceLine? (reporter : Reporter) (number : Int) : Option String := do
  let source ← reporter.source
  guard (0 < number)
  source.lines[(number - 1).toNat]?

/-- The headline of a report: where the error is, what kind it has, and its message. -/
def headline (reporter : Reporter) (diagnostic : Diagnostic) (isInternal : Bool) : String :=
  let place :=
    match reporter.source, diagnostic.line with
    | some source, some line =>
      reporter.style.bold (source.path ++ ":" ++ toString line ++ ": ")
    | _, _ => ""
  let mark := if isInternal then reporter.style.alarm "[internal] " else ""
  place ++ mark ++ reporter.style.alarm diagnostic.kind.label ++ diagnostic.place ++ ": " ++
    diagnostic.message

/-- The excerpt in a report: the line that an error points at, if it holds the text to blame. -/
def excerptFor? (reporter : Reporter) (diagnostic : Diagnostic) : Option String := do
  let line ← reporter.sourceLine? (← diagnostic.line)
  guard (line ≠ "" ∧ diagnostic.lexeme ≠ "")
  excerpt? reporter.style diagnostic.lexeme line

/-- The text of a report. -/
def reportText (reporter : Reporter) (diagnostic : Diagnostic) (isInternal : Bool) : String :=
  let excerpt :=
    if isInternal then ""
    else
      match reporter.excerptFor? diagnostic with
      | some excerpt => excerpt ++ "\n"
      | none => ""
  reporter.headline diagnostic isInternal ++ "\n" ++ excerpt

/-- Reports an error. -/
def report (reporter : Reporter) (diagnostic : Diagnostic) (isInternal : Bool := false) :
    Reporter :=
  { reporter with
    hadError := true
    written := reporter.written ++ reporter.reportText diagnostic isInternal }

/-- The reports written so far, and the reporter with nothing written. -/
def takeWritten (reporter : Reporter) : String × Reporter :=
  (reporter.written, { reporter with written := "" })

end Reporter

/-- A step that may report errors and may end the program. -/
abbrev Reporting := EStateM Failure Reporter

namespace Reporting

/-- Reports an error, and ends the program if the reporter is fatal. -/
def raise (diagnostic : Diagnostic) (isInternal : Bool := false) : Reporting Unit := do
  modify (·.report diagnostic isInternal)
  if (← get).fatal then throw (.exit (some 1))
  modify fun reporter => { reporter with hadError := false }

/-- Reports errors in order, the last of them as one that may end the program. -/
def raiseAll : List Diagnostic → Reporting Unit
  | [] => pure ()
  | [last] => raise last
  | first :: rest => do
    modify (·.report first)
    raiseAll rest

/-- An error that points at no line. -/
def unlocated (message : String) : Diagnostic where
  line := none
  message := message

/--
Reports why the work on a program ended, where there is something to report. Leaving the program
goes on, and so does what nobody foresaw.
-/
def settle : Failure → Reporting Unit
  | .interrupted => raise (unlocated "keyboard interrupt")
  | .tooDeep => raise (unlocated "maximum recursion depth exceeded")
  | .diagnosed diagnostic => raise diagnostic
  | .exit status => throw (.exit status)
  | .unfinished => throw .unfinished
  | .internal kind description => do
    raise (unlocated ("unknown error: '" ++ kind ++ ": " ++ description ++ "'")) true
    throw (.internal kind description)

end Reporting

end Scriptlet
