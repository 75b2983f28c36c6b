import Scriptlet.Continuation
import Scriptlet.Session
import Scriptlet.Text.Lines

/-!
# The shell

The shell takes lines of a program one at a time. A line that leaves brackets open is kept until
the lines after it close them; everything else is run at once. A few words are commands of the
shell, unless a text is pending or something follows them.
-/

namespace Scriptlet

/-- What the shell shows before it reads a line. -/
inductive Prompt where
  | ready
  | continued
  deriving DecidableEq, Repr

/-- The text of a prompt. -/
def Prompt.text : Prompt → String
  | ready => "> "
  | continued => ". "

/-- The state of the shell. -/
structure Shell where
  session : Session
  /-- The lines that wait for their closing brackets. -/
  pending : String
  prompt : Prompt
  /-- What the shell itself has written. -/
  written : String

/-- What the shell makes of a line. -/
inductive Answer where
  /-- The line was dealt with. -/
  | done
  /-- The line was empty. -/
  | skipped
  /-- The line asks to leave. -/
  | leave
  deriving DecidableEq, Repr

/-- A step of the shell. -/
abbrev ShellStep := EStateM Failure Shell

namespace Shell

/-- A shell that has read nothing. -/
def start (session : Session) : Shell where
  session := session
  pending := ""
  prompt := .ready
  written := ""

/-- What the shell shows first. -/
def intro : String :=
  "yai :: yet another interpreter\n" ++
    "Type 'help' for more information, 'exit' or Ctrl-D to leave."

/-- What the shell says about the language. -/
def helpText : String :=
  "Welcome to the yai interpreter!\n\n" ++
    "yai is a small dynamically-typed scripting language with C-like syntax. Statements end\n" ++
    "with ';', blocks use '\x7b \x7d', and functions are declared with 'fun'. For example:\n\n" ++
    "    var x = 10;\n" ++
    "    for (var i = 0; i < 3; i = i + 1) print i + x;\n" ++
    "    fun add(a, b) \x7b return a + b; \x7d\n" ++
    "    print add(x, 3);\n\n" ++
    "Bindings are kept between lines. A line with unclosed braces or parentheses continues\n" ++
    "on the next one."

end Shell

/-- A line as the shell reads it. -/
structure Command where
  /-- The word of letters, digits and underscores that the line begins with. -/
  word : String
  /-- What follows the word, without blanks around it. -/
  argument : String
  /-- The whole line. -/
  line : String
  deriving DecidableEq, Repr

namespace Command

/-- Whether a character can be part of a command's word. -/
def isWordPart (character : Char) : Bool :=
  character.isAlphanum || character == '_'

/-- Reads a line without blanks around it. A question mark stands for a call for help. -/
def ofLine (line : List Char) : Command :=
  let line :=
    match line with
    | '?' :: rest => "help ".toList ++ rest
    | _ => line
  { word := String.ofList (line.takeWhile isWordPart)
    argument := String.ofList (Text.strip (line.dropWhile isWordPart))
    line := String.ofList line }

end Command

namespace ShellStep

/-- A step of the shell's session. -/
def session {α : Type} (step : SessionStep α) : ShellStep α :=
  fun shell =>
    match step shell.session with
    | .ok value session => .ok value { shell with session := session }
    | .error failure session => .error failure { shell with session := session }

/-- Writes a line of the shell's own. -/
def say (text : String) : ShellStep Unit :=
  modify fun shell => { shell with written := shell.written ++ text ++ "\n" }

/-- Takes a line of a program: keeps it if the text so far goes on, and runs the text otherwise. -/
def submit (line : String) : ShellStep Unit := do
  let text := Continuation.join (← get).pending line
  if Continuation.isNeeded text then
    modify fun shell => { shell with pending := text, prompt := .continued }
  else
    modify fun shell => { shell with pending := "", prompt := .ready }
    session <| SessionStep.guarded do
      if ← SessionStep.add text then SessionStep.run

/-- Whether a text is pending. -/
def isPending : ShellStep Bool := do
  return (← get).pending ≠ ""

/-- Does what a command asks for; what is no command is a line of a program. -/
def obey (command : Command) : ShellStep Answer := do
  let taken := command.argument ≠ "" || (← isPending)
  match command.word with
  | "help" =>
    if taken then submit ("help " ++ command.argument) else say Shell.helpText
    return .done
  | "exit" =>
    if !taken then return .leave
    submit ("exit " ++ command.argument)
    return .done
  | "EOF" =>
    say ""
    return .leave
  | _ =>
    submit command.line
    return .done

/-- Takes a line. Blanks around it are dropped; an empty line only matters while a text is pending. -/
def take (line : String) : ShellStep Answer := do
  let line := Text.strip line.toList
  if line.isEmpty then
    if ← isPending then submit ""
    return .skipped
  obey (.ofLine line)

end ShellStep

end Scriptlet
