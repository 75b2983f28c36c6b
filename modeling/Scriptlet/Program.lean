import Scriptlet.CommandLine
import Scriptlet.Shell

/-!
# The program

`Program.run` is the whole program as a function of its arguments, the files it can read and what
is typed in. It either runs a file or is a shell.
-/

namespace Scriptlet

/-- What a run of the program comes to. -/
structure Outcome where
  status : Int
  output : String
  errors : String
  deriving DecidableEq, Repr

/-- What two parts of a run come to, one after the other. -/
def Outcome.followedBy (first later : Outcome) : Outcome :=
  ⟨later.status, first.output ++ later.output, first.errors ++ later.errors⟩

namespace Program

/-- The status that the program ends with after a failure that nobody dealt with. -/
def status : Failure → Int
  | .exit (some status) => status
  | .exit none => 0
  | _ => 1

/-- The limits for a depth that the user asked for, which is a positive word of 32 bits. -/
def limitsFor (depth : Int) : Except Failure Limits :=
  if depth < -2147483648 ∨ 2147483647 < depth then
    .error (.internal "OverflowError" "Python int too large to convert to C int")
  else if depth < 1 then
    .error (.internal "ValueError" "recursion limit must be greater or equal than 1")
  else
    .ok (.ofDepth depth.toNat)

/-- The outcome of work that ended with a failure after `output` was written. -/
def failed (reporter : Reporter) (output : String) (failure : Failure) : Outcome :=
  match Reporting.settle failure reporter with
  | .ok _ reporter => ⟨0, output, reporter.written⟩
  | .error failure reporter => ⟨status failure, output, reporter.written⟩

/-- Takes in a file and runs it. -/
def runFile (files : Files) : SessionStep Unit := do
  SessionStep.load files false
  SessionStep.run

/-- What a step of a session on a file comes to. -/
def fileOutcome (step : SessionStep Unit) (session : Session) : Outcome :=
  match step session with
  | .ok _ session => ⟨0, session.machine.output, session.reporter.written⟩
  | .error failure session => failed session.reporter session.machine.output failure

/-- What the shell and the program in it have written, and the shell with nothing written. -/
def takeOutput (shell : Shell) : String × Shell :=
  let (printed, machine) := shell.session.machine.takeOutput
  (printed ++ shell.written,
    { shell with session := { shell.session with machine := machine }, written := "" })

/-- Types a line into a shell: what comes of it, and the shell after it unless it is left. -/
def exchange (line : String) (shell : Shell) : Outcome × Option Shell :=
  match ShellStep.take line shell with
  | .ok answer shell =>
    let (output, shell) := takeOutput shell
    let (errors, reporter) := shell.session.reporter.takeWritten
    let shell := { shell with session := { shell.session with reporter := reporter } }
    (⟨0, output, errors⟩, if answer = .leave then none else some shell)
  | .error failure shell =>
    let (output, shell) := takeOutput shell
    (failed shell.session.reporter output failure, none)

/-- Types lines into a shell until it is left. -/
def converse : List String → Shell → Outcome
  | [], _ => ⟨0, "", ""⟩
  | line :: rest, shell =>
    let prompted : Outcome := ⟨0, shell.prompt.text, ""⟩
    match exchange line shell with
    | (outcome, none) => prompted.followedBy outcome
    | (outcome, some shell) => prompted.followedBy (outcome.followedBy (converse rest shell))

/-- The lines of what is typed in, the first of which begins with `begun`. -/
def linesFrom (begun : List Char) : List Char → List String
  | [] => if begun.isEmpty then [] else [String.ofList begun.reverse]
  | '\n' :: rest => String.ofList begun.reverse :: linesFrom [] rest
  | character :: rest => linesFrom (character :: begun) rest

/-- The lines that are typed in; the end of the input is a line of its own. -/
def typedLines (input : String) : List String :=
  linesFrom [] input.toList ++ ["EOF"]

/-- What the arguments make of the program. -/
inductive Plan where
  /-- There is nothing to run. -/
  | finished (outcome : Outcome)
  /-- A file is to be taken in and run. -/
  | file (session : Session)
  /-- Lines are to be typed in. -/
  | shell (shell : Shell)

/-- Reads the arguments. -/
def plan (style : Style) (arguments : List String) : Plan :=
  let reporter : Reporter := { style := style }
  match CommandLine.read arguments with
  | .error error => .finished ⟨2, "", error.text⟩
  | .ok .help => .finished ⟨0, CommandLine.helpText, ""⟩
  | .ok (.run settings) =>
    match limitsFor settings.depth with
    | .error failure => .finished (failed reporter "" failure)
    | .ok limits =>
      match settings.file with
      | some path => .file (.start reporter path false settings.showTrees limits)
      | none =>
        .shell (.start (.start reporter Session.typedPath true settings.showTrees limits))

/-- Runs the program. -/
def run (files : Files) (style : Style) (arguments : List String) (input : String) : Outcome :=
  match plan style arguments with
  | .finished outcome => outcome
  | .file session => fileOutcome (runFile files) session
  | .shell shell =>
    let introduced : Outcome := ⟨0, Shell.intro ++ "\n", ""⟩
    introduced.followedBy (converse (typedLines input) shell)

end Program

end Scriptlet
