import Scriptlet.Evaluation
import Scriptlet.Grammar.Statement
import Scriptlet.Report
import Scriptlet.Scan
import Scriptlet.Text.Utf8
import Scriptlet.Tree.Listing

/-!
# Sessions

A session takes in sources, queues the statements of those without errors, and runs the queue
against global bindings that last as long as the session. Errors are reported as they occur.
-/

namespace Scriptlet

/-- The contents of files by path; none if there is no such file to read. -/
abbrev Files := String → Option (List UInt8)

/-- The state of a session. -/
structure Session where
  reporter : Reporter
  machine : Machine
  limits : Limits
  /-- The path under which errors are reported. -/
  path : String
  /-- Whether the statements of a source are listed when it is taken in. -/
  showTrees : Bool
  /-- The statements taken in and not run yet. -/
  queue : List Stmt

/-- A step of a session. -/
abbrev SessionStep := EStateM Failure Session

/-- The failure of a halted parser. A scanned text always has an end mark. -/
def Failure.ofHalt : Halt → Failure
  | .tooDeep => .tooDeep
  | .missingEnd => .unfinished

namespace Session

/-- The path that stands for what is typed in. -/
def typedPath : String := "<in>"

/-- A session that has taken in nothing. What is typed in is never fatal. -/
def start (reporter : Reporter) (path : String) (interactive showTrees : Bool) (limits : Limits) :
    Session where
  reporter := { reporter with fatal := reporter.fatal && !interactive }
  machine := .initial
  limits := limits
  path := path
  showTrees := showTrees
  queue := []

end Session

namespace SessionStep

/-- A step of the session's reporter. -/
def reporting {α : Type} (action : Reporting α) : SessionStep α :=
  fun session =>
    match action session.reporter with
    | .ok value reporter => .ok value { session with reporter := reporter }
    | .error failure reporter => .error failure { session with reporter := reporter }

/-- A step whose failure is reported, where there is something to report. -/
def guarded (step : SessionStep Unit) : SessionStep Unit :=
  fun session =>
    match step session with
    | .ok _ session => .ok () session
    | .error failure session => reporting (Reporting.settle failure) session

/-- Lists statements among the output of the program. -/
def list (statements : List Stmt) : SessionStep Unit := do
  if (← get).limits.depth < Stmt.greatestNesting statements then throw .tooDeep
  modify fun session =>
    { session with
      machine :=
        { session.machine with
          output := session.machine.output ++ listing statements ++ "\n" } }

/--
Takes in a source. If there are errors in it they are reported and nothing else happens; otherwise
its statements are queued. Tells which of the two was the case.
-/
def add (source : String) : SessionStep Bool := do
  modify fun session =>
    { session with reporter := session.reporter.register session.path source }
  let scanned := scan source
  match parse (← get).limits.depth scanned.tokens with
  | .error reason => throw (.ofHalt reason)
  | .ok parsed =>
    let errors := scanned.errors.map ScanError.diagnostic ++ parsed.errors.map SyntaxError.diagnostic
    if !errors.isEmpty then
      reporting (Reporting.raiseAll errors)
      return false
    if (← get).showTrees && !parsed.statements.isEmpty then list parsed.statements
    modify fun session => { session with queue := session.queue ++ parsed.statements }
    return true

/-- Runs the queue and empties it. A runtime error is reported, and what it left is dropped. -/
def run : SessionStep Unit := do
  let session ← get
  set { session with queue := [] }
  match interpret session.limits session.queue session.machine.globals session.machine with
  | .ok outcome machine =>
    modify fun session => { session with machine := machine }
    match outcome with
    | some error => reporting (Reporting.raise error.diagnostic)
    | none => return ()
  | .error stop machine =>
    modify fun session => { session with machine := machine }
    match stop with
    | .error error => reporting (Reporting.raise error.diagnostic)
    | .tooDeep => throw .tooDeep
    | .unfinished => throw .unfinished

/-- The failure for a path without a file to read; a path with a null character is not even one. -/
def unreadable (path : String) : Failure :=
  if path.toList.contains (Char.ofNat 0) then .internal "ValueError" "embedded null byte"
  else .diagnosed (Reporting.unlocated ("'" ++ path ++ "' could not be opened"))

/-- The text of a file. Its lines end with newlines, however they end in the file. -/
def readSource (files : Files) (path : String) : Except Failure String := do
  let some bytes := files path | throw (unreadable path)
  match Text.Utf8.decode bytes with
  | .ok text => return String.ofList (Text.plainNewlines text)
  | .error fault => throw (.internal "UnicodeDecodeError" fault.message)

/-- Takes in the file of a session, unless the session is for what is typed in. -/
def load (files : Files) (interactive : Bool) : SessionStep Unit := do
  let path := (← get).path
  if path ≠ Session.typedPath then
    match readSource files path with
    | .ok source => discard (add source)
    | .error failure => throw failure
  else if !interactive then
    throw (.diagnosed (Reporting.unlocated ("'" ++ path ++ "' is a reserved filename")))

end SessionStep

end Scriptlet
