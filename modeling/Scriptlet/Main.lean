import Scriptlet.Program

/-!
# Entry point

Reads arguments, files and typed lines, and writes what the program makes of them.
-/

namespace Scriptlet.Main

/-- The bytes of a file, if it can be read. -/
def readFile (path : String) : IO (Option (List UInt8)) := do
  try
    return some (← IO.FS.readBinFile path).toList
  catch _ =>
    return none

/-- Bold text, and bold text in red. -/
def terminalStyle : Style where
  bold text := "\x1b[1m" ++ text ++ "\x1b[0m"
  alarm text := "\x1b[1m\x1b[31m" ++ text ++ "\x1b[0m"

/-- The style of reports: plain if they go to no terminal, or if colours are not wanted. -/
def style : IO Style := do
  let colourless := (← IO.getEnv "NO_COLOR").any (· ≠ "")
  if colourless || !(← (← IO.getStderr).isTty) then return .plain
  return terminalStyle

/-- Writes what a part of a run came to. -/
def write (outcome : Outcome) : IO UInt32 := do
  let stdout ← IO.getStdout
  stdout.putStr outcome.output
  stdout.flush
  (← IO.getStderr).putStr outcome.errors
  return outcome.status.toNat.toUInt32

/-- Reads and runs lines until the shell is left. -/
partial def converse (shell : Shell) : IO UInt32 := do
  let stdout ← IO.getStdout
  stdout.putStr shell.prompt.text
  stdout.flush
  let line ← (← IO.getStdin).getLine
  let line := if line.isEmpty then "EOF" else (line.dropEndWhile (· == '\n')).toString
  let (outcome, next) := Program.exchange line shell
  let status ← write outcome
  match next with
  | some shell => converse shell
  | none => return status

end Scriptlet.Main

open Scriptlet in
/-- Runs a file, or a shell if there is none. -/
def main (arguments : List String) : IO UInt32 := do
  match Program.plan (← Main.style) arguments with
  | .finished outcome => Main.write outcome
  | .file session =>
    let content ← Main.readFile session.path
    Main.write (Program.fileOutcome (Program.runFile fun _ => content) session)
  | .shell shell =>
    (← IO.getStdout).putStr (Shell.intro ++ "\n")
    Main.converse shell
