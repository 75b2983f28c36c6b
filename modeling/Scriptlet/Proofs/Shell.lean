import Scriptlet.Proofs.Printing
import Scriptlet.Proofs.Session.Steps
import Scriptlet.Proofs.Turns
import Scriptlet.Shell

/-!
# The shell from line to line

Between two lines the shell is orderly: it shows that it waits for more exactly if a text is
pending, nothing is left in the queue, the global scope is current, and no error is remembered. No
line ends the shell, whatever is wrong with it, unless it is one that asks to leave. The only way
to get stuck is a program that never comes to an end.
-/

namespace Scriptlet

/-- A session that waits for a source to run at once. -/
structure Session.Orderly (session : Session) : Prop where
  queue : session.queue = []
  current : session.machine.current = session.machine.globals
  forgiven : session.reporter.hadError = false
  goesOn : session.reporter.fatal = false

/-- That a source makes a session run a program that cannot be brought to an end. -/
def Session.Hangs (session : Session) (source : String) : Prop :=
  ∃ parsed stopped, parse session.limits.depth (scan source).tokens = .ok parsed ∧
    staticErrors source parsed = [] ∧
    interpret session.limits (session.accepted source parsed.statements).queue
      session.machine.globals (session.accepted source parsed.statements).machine =
        .error .unfinished stopped

namespace Session.Orderly

variable {session : Session}

theorem registered (orderly : session.Orderly) (source : String) :
    (session.registered source).Orderly :=
  ⟨orderly.queue, orderly.current, orderly.forgiven, orderly.goesOn⟩

theorem raised (orderly : session.Orderly) (text : String) : (session.raised text).Orderly :=
  ⟨orderly.queue, orderly.current, orderly.goesOn, orderly.goesOn⟩

theorem ran (session : Session) (forgiven : session.reporter.hadError = false)
    (goesOn : session.reporter.fatal = false)
    (isCurrent : session.machine.current = session.machine.globals) :
    (session.ran (Eval.final (interpret session.limits session.queue session.machine.globals
      session.machine))).Orderly := by
  rcases interpret_keeps session.limits session.queue session.machine.globals session.machine with
    ⟨currents, globals, _⟩
  exact ⟨rfl, (currents.trans isCurrent).trans globals.symm, forgiven, goesOn⟩

end Session.Orderly

namespace SessionStep

section Guarded

variable {step : SessionStep Unit} {session after : Session}

theorem guarded_of_ok (done : step session = .ok () after) :
    guarded step session = .ok () after := by
  unfold guarded
  rw [done]

theorem guarded_of_tooDeep (stops : step session = .error .tooDeep after)
    (goesOn : after.reporter.fatal = false) :
    ∃ text, guarded step session = .ok () (after.raised text) := by
  unfold guarded
  rw [stops]
  exact ⟨_, (reporting_raise _ _).trans (Session.concluded_of_goesOn goesOn)⟩

theorem guarded_of_unfinished (stops : step session = .error .unfinished after) :
    guarded step session = .error .unfinished after := by
  unfold guarded
  rw [stops]
  rfl

end Guarded

variable {session : Session}

theorem guarded_run {step : SessionStep Unit} {before : Session} (ran : step before = run session)
    (isCurrent : session.machine.current = session.machine.globals)
    (forgiven : session.reporter.hadError = false) (goesOn : session.reporter.fatal = false) :
    (∃ after, guarded step before = .ok () after ∧ after.Orderly) ∨
    ∃ stopped machine, guarded step before = .error .unfinished stopped ∧
      interpret session.limits session.queue session.machine.globals session.machine =
        .error .unfinished machine := by
  have orderly := Session.Orderly.ran session forgiven goesOn isCurrent
  rcases session.exists_runs with ⟨result, runs⟩
  rw [runs.eq] at ran
  cases runs with
  | finished finishes =>
      rw [finishes] at orderly
      exact .inl ⟨_, guarded_of_ok ran, orderly⟩
  | failed fails =>
      rw [fails] at orderly
      exact .inl ⟨_, guarded_of_ok ran, orderly.raised _⟩
  | ended _ isFatal => simp [goesOn] at isFatal
  | tooDeep stops =>
      rw [stops] at orderly
      rcases guarded_of_tooDeep ran goesOn with ⟨text, settled⟩
      exact .inl ⟨_, settled, orderly.raised text⟩
  | unfinished stops => exact .inr ⟨_, _, guarded_of_unfinished ran, stops⟩

/-- A source leaves an orderly session orderly, unless running it never comes to an end. -/
theorem guarded_perform (orderly : session.Orderly) (source : String) :
    (∃ after, guarded (perform source) session = .ok () after ∧ after.Orderly) ∨
    ∃ stopped, guarded (perform source) session = .error .unfinished stopped ∧
      session.Hangs source := by
  rcases session.exists_adds source with ⟨result, adds⟩
  have added := adds.eq
  cases adds with
  | unread =>
      rcases guarded_of_tooDeep (perform_of_error added) orderly.goesOn with ⟨text, settled⟩
      exact .inl ⟨_, settled, (orderly.registered source).raised text⟩
  | rejected =>
      refine .inl ⟨_, guarded_of_ok (perform_of_rejected added), ?_⟩
      exact (orderly.registered source).raised _
  | ended _ _ isFatal => simp [orderly.goesOn] at isFatal
  | unlisted =>
      rcases guarded_of_tooDeep (perform_of_error added) orderly.goesOn with ⟨text, settled⟩
      exact .inl ⟨_, settled, (orderly.registered source).raised text⟩
  | accepted read flawless =>
      rcases guarded_run (perform_of_accepted added) orderly.current orderly.forgiven
        orderly.goesOn with done | ⟨stopped, machine, stops, hangs⟩
      · exact .inl done
      · exact .inr ⟨stopped, stops, _, machine, read, flawless, hangs⟩

end SessionStep

/-- A shell that waits for a line. -/
structure Shell.Orderly (shell : Shell) : Prop where
  prompt : shell.prompt.text = ". " ↔ shell.pending ≠ ""
  session : shell.session.Orderly

/-- That a command asks to leave the shell. -/
def Shell.Leaves (shell : Shell) (command : Command) : Prop :=
  command.word = "EOF" ∨ command.word = "exit" ∧ command.argument = "" ∧ shell.pending = ""

namespace ShellStep

variable {shell : Shell}

section Session

variable {α : Type} {step : SessionStep α} {after : Session}

theorem session_of_ok {value : α} (done : step shell.session = .ok value after) :
    session step shell = .ok value { shell with session := after } := by
  unfold session
  rw [done]

theorem session_of_error {failure : Failure} (fails : step shell.session = .error failure after) :
    session step shell = .error failure { shell with session := after } := by
  unfold session
  rw [fails]

end Session

theorem submit_of_needed {line : String}
    (isNeeded : Continuation.isNeeded (Continuation.join shell.pending line) = true) :
    submit line shell =
      .ok ()
        { shell with
          pending := Continuation.join shell.pending line
          prompt := .continued } := by
  change EStateM.run (submit line) shell = _
  simp [submit, isNeeded]

theorem submit_of_complete {line : String}
    (isComplete : Continuation.isNeeded (Continuation.join shell.pending line) = false) :
    submit line shell =
      session (SessionStep.guarded
        (SessionStep.perform (Continuation.join shell.pending line)))
        { shell with pending := "", prompt := .ready } := by
  change EStateM.run (submit line) shell = _
  simp only [submit, EStateM.run_bind, EStateM.run_get, isComplete]
  rfl

/-- A line of a program leaves an orderly shell orderly, unless a run never comes to an end. -/
theorem submit_keeps (orderly : shell.Orderly) (line : String) :
    (∃ after, submit line shell = .ok () after ∧ after.Orderly) ∨
    ∃ stopped, submit line shell = .error .unfinished stopped ∧
      shell.session.Hangs (Continuation.join shell.pending line) := by
  cases isNeeded : Continuation.isNeeded (Continuation.join shell.pending line) with
  | true =>
      refine .inl ⟨_, submit_of_needed isNeeded, ?_, orderly.session⟩
      simp [Prompt.text, Continuation.join]
  | false =>
      rw [submit_of_complete isNeeded]
      rcases SessionStep.guarded_perform orderly.session
        (Continuation.join shell.pending line) with ⟨after, done, keeps⟩ | ⟨stopped, stops, hangs⟩
      · refine .inl ⟨_, session_of_ok done, ?_, keeps⟩
        simp [Prompt.text]
      · exact .inr ⟨_, session_of_error stops, hangs⟩

/-- What a command is as a line of a program. -/
def programLine (command : Command) : String :=
  if command.word = "help" ∨ command.word = "exit" then command.word ++ " " ++ command.argument
  else command.line

section Obey

variable {command : Command}

theorem obey_of_leaves (leaves : shell.Leaves command) :
    ∃ written, obey command shell = .ok .leave { shell with written := written } := by
  rcases shell with ⟨session, pending, prompt, written⟩
  change ∃ written, EStateM.run (obey command) _ = _
  rcases leaves with isEnd | ⟨isExit, isBare, isIdle⟩
  · simp only [obey, isEnd, isPending, say, EStateM.run_bind, EStateM.run_get, EStateM.run_pure,
      EStateM.run_modify]
    exact ⟨_, rfl⟩
  · obtain rfl : pending = "" := isIdle
    simp only [obey, isExit, isBare, isPending, EStateM.run_bind, EStateM.run_get, EStateM.run_pure]
    exact ⟨written, rfl⟩

theorem obey_of_help (isHelp : command.word = "help") (isBare : command.argument = "")
    (isIdle : shell.pending = "") :
    ∃ written, obey command shell = .ok .done { shell with written := written } := by
  rcases shell with ⟨session, pending, prompt, written⟩
  obtain rfl : pending = "" := isIdle
  change ∃ written, EStateM.run (obey command) _ = _
  simp only [obey, isHelp, isBare, isPending, EStateM.run_bind, EStateM.run_get, EStateM.run_pure]
  exact ⟨_, rfl⟩

theorem obey_of_program (stays : ¬shell.Leaves command)
    (isNoHelp : ¬(command.word = "help" ∧ command.argument = "" ∧ shell.pending = "")) :
    obey command shell =
      (submit (programLine command) >>= fun _ => pure .done : ShellStep Answer) shell := by
  change EStateM.run (obey command) shell =
    EStateM.run (submit (programLine command) >>= fun _ => pure .done) shell
  simp only [Shell.Leaves, not_or] at stays
  by_cases isHelp : command.word = "help"
  · have isTaken : ¬(command.argument = "" ∧ shell.pending = "") :=
      fun isBare => isNoHelp ⟨isHelp, isBare⟩
    simp [obey, isPending, programLine, isHelp, not_and_or.1 isTaken]
  · by_cases isExit : command.word = "exit"
    · have isTaken : ¬(command.argument = "" ∧ shell.pending = "") :=
        fun isBare => stays.2 ⟨isExit, isBare⟩
      simp [obey, isPending, programLine, isExit, isTaken]
    · simp [obey, isPending, programLine, isHelp, isExit, stays.1]

end Obey

theorem answered_keeps (orderly : shell.Orderly) (line : String) (answer : Answer) :
    (∃ after, (submit line >>= fun _ => pure answer : ShellStep Answer) shell = .ok answer after ∧
      after.Orderly) ∨
    ∃ stopped, (submit line >>= fun _ => pure answer : ShellStep Answer) shell =
      .error .unfinished stopped ∧
      shell.session.Hangs (Continuation.join shell.pending line) := by
  rcases submit_keeps orderly line with ⟨after, done, keeps⟩ | ⟨stopped, stops, hangs⟩
  · exact .inl ⟨after, Eval.bind_of_ok done, keeps⟩
  · exact .inr ⟨stopped, Eval.bind_of_error stops, hangs⟩

theorem take_of_blank {line : String} (isBlank : Text.strip line.toList = []) :
    take line shell =
      if shell.pending = "" then .ok .skipped shell
      else (submit "" >>= fun _ => pure .skipped : ShellStep Answer) shell := by
  have asked : isPending shell = .ok (decide (shell.pending ≠ "")) shell := rfl
  rw [take, if_pos (by simp [isBlank]), Eval.bind_of_ok asked]
  by_cases isIdle : shell.pending = ""
  · rw [if_neg (by simpa using isIdle), if_pos isIdle]
    rfl
  · rw [if_pos (by simpa using isIdle), if_neg isIdle]

theorem take_of_command {line : String} (isCommand : Text.strip line.toList ≠ []) :
    take line shell = obey (.ofLine (Text.strip line.toList)) shell := by
  change EStateM.run (take line) shell = _
  rw [take, if_neg (by simpa using isCommand)]
  rfl

theorem obey_keeps (orderly : shell.Orderly) (command : Command) :
    (∃ answer after, obey command shell = .ok answer after ∧ after.Orderly ∧
      (answer = .leave ↔ shell.Leaves command)) ∨
    ∃ stopped, obey command shell = .error .unfinished stopped ∧
      shell.session.Hangs (Continuation.join shell.pending (programLine command)) := by
  by_cases leaves : shell.Leaves command
  · rcases obey_of_leaves leaves with ⟨written, done⟩
    exact .inl ⟨_, _, done, ⟨orderly.prompt, orderly.session⟩, by simp [leaves]⟩
  · by_cases isHelp : command.word = "help" ∧ command.argument = "" ∧ shell.pending = ""
    · rcases obey_of_help isHelp.1 isHelp.2.1 isHelp.2.2 with ⟨written, done⟩
      exact .inl ⟨_, _, done, ⟨orderly.prompt, orderly.session⟩, by simp [leaves]⟩
    · rw [obey_of_program leaves isHelp]
      rcases answered_keeps orderly (programLine command) .done with ⟨after, done, keeps⟩ | hangs
      · exact .inl ⟨_, after, done, keeps, by simp [leaves]⟩
      · exact .inr hangs

/-- The command that a line holds. -/
def commandOf (line : String) : Command :=
  .ofLine (Text.strip line.toList)

/-- Every line leaves an orderly shell orderly, unless a run never comes to an end. -/
theorem take_keeps (orderly : shell.Orderly) (line : String) :
    (∃ answer after, take line shell = .ok answer after ∧ after.Orderly ∧
      (answer = .leave ↔ shell.Leaves (commandOf line))) ∨
    ∃ stopped, take line shell = .error .unfinished stopped ∧
      shell.session.Hangs (Continuation.join shell.pending (programLine (commandOf line))) := by
  by_cases isBlank : Text.strip line.toList = []
  · have stays : ¬shell.Leaves (commandOf line) := by
      simp [Shell.Leaves, commandOf, isBlank, Command.ofLine]
    have isEmpty : programLine (commandOf line) = "" := by
      simp [programLine, commandOf, isBlank, Command.ofLine]
    rw [take_of_blank isBlank, isEmpty]
    split
    · exact .inl ⟨_, shell, rfl, orderly, by simp [stays]⟩
    · rcases answered_keeps orderly "" .skipped with ⟨after, done, keeps⟩ | hangs
      · exact .inl ⟨_, after, done, keeps, by simp [stays]⟩
      · exact .inr hangs
  · rw [take_of_command isBlank]
    exact obey_keeps orderly _

theorem take_ok {line : String} {answer : Answer} {after : Shell} (orderly : shell.Orderly)
    (took : take line shell = .ok answer after) :
    after.Orderly ∧ (answer = .leave ↔ shell.Leaves (commandOf line)) := by
  rcases take_keeps orderly line with ⟨answer', after', took', keeps⟩ | ⟨stopped, stops, _⟩
  · cases took.symm.trans took'
    exact keeps
  · cases took.symm.trans stops

theorem take_error {line : String} {failure : Failure} {stopped : Shell} (orderly : shell.Orderly)
    (fails : take line shell = .error failure stopped) :
    failure = .unfinished ∧
      shell.session.Hangs (Continuation.join shell.pending (programLine (commandOf line))) := by
  rcases take_keeps orderly line with ⟨answer, after, took, _⟩ | ⟨stopped', stops, hangs⟩
  · cases fails.symm.trans took
  · cases fails.symm.trans stops
    exact ⟨rfl, hangs⟩

end ShellStep

theorem Shell.orderly_start {reporter : Reporter} (forgiven : reporter.hadError = false)
    (showTrees : Bool) (limits : Limits) :
    (start (.start reporter Session.typedPath true showTrees limits)).Orderly where
  prompt := by simp [start, Prompt.text]
  session := ⟨rfl, rfl, forgiven, Bool.and_false _⟩

open ShellStep

/--
Every line that is given to a fresh shell is taken and leaves it orderly, and the shell asks to be
left exactly if the line does; unless the text that a line completes is a program that never comes
to an end.
-/
theorem shell_stays_orderly (reporter : Reporter) (forgiven : reporter.hadError = false)
    (showTrees : Bool) (limits : Limits) (lines : List String) :
    let shell := Shell.start (.start reporter Session.typedPath true showTrees limits)
    ∃ turns last, Takes take shell turns last ∧
      (∀ turn ∈ turns, turn.after.Orderly ∧
        (turn.answer = .leave ↔ turn.before.Leaves (commandOf turn.input))) ∧
      (turns.map Turn.input = lines ∨
        ∃ line rest stopped, lines = turns.map Turn.input ++ line :: rest ∧
          take line last = .error .unfinished stopped ∧
          last.session.Hangs (Continuation.join last.pending (programLine (commandOf line)))) := by
  intro shell
  have keeps {turns last} (takes : Takes take shell turns last) :=
    takes.keeps (Shell.orderly_start forgiven showTrees limits)
      fun orderly took => (take_ok orderly took).1
  have answers {turns last} (takes : Takes take shell turns last) :
      ∀ turn ∈ turns, turn.after.Orderly ∧
        (turn.answer = .leave ↔ turn.before.Leaves (commandOf turn.input)) := by
    intro turn isTurn
    rcases (keeps takes).2 turn isTurn with ⟨orderly, _, took⟩
    exact take_ok orderly took
  rcases exists_takes take shell lines with
    ⟨turns, last, takes, isAll⟩ | ⟨turns, last, line, rest, failure, stopped, takes, isRest, fails⟩
  · exact ⟨turns, last, takes, answers takes, .inl isAll⟩
  · rcases take_error (keeps takes).1 fails with ⟨rfl, hangs⟩
    exact ⟨turns, last, takes, answers takes, .inr ⟨line, rest, stopped, isRest, fails, hangs⟩⟩

/-- Lines with an error, an open bracket, a run that is nested too deeply, and two ways to leave. -/
theorem shell_stays_orderly_lines :
    let shell := Shell.start (.start {} Session.typedPath true true (.ofDepth 20))
    ∃ turns last, Takes take shell turns last ∧
      (∀ turn ∈ turns, turn.after.Orderly ∧
        (turn.answer = .leave ↔ turn.before.Leaves (commandOf turn.input))) ∧
      (turns.map Turn.input = ["a;", "fun f() \x7b", "f();", "\x7d", "f();", "exit", "EOF"] ∨
        ∃ line rest stopped, ["a;", "fun f() \x7b", "f();", "\x7d", "f();", "exit", "EOF"] =
          turns.map Turn.input ++ line :: rest ∧
          take line last = .error .unfinished stopped ∧
          last.session.Hangs (Continuation.join last.pending (programLine (commandOf line)))) :=
  shell_stays_orderly {} rfl true (.ofDepth 20) _

end Scriptlet
