import Scriptlet.Proofs.Continuation.Quotes
import Scriptlet.Proofs.Deepening.Sessions
import Scriptlet.Proofs.Excerpt
import Scriptlet.Proofs.FileRun
import Scriptlet.Proofs.Provenance
import Scriptlet.Proofs.Shell

/-!
# Excerpts in reports

All that is reported about a source, be it a file or a text that was typed in, are the errors found
in it (`Session.errorsIn`) or that it nests too deeply. An error that stays where it is when the
functions of earlier sources are moved a line down is an error of the source itself, and any other
is one of such a function (`Session.errorsIn_cases`). Only the former is shown in its own source:
the excerpt is then the line on which the text to blame ends (`Program.excerpts_show_lines`).
-/

namespace Scriptlet

open Segment

theorem SyntaxError.token_mem {text : String} {depth : Nat} {parsed : Parsed}
    (read : parse depth (scan text).tokens = .ok parsed) {error : SyntaxError}
    (isError : error ∈ parsed.errors) : error.token ∈ (scan text).tokens := by
  rcases parse_corresponds (Likeness.forall₂_only fun _ member => member) read with
    ⟨again, readAgain, _, selves⟩
  cases read.symm.trans readAgain
  exact (List.forall₂_same.1 selves error isError).token.1

namespace Session

/-- A session whose functions are all a line further down. -/
def lowered (session : Session) : Session :=
  { session with machine := session.machine.lowered }

/-- The error that running the queue ends with, if there is one. -/
def runErrors (session : Session) : List Diagnostic :=
  match interpret session.limits session.queue session.machine.globals session.machine with
  | .ok (some error) _ => [error.diagnostic]
  | _ => []

/-- The errors that are found in a source, or the one that its run ends with if there are none. -/
def errorsIn (session : Session) (source : String) : List Diagnostic :=
  match parse session.limits.depth (scan source).tokens with
  | .ok parsed =>
    if staticErrors source parsed = [] then (session.accepted source parsed.statements).runErrors
    else staticErrors source parsed
  | .error _ => []

/-- The lists of errors of which one is reported when a source is performed. -/
def reportable (session : Session) (source : String) : List (List Diagnostic) :=
  [[], [Reporting.unlocated "maximum recursion depth exceeded"], session.errorsIn source]

variable {session : Session} {source : String} {diagnostic : Diagnostic}

theorem mem_errorsIn_of_reportable {diagnostics : List Diagnostic}
    (isReportable : diagnostics ∈ session.reportable source) (isReported : diagnostic ∈ diagnostics)
    (isPlaced : diagnostic.line ≠ none) : diagnostic ∈ session.errorsIn source := by
  simp only [reportable, List.mem_cons, List.not_mem_nil, or_false] at isReportable
  rcases isReportable with rfl | rfl | rfl
  · contradiction
  · cases List.mem_singleton.1 isReported
    contradiction
  · exact isReported

theorem eq_errorsIn_of_reportable {diagnostics : List Diagnostic} {reporter : Reporter}
    {text : String} (isReportable : diagnostics ∈ session.reportable source)
    (written : text = reporter.reports diagnostics) (isSome : text ≠ reporter.reports [])
    (isShallow : text ≠
      reporter.reports [Reporting.unlocated "maximum recursion depth exceeded"]) :
    diagnostics = session.errorsIn source := by
  simp only [reportable, List.mem_cons, List.not_mem_nil, or_false] at isReportable
  rcases isReportable with rfl | rfl | rfl
  · contradiction
  · contradiction
  · rfl

theorem mem_runErrors (isError : diagnostic ∈ session.runErrors) :
    ∃ error machine, interpret session.limits session.queue session.machine.globals
      session.machine = .ok (some error) machine ∧ diagnostic = error.diagnostic := by
  unfold runErrors at isError
  split at isError
  · exact ⟨_, _, ‹_›, List.mem_singleton.1 isError⟩
  · contradiction

theorem mem_errorsIn (isError : diagnostic ∈ session.errorsIn source) :
    ∃ parsed, parse session.limits.depth (scan source).tokens = .ok parsed ∧
      (diagnostic ∈ staticErrors source parsed ∨ staticErrors source parsed = [] ∧
        diagnostic ∈ (session.accepted source parsed.statements).runErrors) := by
  unfold errorsIn at isError
  split at isError
  · rename_i parsed read
    split at isError
    · exact ⟨parsed, read, .inr ⟨‹_›, isError⟩⟩
    · exact ⟨parsed, read, .inl isError⟩
  · contradiction

theorem errorsIn_of_faulty {parsed : Parsed}
    (read : parse session.limits.depth (scan source).tokens = .ok parsed)
    (faulty : staticErrors source parsed ≠ []) :
    session.errorsIn source = staticErrors source parsed := by
  simp only [errorsIn, read, if_neg faulty]

theorem runErrors_of_error {error : RuntimeError} {machine : Machine}
    (fails : interpret session.limits session.queue session.machine.globals session.machine =
      .ok (some error) machine) : session.runErrors = [error.diagnostic] := by
  unfold runErrors
  rw [fails]

theorem errorsIn_of_flawless {parsed : Parsed}
    (read : parse session.limits.depth (scan source).tokens = .ok parsed)
    (flawless : staticErrors source parsed = []) :
    session.errorsIn source = (session.accepted source parsed.statements).runErrors := by
  simp only [errorsIn, read, if_pos flawless]

/-- An error in the text of a source points at a part of it. -/
theorem exists_pointsAt_of_static {depth : Nat} {parsed : Parsed}
    (read : parse depth (scan source).tokens = .ok parsed)
    (isError : diagnostic ∈ staticErrors source parsed) (blames : diagnostic.lexeme ≠ "") :
    ∃ place, diagnostic.PointsAt source place := by
  rcases List.mem_append.1 isError with isError | isError
  · rcases List.mem_map.1 isError with ⟨error, member, rfl⟩
    exact ScanError.exists_pointsAt member
  · rcases List.mem_map.1 isError with ⟨error, member, rfl⟩
    have isToken := SyntaxError.token_mem read member
    unfold SyntaxError.diagnostic Diagnostic.atToken at blames ⊢
    by_cases isEnd : error.token.kind = .eof
    · simp [isEnd] at blames
    · rw [if_neg isEnd] at blames ⊢
      rcases exists_place_of_mem_tokens isToken blames with ⟨place, isPlace, isLine, isText⟩
      exact ⟨place, isPlace, congrArg some isLine, isText⟩

theorem queue_accepted (isEmpty : session.queue = []) (statements : List Stmt) :
    (session.accepted source statements).queue = statements := by
  rw [accepted, isEmpty, List.nil_append]

/-- That a diagnostic points at a token of a function that is bound in a session. -/
def BlamesFunction (session : Session) (diagnostic : Diagnostic) : Prop :=
  ∃ token, session.machine.Mentions token ∧ diagnostic.line = some token.line ∧
    diagnostic.lexeme = token.lexeme

/--
An error that stays where it is when the functions of a session are moved points at a part of the
source itself. Any other points at a token of such a function.
-/
theorem errorsIn_cases (isEmpty : session.queue = [])
    (isError : diagnostic ∈ session.errorsIn source) (blames : diagnostic.lexeme ≠ "") :
    diagnostic ∈ session.lowered.errorsIn source ∧
      (∃ place, diagnostic.PointsAt source place) ∨
    diagnostic ∉ session.lowered.errorsIn source ∧ session.BlamesFunction diagnostic := by
  rcases mem_errorsIn isError with ⟨parsed, read, isStatic | ⟨flawless, isRuntime⟩⟩
  · have faulty : staticErrors source parsed ≠ [] := List.ne_nil_of_mem isStatic
    have same : session.lowered.errorsIn source = staticErrors source parsed :=
      errorsIn_of_faulty read faulty
    rw [same]
    exact .inl ⟨isStatic, exists_pointsAt_of_static read isStatic blames⟩
  · rcases mem_runErrors isRuntime with ⟨error, after, fails, rfl⟩
    rw [queue_accepted isEmpty] at fails
    rcases interpret_lowered read fails with ⟨other, after', failsAgain, placed⟩
    have errors : session.lowered.errorsIn source =
        (session.lowered.accepted source parsed.statements).runErrors :=
      errorsIn_of_flawless read flawless
    have isOther : (session.lowered.accepted source parsed.statements).runErrors =
        [other.diagnostic] := by
      have sameQueue : session.lowered.queue = [] := isEmpty
      apply runErrors_of_error
      rw [queue_accepted sameQueue]
      exact failsAgain
    rw [errors, isOther, List.mem_singleton]
    rcases placed with ⟨isToken, rfl⟩ | ⟨isMentioned, rfl⟩
    · rcases exists_place_of_mem_tokens isToken blames with ⟨place, isPlace, isLine, isText⟩
      exact .inl ⟨rfl, place, isPlace, congrArg some isLine, isText⟩
    · refine .inr ⟨fun same => ?_, error.token, isMentioned, rfl, rfl⟩
      have sameLine : error.token.line = error.token.line + 1 :=
        Option.some.inj (congrArg Diagnostic.line same)
      omega

end Session

namespace SessionStep

theorem final_concluded (session : Session) : final session.concluded = session := by
  unfold Session.concluded
  split <;> rfl

/-- That a step has reported one of the lists of errors that may be reported about a source. -/
structure Reports (session : Session) (source : String) (after : Session) : Prop where
  reports : ∃ diagnostics ∈ session.reportable source,
    after.reporter.written = session.reporter.written ++
      (session.registered source).reporter.reports diagnostics
  style : after.reporter.style = session.reporter.style

section Guarded

variable {session : Session} {source : String} {step : SessionStep Unit}

theorem Reports.nothing {after : Session}
    (silent : after.reporter.written = session.reporter.written)
    (sameStyle : after.reporter.style = session.reporter.style) : Reports session source after :=
  ⟨⟨[], by simp [Session.reportable], by rw [silent]; simp [Reporter.reports]⟩, sameStyle⟩

theorem Reports.single {after : Session} {diagnostic : Diagnostic}
    (known : [diagnostic] ∈ session.reportable source)
    (written : after.reporter.written = session.reporter.written ++
      (session.registered source).reporter.reportText diagnostic false)
    (sameStyle : after.reporter.style = session.reporter.style) : Reports session source after :=
  ⟨⟨[diagnostic], known, by rw [written]; simp [Reporter.reports]⟩, sameStyle⟩

/-- A source that nests too deeply is reported without a line. -/
theorem reports_of_tooDeep {after : Session} (stops : step session = .error .tooDeep after)
    (same : after.reporter = (session.registered source).reporter) :
    Reports session source (final (guarded step session)) := by
  let diagnostic := Reporting.unlocated "maximum recursion depth exceeded"
  have settled : guarded step session =
      (after.raised (after.reporter.reportText diagnostic false)).concluded := by
    unfold guarded
    rw [stops]
    exact reporting_raise _ _
  have written : (after.raised (after.reporter.reportText diagnostic false)).reporter.written =
      session.reporter.written ++
        (session.registered source).reporter.reportText diagnostic false := by
    change after.reporter.written ++ _ = _
    rw [same]
    rfl
  have sameStyle : (after.raised (after.reporter.reportText diagnostic false)).reporter.style =
      session.reporter.style := by
    change after.reporter.style = _
    rw [same]
    rfl
  rw [settled, final_concluded]
  exact .single (by simp [Session.reportable, diagnostic]) written sameStyle

/-- A program that is ended reports nothing more. -/
theorem final_guarded_of_exit {status : Option Int} {after : Session}
    (ended : step session = .error (.exit status) after) :
    final (guarded step session) = after := by
  unfold guarded
  rw [ended]
  rfl

theorem final_guarded_of_unfinished {after : Session}
    (stops : step session = .error .unfinished after) : final (guarded step session) = after := by
  rw [guarded_of_unfinished stops]
  rfl

theorem final_guarded_of_ok {after : Session} (done : step session = .ok () after) :
    final (guarded step session) = after := by
  rw [guarded_of_ok done]
  rfl

theorem reports_of_accepted {parsed : Parsed}
    (read : parse session.limits.depth (scan source).tokens = .ok parsed)
    (flawless : staticErrors source parsed = [])
    (ran : step session = run (session.accepted source parsed.statements)) :
    Reports session source (final (guarded step session)) := by
  have errors := Session.errorsIn_of_flawless read flawless
  rcases (session.accepted source parsed.statements).exists_runs with ⟨result, runs⟩
  rw [runs.eq] at ran
  cases runs with
  | finished =>
      rw [final_guarded_of_ok ran]
      exact .nothing rfl rfl
  | failed fails =>
      rw [final_guarded_of_ok ran]
      exact .single (by simp [Session.reportable, errors, Session.runErrors_of_error fails]) rfl rfl
  | ended fails =>
      rw [final_guarded_of_exit ran]
      exact .single (by simp [Session.reportable, errors, Session.runErrors_of_error fails]) rfl rfl
  | tooDeep => exact reports_of_tooDeep ran rfl
  | unfinished =>
      rw [final_guarded_of_unfinished ran]
      exact .nothing rfl rfl

/-- All that is reported about a source. -/
theorem reports_perform (session : Session) (source : String) :
    Reports session source (final (guarded (perform source) session)) := by
  rcases session.exists_adds source with ⟨result, adds⟩
  have added := adds.eq
  cases adds with
  | unread => exact reports_of_tooDeep (perform_of_error added) rfl
  | unlisted => exact reports_of_tooDeep (perform_of_error added) rfl
  | rejected read faulty =>
      rw [final_guarded_of_ok (perform_of_rejected added)]
      exact ⟨⟨_, by simp [Session.reportable, Session.errorsIn_of_faulty read faulty], rfl⟩, rfl⟩
  | ended read faulty =>
      rw [final_guarded_of_exit (perform_of_error added)]
      exact ⟨⟨_, by simp [Session.reportable, Session.errorsIn_of_faulty read faulty], rfl⟩, rfl⟩
  | accepted read flawless => exact reports_of_accepted read flawless (perform_of_accepted added)

end Guarded

end SessionStep

namespace ShellStep

section Final

variable {α : Type} (shell : Shell)

theorem session_final (step : SessionStep α) :
    (final (session step shell)).session = SessionStep.final (step shell.session) := by
  unfold session
  cases step shell.session <;> rfl

theorem final_answered (step : ShellStep Unit) (answer : Answer) :
    final ((step >>= fun _ => pure answer : ShellStep Answer) shell) = final (step shell) := by
  cases done : step shell with
  | ok value after => rw [Eval.bind_of_ok done]; rfl
  | error failure after => rw [Eval.bind_of_error done]; rfl

end Final

variable (line : String) (shell : Shell)

theorem session_submit :
    (final (submit line shell)).session = shell.session ∨
    (final (submit line shell)).session = SessionStep.final
      (SessionStep.guarded (SessionStep.perform (Continuation.join shell.pending line))
        shell.session) := by
  cases isNeeded : Continuation.isNeeded (Continuation.join shell.pending line) with
  | true =>
      rw [submit_of_needed isNeeded]
      exact .inl rfl
  | false =>
      rw [submit_of_complete isNeeded]
      exact .inr (session_final _ _)

theorem session_obey (command : Command) :
    (final (obey command shell)).session = shell.session ∨
    (final (obey command shell)).session = SessionStep.final
      (SessionStep.guarded (SessionStep.perform
        (Continuation.join shell.pending (programLine command))) shell.session) := by
  by_cases leaves : shell.Leaves command
  · rcases obey_of_leaves leaves with ⟨written, done⟩
    rw [done]
    exact .inl rfl
  · by_cases isHelp : command.word = "help" ∧ command.argument = "" ∧ shell.pending = ""
    · rcases obey_of_help isHelp.1 isHelp.2.1 isHelp.2.2 with ⟨written, done⟩
      rw [done]
      exact .inl rfl
    · rw [obey_of_program leaves isHelp, final_answered]
      exact session_submit _ shell

/-- Every line leaves the session alone, or makes it perform the text so far. -/
theorem session_take :
    (final (take line shell)).session = shell.session ∨
    (final (take line shell)).session = SessionStep.final
      (SessionStep.guarded (SessionStep.perform
        (Continuation.join shell.pending (programLine (commandOf line)))) shell.session) := by
  by_cases isBlank : Text.strip line.toList = []
  · have isEmpty : programLine (commandOf line) = "" := by
      simp [programLine, commandOf, isBlank, Command.ofLine]
    rw [take_of_blank isBlank, isEmpty]
    split
    · exact .inl rfl
    · rw [final_answered]
      exact session_submit "" shell
  · rw [take_of_command isBlank]
    exact session_obey shell _

theorem style_take :
    (final (take line shell)).session.reporter.style = shell.session.reporter.style := by
  rcases session_take line shell with same | performed
  · rw [same]
  · rw [performed]
    exact (SessionStep.reports_perform _ _).style

theorem style_takes {first last : Shell} {turns : List (Turn String Answer Shell)}
    (takes : Takes take first turns last) :
    last.session.reporter.style = first.session.reporter.style := by
  induction takes with
  | nil => rfl
  | @snoc _ before _ line _ _ took ih =>
      have same := style_take line before
      rw [took] at same
      exact same.trans ih

end ShellStep

namespace Program

theorem errors_fileOutcome (step : SessionStep Unit) (session : Session) :
    (fileOutcome step session).errors =
      (SessionStep.final (SessionStep.guarded step session)).reporter.written := by
  unfold fileOutcome SessionStep.guarded failed SessionStep.reporting
  cases step session with
  | ok value after => rfl
  | error failure after =>
      dsimp only
      cases Reporting.settle failure after.reporter <;> rfl

theorem runFile_eq_perform {files : Files} {session : Session} {source : String}
    (isFile : session.path ≠ Session.typedPath)
    (readable : SessionStep.readSource files session.path = .ok source)
    (isFatal : session.reporter.fatal = true) :
    runFile files session = SessionStep.perform source session := by
  rw [runFile_apply isFile readable]
  rcases session.exists_adds source with ⟨result, adds⟩
  have added := adds.eq
  cases adds with
  | unread => rw [Eval.bind_of_error added, SessionStep.perform_of_error added]
  | unlisted => rw [Eval.bind_of_error added, SessionStep.perform_of_error added]
  | ended => rw [Eval.bind_of_error added, SessionStep.perform_of_error added]
  | accepted => rw [Eval.bind_of_ok added, SessionStep.perform_of_accepted added]
  | rejected _ _ goesOn => simp [isFatal] at goesOn

section Plan

variable {style : Style} {arguments : List String}

theorem eq_start_of_plan_file {session : Session} (isPlan : plan style arguments = .file session) :
    ∃ path showTrees limits,
      session = .start { style := style } path false showTrees limits := by
  unfold plan at isPlan
  split at isPlan
  · cases isPlan
  · cases isPlan
  · split at isPlan
    · cases isPlan
    · split at isPlan
      · cases isPlan
        exact ⟨_, _, _, rfl⟩
      · cases isPlan

theorem eq_start_of_plan_shell {shell : Shell} (isPlan : plan style arguments = .shell shell) :
    ∃ showTrees limits, shell =
      .start (.start { style := style } Session.typedPath true showTrees limits) := by
  unfold plan at isPlan
  split at isPlan
  · cases isPlan
  · cases isPlan
  · split at isPlan
    · cases isPlan
    · split at isPlan
      · cases isPlan
      · cases isPlan
        exact ⟨_, _, rfl⟩

end Plan

end Program

/--
That an excerpt is of the line of a text on which the segment to blame ends, from newline to
newline, unless another character ends a line before.
-/
def Diagnostic.IsShownIn (diagnostic : Diagnostic) (text : String) (style : Style)
    (excerpt : String) : Prop :=
  ∃ place, diagnostic.PointsAt text place ∧
    (PlainUpTo text.toList place.stop →
      excerpt? style diagnostic.lexeme (String.ofList (lineAround text.toList place.stop)) =
        some excerpt)

theorem Session.isShownIn {session : Session} {source excerpt : String} {diagnostic : Diagnostic}
    (isEmpty : session.queue = [])
    {diagnostics : List Diagnostic} (isReportable : diagnostics ∈ session.reportable source)
    (isReported : diagnostic ∈ diagnostics)
    (isExcerpt : (session.registered source).reporter.excerptFor? diagnostic = some excerpt) :
    diagnostic ∈ session.lowered.errorsIn source ∧
      diagnostic.IsShownIn source (session.registered source).reporter.style excerpt ∨
    diagnostic ∉ session.lowered.errorsIn source ∧ session.BlamesFunction diagnostic := by
  have isSource : (session.registered source).reporter.source =
      some ⟨session.path, Text.lines source⟩ := rfl
  rcases Reporter.exists_line_of_excerptFor? isSource isExcerpt with
    ⟨blames, number, _, isLine, _⟩
  have isError := mem_errorsIn_of_reportable isReportable isReported (by simp [isLine])
  rcases errorsIn_cases isEmpty isError blames with ⟨stays, place, points⟩ | moves
  · exact .inl ⟨stays, place, points, fun plain =>
      Reporter.excerpt?_of_excerptFor? isSource points plain isExcerpt⟩
  · exact .inr moves

namespace Program

/--
What a run on a file reports shows each error in the line of the file on which the text to blame
ends. So does what is reported after a line was typed in, for the errors that the typed text itself
holds. Those are the ones that stay where they are when all functions of earlier texts are moved a
line down. An error that moves along points into a function of an earlier text, and not at the line
that is shown.
-/
theorem excerpts_show_lines (style : Style) (arguments : List String) :
    (∀ files input session source, plan style arguments = .file session →
      session.path ≠ Session.typedPath →
      SessionStep.readSource files session.path = .ok source →
      let reporter := (session.registered source).reporter
      ∃ diagnostics ∈ session.reportable source,
        (run files style arguments input).errors = reporter.reports diagnostics ∧
        ∀ diagnostic ∈ diagnostics, ∀ excerpt, reporter.excerptFor? diagnostic = some excerpt →
          diagnostic.IsShownIn source style excerpt) ∧
    ∀ shell turns last line, plan style arguments = .shell shell →
      Takes ShellStep.take shell turns last →
      let text := Continuation.join last.pending (ShellStep.programLine (ShellStep.commandOf line))
      let reporter := (last.session.registered text).reporter
      ∃ diagnostics ∈ last.session.reportable text,
        (ShellStep.final (ShellStep.take line last)).session.reporter.written =
          last.session.reporter.written ++ reporter.reports diagnostics ∧
        ∀ diagnostic ∈ diagnostics, ∀ excerpt, reporter.excerptFor? diagnostic = some excerpt →
          diagnostic ∈ last.session.lowered.errorsIn text ∧
            diagnostic.IsShownIn text style excerpt ∨
          diagnostic ∉ last.session.lowered.errorsIn text ∧
            last.session.BlamesFunction diagnostic := by
  constructor
  · intro files input session source isPlan isFile readable reporter
    rcases eq_start_of_plan_file isPlan with ⟨path, showTrees, limits, rfl⟩
    let session := Session.start { style := style } path false showTrees limits
    have performed : (run files style arguments input).errors = (SessionStep.final
        (SessionStep.guarded (SessionStep.perform source) session)).reporter.written := by
      rw [run, isPlan]
      refine (errors_fileOutcome _ _).trans ?_
      unfold SessionStep.guarded
      rw [runFile_eq_perform isFile readable rfl]
    rcases (SessionStep.reports_perform session source).reports with
      ⟨diagnostics, isReportable, written⟩
    refine ⟨diagnostics, isReportable, ?_, fun diagnostic isReported excerpt isExcerpt => ?_⟩
    · rw [performed, written]
      exact String.empty_append
    · rcases Session.isShownIn rfl isReportable isReported isExcerpt with
        ⟨_, isShown⟩ | ⟨_, token, isMentioned, _⟩
      · exact isShown
      · exact absurd isMentioned (Machine.not_mentions_initial token)
  · intro shell turns last line isPlan takes text reporter
    rcases eq_start_of_plan_shell isPlan with ⟨showTrees, limits, rfl⟩
    have orderly := (takes.keeps (Shell.orderly_start rfl showTrees limits)
      fun orderly took => (ShellStep.take_ok orderly took).1).1
    have sameStyle : last.session.reporter.style = style := ShellStep.style_takes takes
    rcases ShellStep.session_take line last with same | performed
    · rw [same]
      exact ⟨[], by simp [Session.reportable], by simp [Reporter.reports], by simp⟩
    · rw [performed]
      rcases (SessionStep.reports_perform last.session text).reports with
        ⟨diagnostics, isReportable, written⟩
      refine ⟨diagnostics, isReportable, written, fun diagnostic isReported excerpt isExcerpt => ?_⟩
      rw [← sameStyle]
      exact Session.isShownIn orderly.session.queue isReportable isReported isExcerpt

/--
A file with an error before a form feed, and a typed text with an error that is spelled like a part
of the function it calls.
-/
theorem excerpts_show_lines_call :
    ((run (fun _ => some [45, 34, 97, 34, 59, 10, 47, 47, 32, 12, 10]) .plain
        ["script"] "").errors =
        "script:1: runtime error: Operand must be a number.\n  -\"a\";\n  ^\n" ∧
      ∃ diagnostic : Diagnostic,
        diagnostic.IsShownIn "-\"a\";\n// \x0c\n" .plain "  -\"a\";\n  ^") ∧
    ∃ turns last, Takes ShellStep.take
        (.start (.start {} Session.typedPath true false .usual)) turns last ∧
      turns.map Turn.input = ["fun f(a) \x7b return a - 1; \x7d"] ∧
      (ShellStep.final (ShellStep.take "f(2) - \"a\";" last)).session.reporter.written =
        "<in>:1: runtime error: Operands must be numbers.\n  f(2) - \"a\";\n       ^\n" ∧
      ∃ diagnostic ∈ last.session.lowered.errorsIn "f(2) - \"a\";\n",
        diagnostic.IsShownIn "f(2) - \"a\";\n" .plain "  f(2) - \"a\";\n       ^" := by
  constructor
  · let session := Session.start {} "script" false false .usual
    let source := "-\"a\";\n// \x0c\n"
    let diagnostic : Diagnostic :=
      { kind := .runtime, line := some 1, message := "Operand must be a number.", lexeme := "-" }
    have errors : (run (fun _ => some [45, 34, 97, 34, 59, 10, 47, 47, 32, 12, 10]) .plain
        ["script"] "").errors =
          "script:1: runtime error: Operand must be a number.\n  -\"a\";\n  ^\n" := by
      decide +kernel
    have found : session.errorsIn source = [diagnostic] := by decide +kernel
    rcases (excerpts_show_lines .plain ["script"]).1
      (fun _ => some [45, 34, 97, 34, 59, 10, 47, 47, 32, 12, 10]) "" session source rfl (by decide)
      rfl with ⟨diagnostics, isReportable, written, shown⟩
    rw [Session.eq_errorsIn_of_reportable isReportable (errors.symm.trans written)
      (by decide +kernel) (by decide +kernel), found] at shown
    exact ⟨errors, diagnostic, shown diagnostic (List.mem_singleton_self _) _ (by decide +kernel)⟩
  · let shell := Shell.start (.start {} Session.typedPath true false .usual)
    let text := "f(2) - \"a\";\n"
    let report := "<in>:1: runtime error: Operands must be numbers.\n  f(2) - \"a\";\n       ^\n"
    let diagnostic : Diagnostic :=
      { kind := .runtime, line := some 1, message := "Operands must be numbers.", lexeme := "-" }
    have typed : ∃ turns last, (Takes ShellStep.take shell turns last ∧
        turns.map Turn.input = ["fun f(a) \x7b return a - 1; \x7d"]) ∧
        Continuation.join last.pending
          (ShellStep.programLine (ShellStep.commandOf "f(2) - \"a\";")) = text ∧
        last.session.reporter.written = "" ∧
        (ShellStep.final (ShellStep.take "f(2) - \"a\";" last)).session.reporter.written = report ∧
        report ≠ (last.session.registered text).reporter.reports
          [Reporting.unlocated "maximum recursion depth exceeded"] ∧
        last.session.errorsIn text = [diagnostic] ∧
        diagnostic ∈ last.session.lowered.errorsIn text ∧
        (last.session.registered text).reporter.excerptFor? diagnostic =
          some "  f(2) - \"a\";\n       ^" :=
      exists_takes_of_turnsOn (by decide +kernel)
    rcases typed with ⟨turns, last, ⟨takes, isInput⟩, isText, silent, errors, isShallow, found,
      stays, isExcerpt⟩
    rcases (excerpts_show_lines .plain []).2 shell _ last "f(2) - \"a\";" rfl takes with
      ⟨diagnostics, isReportable, written, shown⟩
    rw [silent, String.empty_append, isText, errors] at written
    rw [isText] at isReportable shown
    rw [Session.eq_errorsIn_of_reportable isReportable written
      (by simp [Reporter.reports, report]) isShallow, found] at shown
    refine ⟨_, last, takes, isInput, errors, diagnostic, stays, ?_⟩
    rcases shown diagnostic (List.mem_singleton_self _) _ isExcerpt with
      ⟨_, isShown⟩ | ⟨moves, _⟩
    · exact isShown
    · exact absurd stays moves

/--
Two reports that show another line than the one to blame. A form feed ends a line of a source, but
not one that is counted, so the line of the second semicolon is not found. And a part of a function
is looked for in the text that calls it.
-/
theorem excerpts_of_other_lines :
    ((run (fun _ => some [47, 47, 32, 12, 32, 120, 32, 59, 10, 59, 10]) .plain
        ["script"] "").errors =
        "script:2: error at ';': Expect expression.\n   x ;\n     ^\n" ∧
      lineAround "// \x0c x ;\n;\n".toList 10 = [';']) ∧
    (run (fun _ => none) .plain [] "fun f() \x7b return -\"a\"; \x7d\nf() - 1;\n").errors =
      "<in>:1: runtime error: Operand must be a number.\n  f() - 1;\n      ^\n" := by
  refine ⟨⟨?_, ?_⟩, ?_⟩ <;> decide +kernel

end Program

end Scriptlet
