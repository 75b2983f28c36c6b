import Scriptlet.Program
import Scriptlet.Proofs.Printing
import Scriptlet.Proofs.Session.Steps

/-!
# Running a file

What the program comes to when it is called with a file. A file with errors is not run. A file
without errors is run behind the list of its statements, if that is asked for, and the run prints
what it prints on its own. Either can end the program, and the outcome then tells why.
-/

namespace Scriptlet

namespace CommandLine

theorem classify_plain {path : String} (undashed : path.toList.head? ≠ some '-') :
    classify path = .plain := by
  unfold classify
  split <;> simp_all

/-- An argument that does not begin with a dash is the file to run. -/
theorem read_file (showTrees : Bool) {path : String} (undashed : path.toList.head? ≠ some '-') :
    read (if showTrees then ["--ast", path] else [path]) =
      .ok (.run { file := some path, showTrees := showTrees }) := by
  have isPlain := classify_plain undashed
  have noDashes : path ≠ "--" := by
    rintro rfl
    exact undashed (by decide)
  have isSwitch : classify "--ast" = .switch .showTrees none := by decide
  cases showTrees <;>
    simp [read, ambiguity?, readFrom, isPlain, noDashes, isSwitch, Progress.plain, Progress.finish]

end CommandLine

namespace Program

theorem run_file (files : Files) (style : Style) (showTrees : Bool) {path : String} (input : String)
    (undashed : path.toList.head? ≠ some '-') :
    run files style (if showTrees then ["--ast", path] else [path]) input =
      fileOutcome (runFile files)
        (.start { style := style } path false showTrees .usual) := by
  have isUsual : limitsFor Limits.usualDepth = .ok .usual := rfl
  simp only [run, plan, CommandLine.read_file showTrees undashed, isUsual]

section Session

variable {files : Files} {session after : Session} {source : String}

theorem runFile_apply (isFile : session.path ≠ Session.typedPath)
    (readable : SessionStep.readSource files session.path = .ok source) :
    runFile files session =
      (SessionStep.add source >>= fun _ => SessionStep.run : SessionStep Unit) session := by
  change EStateM.run (runFile files) session =
    EStateM.run (SessionStep.add source >>= fun _ => SessionStep.run) session
  simp [runFile, SessionStep.load, isFile, readable, discard, map_const]

/-- A fatal session either ends when it takes in a file, or runs all of it. -/
theorem runFile_cases (isFile : session.path ≠ Session.typedPath)
    (readable : SessionStep.readSource files session.path = .ok source)
    (isFatal : session.reporter.fatal = true) :
    (∃ stopped, runFile files session = .error .tooDeep stopped) ∨
    ∃ parsed, parse session.limits.depth (scan source).tokens = .ok parsed ∧
      (staticErrors source parsed ≠ [] ∧ runFile files session =
        .error (.exit (some 1)) (session.rejected source (staticErrors source parsed)) ∨
      staticErrors source parsed = [] ∧
        runFile files session = SessionStep.run (session.accepted source parsed.statements)) := by
  rw [runFile_apply isFile readable]
  rcases session.exists_adds source with ⟨result, adds⟩
  have added := adds.eq
  cases adds with
  | unread =>
      rw [Eval.bind_of_error added]
      exact .inl ⟨_, rfl⟩
  | unlisted =>
      rw [Eval.bind_of_error added]
      exact .inl ⟨_, rfl⟩
  | rejected read faulty goesOn => simp [isFatal] at goesOn
  | ended read faulty =>
      rw [Eval.bind_of_error added]
      exact .inr ⟨_, read, .inl ⟨faulty, rfl⟩⟩
  | accepted read flawless =>
      rw [Eval.bind_of_ok added]
      exact .inr ⟨_, read, .inr ⟨flawless, rfl⟩⟩

variable {statements : List Stmt}

/-- A program that is run behind the list of its statements prints what it prints without it. -/
theorem interpret_of_accepted {error : Option RuntimeError} {machine : Machine}
    (isEmpty : session.queue = []) (isSilent : session.machine.output = "")
    (ran : interpret session.limits (session.accepted source statements).queue
      session.machine.globals (session.accepted source statements).machine = .ok error machine) :
    ∃ after, interpret session.limits statements session.machine.globals session.machine =
        .ok error after ∧ machine.output = session.listed statements ++ after.output := by
  rcases exists_interpret_of_output ran "" with ⟨printed, after, isPrinted, alone, isAlone⟩
  refine ⟨after, ?_, ?_⟩
  · have same : { (session.accepted source statements).machine with output := "" } =
        session.machine := by rw [← isSilent]; rfl
    rw [same] at alone
    simpa [Session.accepted, isEmpty] using alone
  · simpa [Session.accepted, isSilent, isAlone] using isPrinted

end Session

/-- Whether a step of a session nests too deeply or could not be brought to an end. -/
def reachesLimit : EStateM.Result Failure Session Unit → Bool
  | .error .tooDeep _ => true
  | .error .unfinished _ => true
  | _ => false

section Outcome

variable {step : SessionStep Unit} {session after : Session} {source : String}
  {statements : List Stmt}

theorem fileOutcome_of_exit (ended : step session = .error (.exit (some 1)) after) :
    fileOutcome step session = ⟨1, after.machine.output, after.reporter.written⟩ := by
  unfold fileOutcome
  rw [ended]
  rfl

theorem fileOutcome_of_ok (finished : step session = .ok () after) :
    fileOutcome step session = ⟨0, after.machine.output, after.reporter.written⟩ := by
  unfold fileOutcome
  rw [finished]

theorem fileOutcome_of_accepted (isFatal : session.reporter.fatal = true)
    (isEmpty : session.queue = []) (isSilent : session.machine.output = "")
    (ran : step session = SessionStep.run (session.accepted source statements))
    (finishes : reachesLimit (step session) = false) :
    (∃ after, interpret session.limits statements session.machine.globals session.machine =
        .ok none after ∧
      fileOutcome step session =
        ⟨0, session.listed statements ++ after.output, session.reporter.written⟩) ∨
    ∃ error after, interpret session.limits statements session.machine.globals session.machine =
        .ok (some error) after ∧
      fileOutcome step session =
        ⟨1, session.listed statements ++ after.output, session.reporter.written ++
          (session.registered source).reporter.reportText error.diagnostic false⟩ := by
  rcases (session.accepted source statements).exists_runs with ⟨result, runs⟩
  rw [runs.eq] at ran
  cases runs with
  | finished finished =>
      rcases interpret_of_accepted isEmpty isSilent finished with ⟨after, alone, isPrinted⟩
      refine .inl ⟨after, alone, ?_⟩
      rw [fileOutcome_of_ok ran, ← isPrinted]
      rfl
  | failed _ goesOn => cases isFatal.symm.trans goesOn
  | ended fails =>
      rcases interpret_of_accepted isEmpty isSilent fails with ⟨after, alone, isPrinted⟩
      refine .inr ⟨_, after, alone, ?_⟩
      rw [fileOutcome_of_exit ran, ← isPrinted]
      rfl
  | tooDeep => simp [ran, reachesLimit] at finishes
  | unfinished => simp [ran, reachesLimit] at finishes

end Outcome

/--
The outcome of a file whose run ends within the limits. Success means that there are no errors in
the file and that its run returns none. Errors in the file are all that is written, and nothing is
run. Otherwise the output is the list of statements, if that is asked for, and what the run prints,
and the error that the run returns is reported.
-/
theorem run_file_faithful (files : Files) (style : Style) (showTrees : Bool) (input : String)
    {path : String} {bytes : List UInt8} {text : List Char} (isFile : files path = some bytes)
    (decodes : Text.Utf8.decode bytes = .ok text) (isFree : path ≠ Session.typedPath)
    (undashed : path.toList.head? ≠ some '-')
    (finishes : reachesLimit
      (runFile files (.start { style := style } path false showTrees .usual)) = false) :
    let source := String.ofList (Text.plainNewlines text)
    let session := Session.start { style := style } path false showTrees .usual
    let reporter := session.reporter.register path source
    let outcome := run files style (if showTrees then ["--ast", path] else [path]) input
    ∃ parsed, parse Limits.usualDepth (scan source).tokens = .ok parsed ∧
      (outcome.status = 0 ↔ (scan source).errors = [] ∧ parsed.errors = [] ∧
        ∃ after, interpret .usual parsed.statements Machine.initial.globals .initial =
          .ok none after) ∧
      (staticErrors source parsed ≠ [] →
        outcome = ⟨1, "", reporter.reports (staticErrors source parsed)⟩ ∧
        ∃ stopped, runFile files session = .error (.exit (some 1)) stopped ∧
          stopped.machine = .initial) ∧
      (staticErrors source parsed = [] →
        (∃ after,
          interpret .usual parsed.statements Machine.initial.globals .initial = .ok none after ∧
          outcome = ⟨0, session.listed parsed.statements ++ after.output, ""⟩) ∨
        ∃ error after,
          interpret .usual parsed.statements Machine.initial.globals .initial =
            .ok (some error) after ∧
          outcome = ⟨1, session.listed parsed.statements ++ after.output,
            reporter.reportText error.diagnostic false⟩) := by
  intro source session reporter outcome
  have readable : SessionStep.readSource files path = .ok source := by
    simp only [SessionStep.readSource, isFile, decodes]
    rfl
  have isOutcome : outcome = fileOutcome (runFile files) session :=
    run_file files style showTrees input undashed
  have isFile : session.path ≠ Session.typedPath := isFree
  rcases runFile_cases isFile readable rfl with ⟨stopped, tooDeep⟩ | ⟨parsed, read, rest⟩
  · rw [tooDeep] at finishes
    contradiction
  refine ⟨parsed, read, ?_⟩
  rcases rest with ⟨faulty, rejected⟩ | ⟨flawless, accepted⟩
  · have reported : outcome = ⟨1, "", reporter.reports (staticErrors source parsed)⟩ := by
      rw [isOutcome, fileOutcome_of_exit rejected]
      exact congrArg (Outcome.mk 1 "") String.empty_append
    refine ⟨?_, fun _ => ⟨reported, _, rejected, rfl⟩, fun flawless => absurd flawless faulty⟩
    have notSound : ¬((scan source).errors = [] ∧ parsed.errors = []) :=
      fun none => faulty (staticErrors_eq_nil_iff.2 none)
    rw [reported, ← and_assoc]
    simp [notSound]
  · have sound := staticErrors_eq_nil_iff.1 flawless
    rcases fileOutcome_of_accepted rfl rfl rfl accepted finishes with
      ⟨after, ran, reported⟩ | ⟨error, after, ran, reported⟩
    · rw [← isOutcome] at reported
      refine ⟨?_, fun faulty => absurd flawless faulty, fun _ => .inl ⟨after, ran, reported⟩⟩
      rw [reported]
      exact iff_of_true rfl ⟨sound.1, sound.2, after, ran⟩
    · rw [← isOutcome] at reported
      refine ⟨?_, fun faulty => absurd flawless faulty, fun _ => .inr ⟨error, after, ran, ?_⟩⟩
      · rw [reported]
        refine iff_of_false (by simp) ?_
        rintro ⟨_, _, after', ran'⟩
        cases ran.symm.trans ran'
      · rw [reported]
        exact congrArg (Outcome.mk 1 _) String.empty_append

/-- A file that prints a text and then reads a variable that is not there. -/
theorem run_file_faithful_undefined :
    let bytes : List UInt8 := [112, 114, 105, 110, 116, 32, 34, 97, 34, 59, 13, 10, 98, 59]
    let source := "print \"a\";\nb;"
    let session := Session.start {} "script" false true .usual
    let outcome := run (fun _ => some bytes) .plain ["--ast", "script"] ""
    outcome = ⟨1, "(print \"a\")\n(; b)\na\n",
      "script:2: runtime error: Undefined variable 'b'.\n  b;\n  ^\n"⟩ ∧
    ∃ parsed, parse Limits.usualDepth (scan source).tokens = .ok parsed ∧
      (outcome.status = 0 ↔ (scan source).errors = [] ∧ parsed.errors = [] ∧
        ∃ after, interpret .usual parsed.statements Machine.initial.globals .initial =
          .ok none after) ∧
      staticErrors source parsed = [] ∧
      ∃ error after,
        interpret .usual parsed.statements Machine.initial.globals .initial =
          .ok (some error) after ∧
        outcome = ⟨1, session.listed parsed.statements ++ after.output,
          (session.reporter.register "script" source).reportText error.diagnostic false⟩ := by
  intro bytes source session outcome
  have decodes : Text.Utf8.decode bytes = .ok
    ['p', 'r', 'i', 'n', 't', ' ', '"', 'a', '"', ';', '\r', '\n', 'b', ';'] := by rfl
  have reported : outcome = ⟨1, "(print \"a\")\n(; b)\na\n",
      "script:2: runtime error: Undefined variable 'b'.\n  b;\n  ^\n"⟩ := by
    decide +kernel
  have faithful := run_file_faithful (fun _ => some bytes) .plain true "" rfl decodes
    (by decide) (by decide) (by decide +kernel : reachesLimit (runFile (fun _ => some bytes)
      (.start {} "script" false true .usual)) = false)
  rcases faithful with ⟨parsed, read, succeeds, faulty, flawless⟩
  -- Something was printed, so the file was run; and it did not succeed.
  have isFlawless : staticErrors source parsed = [] := by
    by_contra isFaulty
    have silent := congrArg Outcome.output (reported.symm.trans (faulty isFaulty).1)
    simp at silent
  refine ⟨reported, parsed, read, succeeds, isFlawless, ?_⟩
  rcases flawless isFlawless with ⟨after, _, succeeded⟩ | failed
  · have isZero := congrArg Outcome.status (reported.symm.trans succeeded)
    simp at isZero
  · exact failed

end Program

end Scriptlet
