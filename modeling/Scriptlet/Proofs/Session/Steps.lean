import Scriptlet.Proofs.Deepening.Reading
import Scriptlet.Proofs.EvalLaws
import Scriptlet.Session

/-!
# Steps of a session

All that taking in a source and running the queue can come to. A source that is taken in is
rejected with reports of its errors, or queued and perhaps listed (`Session.Adds`). Running the
queue always empties it (`Session.Runs`). A fatal reporter turns a report into the end of the
program, and either step can nest too deeply.
-/

namespace Scriptlet

/-- The errors of a source as they are reported: those of scanning, then those of reading. -/
def staticErrors (source : String) (parsed : Parsed) : List Diagnostic :=
  (scan source).errors.map ScanError.diagnostic ++ parsed.errors.map SyntaxError.diagnostic

theorem staticErrors_eq_nil_iff {source : String} {parsed : Parsed} :
    staticErrors source parsed = [] ↔ (scan source).errors = [] ∧ parsed.errors = [] := by
  simp [staticErrors]

/-- The runtime error of a program is what the program comes to. -/
theorem interpret_ne_error (limits : Limits) (statements : List Stmt) (scope : ScopeId)
    (machine : Machine) {error : RuntimeError} {after : Machine} :
    interpret limits statements scope machine ≠ .error (.error error) after := by
  rw [Eval.interpret_apply]
  unfold Eval.conclude
  split <;> simp_all

namespace Reporter

/-- The reports of errors, one after the other. -/
def reports (reporter : Reporter) (diagnostics : List Diagnostic) : String :=
  String.join (diagnostics.map fun diagnostic => reporter.reportText diagnostic false)

theorem reports_cons (reporter : Reporter) (first : Diagnostic) (rest : List Diagnostic) :
    reporter.reports (first :: rest) =
      reporter.reportText first false ++ reporter.reports rest := by
  simp [reports]

/-- A report is not empty, and it begins with the headline of its error. -/
theorem reportText_headed (reporter : Reporter) (diagnostic : Diagnostic) (isInternal : Bool) :
    reporter.reportText diagnostic isInternal ≠ "" ∧
      (reporter.headline diagnostic isInternal).toList <+:
        (reporter.reportText diagnostic isInternal).toList := by
  constructor
  · simp [reportText, String.append_eq_empty_iff]
  · rw [reportText, String.toList_append, String.toList_append, List.append_assoc]
    exact List.prefix_append ..

/-- There is a report for each error, in order, with the headline of the error before it. -/
theorem reports_headed (reporter : Reporter) (diagnostics : List Diagnostic) :
    ∃ texts, reporter.reports diagnostics = String.join texts ∧
      List.Forall₂ (fun diagnostic text => text ≠ "" ∧
        (reporter.headline diagnostic false).toList <+: text.toList) diagnostics texts := by
  refine ⟨_, rfl, ?_⟩
  rw [List.forall₂_map_right_iff, List.forall₂_same]
  exact fun diagnostic _ => reporter.reportText_headed diagnostic false

theorem reports_report (reporter : Reporter) (first : Diagnostic) (rest : List Diagnostic) :
    (reporter.report first).reports rest = reporter.reports rest :=
  rfl

/-- The reporter after a report. Only a fatal one still knows that there was an error. -/
def raised (reporter : Reporter) (text : String) : Reporter :=
  { reporter with hadError := reporter.fatal, written := reporter.written ++ text }

/-- What a step that reports comes to: a fatal reporter ends the program. -/
def concluded (reporter : Reporter) : EStateM.Result Failure Reporter Unit :=
  if reporter.fatal then .error (.exit (some 1)) reporter else .ok () reporter

end Reporter

namespace Reporting

theorem raise_apply (diagnostic : Diagnostic) (isInternal : Bool) (reporter : Reporter) :
    raise diagnostic isInternal reporter =
      (reporter.raised (reporter.reportText diagnostic isInternal)).concluded := by
  change (raise diagnostic isInternal).run reporter = _
  cases isFatal : reporter.fatal <;>
    simp [raise, Reporter.concluded, Reporter.raised, Reporter.report, isFatal]

theorem raiseAll_apply (diagnostics : List Diagnostic) (reporter : Reporter)
    (nonempty : diagnostics ≠ []) :
    raiseAll diagnostics reporter = (reporter.raised (reporter.reports diagnostics)).concluded := by
  induction diagnostics generalizing reporter with
  | nil => contradiction
  | cons first rest ih =>
      cases rest with
      | nil => simp [raiseAll, raise_apply, Reporter.reports]
      | cons second rest =>
          have later := ih (reporter.report first) (List.cons_ne_nil _ _)
          -- The reports of the rest do not depend on what was reported before.
          have same : (reporter.report first).raised
              ((reporter.report first).reports (second :: rest)) =
              reporter.raised (reporter.reports (first :: second :: rest)) := by
            rw [Reporter.reports_report, Reporter.reports_cons reporter first]
            simp only [Reporter.raised, Reporter.report, String.append_assoc]
          rw [← same, ← later]
          rfl

end Reporting

namespace Session

/-- The session that looks at a source. -/
def registered (session : Session) (source : String) : Session :=
  { session with reporter := session.reporter.register session.path source }

section Registered

variable (session : Session) (source : String)

@[simp]
theorem limits_registered : (session.registered source).limits = session.limits :=
  rfl

@[simp]
theorem showTrees_registered : (session.registered source).showTrees = session.showTrees :=
  rfl

end Registered

/-- The session after a report. -/
def raised (session : Session) (text : String) : Session :=
  { session with reporter := session.reporter.raised text }

/-- What a step that ends with a report comes to: a fatal session ends the program. -/
def concluded (session : Session) : EStateM.Result Failure Session Unit :=
  if session.reporter.fatal then .error (.exit (some 1)) session else .ok () session

theorem concluded_of_fatal {session : Session} (isFatal : session.reporter.fatal = true) :
    session.concluded = .error (.exit (some 1)) session :=
  if_pos isFatal

theorem concluded_of_goesOn {session : Session} (goesOn : session.reporter.fatal = false) :
    session.concluded = .ok () session :=
  if_neg (by simp [goesOn])

/-- The session that has rejected a source with these errors. -/
def rejected (session : Session) (source : String) (errors : List Diagnostic) : Session :=
  (session.registered source).raised ((session.registered source).reporter.reports errors)

@[simp]
theorem fatal_rejected (session : Session) (source : String) (errors : List Diagnostic) :
    (session.rejected source errors).reporter.fatal = session.reporter.fatal :=
  rfl

/-- The text that a session prints when it takes in statements. -/
def listed (session : Session) (statements : List Stmt) : String :=
  if session.showTrees && !statements.isEmpty then listing statements ++ "\n" else ""

/-- The session that has taken in the statements of a source. -/
def accepted (session : Session) (source : String) (statements : List Stmt) : Session :=
  { session.registered source with
    machine :=
      { session.machine with output := session.machine.output ++ session.listed statements }
    queue := session.queue ++ statements }

/-- The session that has run its queue. -/
def ran (session : Session) (machine : Machine) : Session :=
  { session with machine := machine, queue := [] }

/-- What taking in a source comes to. -/
inductive Adds (session : Session) (source : String) : EStateM.Result Failure Session Bool → Prop
  | unread (tooDeep : parse session.limits.depth (scan source).tokens = .error .tooDeep) :
      Adds session source (.error .tooDeep (session.registered source))
  | rejected {parsed : Parsed} (read : parse session.limits.depth (scan source).tokens = .ok parsed)
      (faulty : staticErrors source parsed ≠ []) (goesOn : session.reporter.fatal = false) :
      Adds session source (.ok false (session.rejected source (staticErrors source parsed)))
  | ended {parsed : Parsed} (read : parse session.limits.depth (scan source).tokens = .ok parsed)
      (faulty : staticErrors source parsed ≠ []) (isFatal : session.reporter.fatal = true) :
      Adds session source
        (.error (.exit (some 1)) (session.rejected source (staticErrors source parsed)))
  | unlisted {parsed : Parsed} (read : parse session.limits.depth (scan source).tokens = .ok parsed)
      (flawless : staticErrors source parsed = []) (shows : session.showTrees = true)
      (tooDeep : session.limits.depth < Stmt.greatestNesting parsed.statements) :
      Adds session source (.error .tooDeep (session.registered source))
  | accepted {parsed : Parsed} (read : parse session.limits.depth (scan source).tokens = .ok parsed)
      (flawless : staticErrors source parsed = [])
      (fits : session.showTrees = true →
        Stmt.greatestNesting parsed.statements ≤ session.limits.depth) :
      Adds session source (.ok true (session.accepted source parsed.statements))

/-- What running the queue comes to. -/
inductive Runs (session : Session) : EStateM.Result Failure Session Unit → Prop
  | finished {machine : Machine}
      (finishes : interpret session.limits session.queue session.machine.globals session.machine =
        .ok none machine) :
      Runs session (.ok () (session.ran machine))
  | failed {error : RuntimeError} {machine : Machine}
      (fails : interpret session.limits session.queue session.machine.globals session.machine =
        .ok (some error) machine) (goesOn : session.reporter.fatal = false) :
      Runs session
        (.ok () ((session.ran machine).raised (session.reporter.reportText error.diagnostic false)))
  | ended {error : RuntimeError} {machine : Machine}
      (fails : interpret session.limits session.queue session.machine.globals session.machine =
        .ok (some error) machine) (isFatal : session.reporter.fatal = true) :
      Runs session (.error (.exit (some 1))
        ((session.ran machine).raised (session.reporter.reportText error.diagnostic false)))
  | tooDeep {machine : Machine}
      (stops : interpret session.limits session.queue session.machine.globals session.machine =
        .error .tooDeep machine) :
      Runs session (.error .tooDeep (session.ran machine))
  | unfinished {machine : Machine}
      (stops : interpret session.limits session.queue session.machine.globals session.machine =
        .error .unfinished machine) :
      Runs session (.error .unfinished (session.ran machine))

end Session

namespace SessionStep

variable (session : Session)

theorem list_apply (statements : List Stmt) :
    list statements session =
      if session.limits.depth < Stmt.greatestNesting statements then .error .tooDeep session
      else
        .ok ()
          { session with
            machine :=
              { session.machine with
                output := session.machine.output ++ listing statements ++ "\n" } } := by
  change EStateM.run (list statements) session = _
  by_cases tooDeep : session.limits.depth < Stmt.greatestNesting statements <;>
    simp [list, tooDeep]

theorem reporting_of_concluded {action : Reporting Unit} {text : String}
    (ran : action session.reporter = (session.reporter.raised text).concluded) :
    reporting action session = (session.raised text).concluded := by
  unfold reporting
  rw [ran]
  cases isFatal : session.reporter.fatal <;>
    simp [Reporter.concluded, Reporter.raised, Session.concluded, Session.raised, isFatal]

theorem reporting_raiseAll {errors : List Diagnostic} (faulty : errors ≠ []) :
    reporting (Reporting.raiseAll errors) session =
      (session.raised (session.reporter.reports errors)).concluded :=
  reporting_of_concluded session (Reporting.raiseAll_apply _ _ faulty)

theorem reporting_raise (diagnostic : Diagnostic) :
    reporting (Reporting.raise diagnostic) session =
      (session.raised (session.reporter.reportText diagnostic false)).concluded :=
  reporting_of_concluded session (Reporting.raise_apply _ _ _)

theorem add_of_faulty {source : String} {parsed : Parsed}
    (read : parse session.limits.depth (scan source).tokens = .ok parsed)
    (faulty : staticErrors source parsed ≠ []) :
    add source session =
      if session.reporter.fatal then
        .error (.exit (some 1)) (session.rejected source (staticErrors source parsed))
      else .ok false (session.rejected source (staticErrors source parsed)) := by
  have reported : EStateM.run (reporting (Reporting.raiseAll (staticErrors source parsed)))
      (session.registered source) =
        (session.rejected source (staticErrors source parsed)).concluded :=
    reporting_raiseAll (session.registered source) faulty
  change EStateM.run (add source) session = _
  simp only [add, EStateM.run_bind, EStateM.run_modify, EStateM.run_get, read]
  change EStateM.run
    (if !(staticErrors source parsed).isEmpty then
      reporting (Reporting.raiseAll (staticErrors source parsed)) >>= fun _ => pure false
    else _) (session.registered source) = _
  rw [if_pos (by simpa using faulty), EStateM.run_bind, reported]
  cases isFatal : session.reporter.fatal <;> simp [Session.concluded, isFatal]

theorem add_of_flawless {source : String} {parsed : Parsed}
    (read : parse session.limits.depth (scan source).tokens = .ok parsed)
    (flawless : staticErrors source parsed = []) :
    add source session =
      if session.showTrees ∧ session.limits.depth < Stmt.greatestNesting parsed.statements then
        .error .tooDeep (session.registered source)
      else .ok true (session.accepted source parsed.statements) := by
  have lists : EStateM.run (list parsed.statements) (session.registered source) = _ :=
    list_apply (session.registered source) parsed.statements
  change EStateM.run (add source) session = _
  simp only [add, EStateM.run_bind, EStateM.run_modify, EStateM.run_get, read]
  change EStateM.run (if !(staticErrors source parsed).isEmpty then _ else _)
    (session.registered source) = _
  rw [if_neg (by simp [flawless])]
  simp only [EStateM.run_bind, EStateM.run_get]
  by_cases shown : (session.registered source).showTrees && !parsed.statements.isEmpty
  · have shows : session.showTrees ∧ parsed.statements ≠ [] := by simpa using shown
    rw [if_pos shown, EStateM.run_bind, lists]
    by_cases tooDeep : session.limits.depth < Stmt.greatestNesting parsed.statements
    · simp [shows, tooDeep]
    · have isListed : session.listed parsed.statements = listing parsed.statements ++ "\n" :=
        if_pos shown
      simp only [Session.limits_registered, tooDeep, and_false, if_false,
        EStateM.run_bind, EStateM.run_modify, EStateM.run_pure, Session.accepted, isListed,
        String.append_assoc]
      rfl
  · have hidden : session.showTrees → parsed.statements = [] := by simpa using shown
    have silent : session.listed parsed.statements = "" := if_neg shown
    rw [if_neg shown, if_neg]
    · simp only [EStateM.run_bind, EStateM.run_modify, EStateM.run_pure, Session.accepted, silent,
        String.append_empty]
      rfl
    · rintro ⟨shows, tooDeep⟩
      simp [hidden shows, Stmt.greatestNesting] at tooDeep

theorem run_of_error {error : RuntimeError} {machine : Machine}
    (fails : interpret session.limits session.queue session.machine.globals session.machine =
      .ok (some error) machine) :
    run session = ((session.ran machine).raised
      (session.reporter.reportText error.diagnostic false)).concluded := by
  have reported : run session =
      reporting (Reporting.raise error.diagnostic) (session.ran machine) := by
    change EStateM.run run session = _
    simp only [run, EStateM.run_bind, EStateM.run_get, EStateM.run_set, fails]
    rfl
  exact reported.trans (reporting_raise _ _)

end SessionStep

namespace Session

variable {session : Session} {source : String}

theorem Adds.eq {result : EStateM.Result Failure Session Bool} (adds : session.Adds source result) :
    SessionStep.add source session = result := by
  cases adds with
  | unread tooDeep =>
      change EStateM.run (SessionStep.add source) session = _
      simp only [SessionStep.add, EStateM.run_bind, EStateM.run_modify, EStateM.run_get, tooDeep]
      rfl
  | rejected read faulty goesOn =>
      rw [SessionStep.add_of_faulty session read faulty, if_neg (by simp [goesOn])]
  | ended read faulty isFatal => rw [SessionStep.add_of_faulty session read faulty, if_pos isFatal]
  | unlisted read flawless shows tooDeep =>
      rw [SessionStep.add_of_flawless session read flawless, if_pos ⟨shows, tooDeep⟩]
  | accepted read flawless fits =>
      rw [SessionStep.add_of_flawless session read flawless, if_neg]
      rintro ⟨shows, tooDeep⟩
      exact absurd (fits shows) (Nat.not_le.2 tooDeep)

theorem exists_adds (session : Session) (source : String) :
    ∃ result, session.Adds source result := by
  rcases parse_scan source session.limits.depth.le_refl with tooDeep | ⟨parsed, read, _⟩
  · exact ⟨_, .unread tooDeep⟩
  · by_cases flawless : staticErrors source parsed = []
    · by_cases fits : session.showTrees →
          Stmt.greatestNesting parsed.statements ≤ session.limits.depth
      · exact ⟨_, .accepted read flawless fits⟩
      · have unlisted : session.showTrees ∧ session.limits.depth <
            Stmt.greatestNesting parsed.statements := by simpa using fits
        exact ⟨_, .unlisted read flawless unlisted.1 unlisted.2⟩
    · cases isFatal : session.reporter.fatal with
      | false => exact ⟨_, .rejected read flawless isFatal⟩
      | true => exact ⟨_, .ended read flawless isFatal⟩

theorem Runs.eq {result : EStateM.Result Failure Session Unit} (runs : session.Runs result) :
    SessionStep.run session = result := by
  cases runs with
  | finished finishes =>
      change EStateM.run SessionStep.run session = _
      simp [SessionStep.run, finishes, Session.ran]
  | failed fails goesOn =>
      exact (SessionStep.run_of_error session fails).trans (concluded_of_goesOn goesOn)
  | ended fails isFatal =>
      exact (SessionStep.run_of_error session fails).trans (concluded_of_fatal isFatal)
  | tooDeep stops =>
      change EStateM.run SessionStep.run session = _
      simp [SessionStep.run, stops, Session.ran]
  | unfinished stops =>
      change EStateM.run SessionStep.run session = _
      simp [SessionStep.run, stops, Session.ran]

theorem exists_runs (session : Session) : ∃ result, session.Runs result := by
  cases ran : interpret session.limits session.queue session.machine.globals session.machine with
  | ok outcome machine =>
      cases outcome with
      | none => exact ⟨_, .finished ran⟩
      | some error =>
          cases isFatal : session.reporter.fatal with
          | false => exact ⟨_, .failed ran isFatal⟩
          | true => exact ⟨_, .ended ran isFatal⟩
  | error stop machine =>
      cases stop with
      | error error => exact absurd ran (interpret_ne_error _ _ _ _)
      | tooDeep => exact ⟨_, .tooDeep ran⟩
      | unfinished => exact ⟨_, .unfinished ran⟩

end Session

namespace SessionStep

/-- Takes in a source and runs it, unless there are errors in it. -/
def perform (source : String) : SessionStep Unit := do
  if ← add source then run

variable {session after : Session} {source : String}

theorem perform_of_accepted (added : add source session = .ok true after) :
    perform source session = run after :=
  Eval.bind_of_ok added

theorem perform_of_rejected (added : add source session = .ok false after) :
    perform source session = .ok () after :=
  Eval.bind_of_ok added

theorem perform_of_error {failure : Failure} (added : add source session = .error failure after) :
    perform source session = .error failure after :=
  Eval.bind_of_error added

end SessionStep

end Scriptlet
