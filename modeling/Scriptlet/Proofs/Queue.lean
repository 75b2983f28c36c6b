import Mathlib.Data.List.DropRight
import Mathlib.Data.List.Nodup
import Scriptlet.Proofs.ReturnFree
import Scriptlet.Proofs.Session.Steps
import Scriptlet.Proofs.Turns

/-!
# The queue of a session

A session is served requests to take in a source or to run the queue. A `Ledger` follows every
statement that is taken in, by the number of the request and its place in the source: it is queued
at first, and the next run either executes it or drops it. So no statement is executed twice, and
none that was dropped is executed later.
-/

namespace Scriptlet

namespace Eval

variable {ι : Type}

/-- The statements that are begun when statements with marks are executed in turn. -/
def begun (execute : Stmt → Eval Flow) : List (ι × Stmt) → Machine → List (ι × Stmt)
  | [], _ => []
  | first :: rest, machine =>
    match execute first.2 machine with
    | .ok .next after => first :: begun execute rest after
    -- The statement that stops the others has been begun itself.
    | _ => [first]

variable (execute : Stmt → Eval Flow)

theorem begun_isPrefix (marked : List (ι × Stmt)) (machine : Machine) :
    begun execute marked machine <+: marked := by
  induction marked generalizing machine with
  | nil => exact List.prefix_rfl
  | cons first rest ih =>
      unfold begun
      split
      · exact (List.prefix_cons_inj first).2 (ih _)
      · exact ⟨rest, rfl⟩

/-- What is not begun makes no difference. -/
theorem sequence_begun (marked : List (ι × Stmt)) (machine : Machine) :
    sequence execute ((begun execute marked machine).map Prod.snd) machine =
      sequence execute (marked.map Prod.snd) machine := by
  induction marked generalizing machine with
  | nil => rfl
  | cons first rest ih =>
      cases ran : execute first.2 machine with
      | ok flow after =>
          cases flow with
          | next => simp [begun, ran, sequence, bind_of_ok ran, ih after]
          | returned value => simp [begun, ran, sequence, bind_of_ok ran]
      | error stop after => simp [begun, ran, sequence, bind_of_error ran]

variable {execute}

theorem begun_eq_of_next {marked : List (ι × Stmt)} {machine after : Machine}
    (ran : sequence execute (marked.map Prod.snd) machine = .ok .next after) :
    begun execute marked machine = marked := by
  induction marked generalizing machine with
  | nil => rfl
  | cons first rest ih =>
      rcases bind_eq_ok ran with ⟨flow, between, firstRan, restRan⟩
      cases flow with
      | next => simp [begun, firstRan, ih restRan]
      | returned value => cases restRan

end Eval

/-- The statements that a session begins when it runs statements with marks. -/
def Session.begun {ι : Type} (session : Session) (marked : List (ι × Stmt)) : List (ι × Stmt) :=
  Eval.begun (Stmt.execute session.limits.rounds session.limits.depth) marked
    { session.machine with current := session.machine.globals }

namespace Session

variable {ι : Type} {session : Session} {marked : List (ι × Stmt)}

theorem begun_append_drop (session : Session) (marked : List (ι × Stmt)) :
    session.begun marked ++ marked.drop (session.begun marked).length = marked :=
  List.prefix_iff_eq_append.1 (Eval.begun_isPrefix _ _ _)

theorem interpret_begun :
    interpret session.limits ((session.begun marked).map Prod.snd) session.machine.globals
        session.machine =
      interpret session.limits (marked.map Prod.snd) session.machine.globals session.machine := by
  simp only [Eval.interpret_apply, Eval.within_apply, begun, Eval.sequence_begun]

/-- A run without an error begins all statements, as none of them returns. -/
theorem begun_of_none {after : Machine}
    (free : ∀ statement ∈ marked.map Prod.snd, statement.ReturnFree)
    (ran : interpret session.limits (marked.map Prod.snd) session.machine.globals session.machine =
      .ok none after) :
    session.begun marked = marked := by
  rcases (Eval.interpret_eq_none_iff free).1 ran with ⟨last, executed, _⟩
  exact Eval.begun_eq_of_next executed

end Session

/-- A request to a session. -/
inductive Request where
  | add (source : String)
  | run
  deriving DecidableEq

/-- Serves a request. The answer to a source tells whether it was taken in. -/
def SessionStep.serve : Request → SessionStep (Option Bool)
  | .add source => do return some (← add source)
  | .run => do
    run
    return none

/-- A request that was served. -/
abbrev Served := Turn Request (Option Bool) Session

namespace Served

/-- The statements that a session took in. -/
def accepted (turn : Served) : List Stmt :=
  match turn.input, turn.answer with
  | .add source, some true =>
    match parse turn.before.limits.depth (scan source).tokens with
    | .ok parsed => parsed.statements
    | .error _ => []
  | _, _ => []

/-- What a session that goes on after errors makes of a request. -/
inductive Rightly : Served → Prop
  | accepted {source : String} {before : Session} {parsed : Parsed}
      (read : parse before.limits.depth (scan source).tokens = .ok parsed)
      (flawless : staticErrors source parsed = []) :
      Rightly ⟨.add source, before, some true, before.accepted source parsed.statements⟩
  | rejected {source : String} {before : Session} {parsed : Parsed}
      (read : parse before.limits.depth (scan source).tokens = .ok parsed)
      (faulty : staticErrors source parsed ≠ []) :
      Rightly ⟨.add source, before, some false,
        before.rejected source (staticErrors source parsed)⟩
  | finished {before : Session} {machine : Machine}
      (ran : interpret before.limits before.queue before.machine.globals before.machine =
        .ok none machine) :
      Rightly ⟨.run, before, none, before.ran machine⟩
  | failed {before : Session} {error : RuntimeError} {machine : Machine}
      (ran : interpret before.limits before.queue before.machine.globals before.machine =
        .ok (some error) machine) :
      Rightly ⟨.run, before, none,
        (before.ran machine).raised (before.reporter.reportText error.diagnostic false)⟩

end Served

namespace SessionStep

variable {session : Session}

/-- A request is served rightly, or the session nests too deeply or is not brought to an end. -/
theorem serve_cases (goesOn : session.reporter.fatal = false) (request : Request) :
    (∃ answer after, serve request session = .ok answer after ∧
      Served.Rightly ⟨request, session, answer, after⟩) ∨
    ∃ failure stopped, serve request session = .error failure stopped ∧
      (failure = .tooDeep ∨ failure = .unfinished) := by
  cases request with
  | add source =>
      rcases session.exists_adds source with ⟨result, adds⟩
      have added := adds.eq
      cases adds with
      | unread => exact .inr ⟨_, _, Eval.bind_of_error added, .inl rfl⟩
      | rejected read faulty => exact .inl ⟨_, _, Eval.bind_of_ok added, .rejected read faulty⟩
      | ended _ _ isFatal => simp [goesOn] at isFatal
      | unlisted => exact .inr ⟨_, _, Eval.bind_of_error added, .inl rfl⟩
      | accepted read flawless => exact .inl ⟨_, _, Eval.bind_of_ok added, .accepted read flawless⟩
  | run =>
      rcases session.exists_runs with ⟨result, runs⟩
      have ran := runs.eq
      cases runs with
      | finished finishes => exact .inl ⟨_, _, Eval.bind_of_ok ran, .finished finishes⟩
      | failed fails => exact .inl ⟨_, _, Eval.bind_of_ok ran, .failed fails⟩
      | ended _ isFatal => simp [goesOn] at isFatal
      | tooDeep => exact .inr ⟨_, _, Eval.bind_of_error ran, .inl rfl⟩
      | unfinished => exact .inr ⟨_, _, Eval.bind_of_error ran, .inr rfl⟩

theorem rightly_of_serve {request : Request} {answer : Option Bool} {after : Session}
    (goesOn : session.reporter.fatal = false) (served : serve request session = .ok answer after) :
    Served.Rightly ⟨request, session, answer, after⟩ := by
  rcases serve_cases goesOn request with ⟨_, _, served', rightly⟩ | ⟨_, _, fails, _⟩
  · cases served.symm.trans served'
    exact rightly
  · cases served.symm.trans fails

end SessionStep

/-- A statement that was taken in, marked with the number of its request and its place. -/
abbrev Entry := (Nat × Nat) × Stmt

/-- The entries of statements that were taken in at a request. -/
def entriesOf (number : Nat) (statements : List Stmt) : List Entry :=
  statements.zipIdx.map fun placed => ((number, placed.2), placed.1)

/-- All entries of the statements that were taken in, in order. -/
def acceptedEntries (turns : List Served) : List Entry :=
  turns.zipIdx.flatMap fun numbered => entriesOf numbered.2 numbered.1.accepted

/-- What has become of the statements that were taken in. -/
structure Ledger where
  queued : List Entry := []
  executed : List Entry := []
  dropped : List Entry := []

namespace Ledger

/-- The ledger after a request. A run executes what it begins, and drops the rest. -/
def record (ledger : Ledger) (number : Nat) (turn : Served) : Ledger :=
  match turn.input with
  | .add _ => { ledger with queued := ledger.queued ++ entriesOf number turn.accepted }
  | .run =>
    let begun := turn.before.begun ledger.queued
    { queued := []
      executed := ledger.executed ++ begun
      dropped := ledger.dropped ++ ledger.queued.drop begun.length }

/-- The ledger after requests. -/
def ofTurns (turns : List Served) : Ledger :=
  turns.zipIdx.foldl (fun ledger numbered => ledger.record numbered.2 numbered.1) {}

theorem ofTurns_concat (turns : List Served) (turn : Served) :
    ofTurns (turns ++ [turn]) = (ofTurns turns).record turns.length turn := by
  simp [ofTurns, List.zipIdx_append]

end Ledger

section Entries

variable {number : Nat} {statements : List Stmt} {turns : List Served}

theorem map_snd_entriesOf : (entriesOf number statements).map Prod.snd = statements := by
  rw [entriesOf, List.map_map]
  exact List.zipIdx_map_fst 0 statements

theorem number_of_mem_entriesOf {entry : Entry} (isEntry : entry ∈ entriesOf number statements) :
    entry.1.1 = number := by
  rcases List.mem_map.1 isEntry with ⟨_, _, rfl⟩
  rfl

theorem nodup_entriesOf (number : Nat) (statements : List Stmt) :
    ((entriesOf number statements).map Prod.fst).Nodup := by
  have places : (statements.zipIdx.map Prod.snd).Nodup := by
    rw [List.zipIdx_map_snd]
    exact List.nodup_range'
  have marks : ((entriesOf number statements).map Prod.fst) =
      (statements.zipIdx.map Prod.snd).map (Prod.mk number) := by
    simp only [entriesOf, List.map_map]
    rfl
  rw [marks]
  exact places.map fun _ _ same => (Prod.mk.inj same).2

theorem acceptedEntries_concat (turn : Served) :
    acceptedEntries (turns ++ [turn]) =
      acceptedEntries turns ++ entriesOf turns.length turn.accepted := by
  simp [acceptedEntries, List.zipIdx_append]

theorem number_lt_of_mem_acceptedEntries {entry : Entry}
    (isEntry : entry ∈ acceptedEntries turns) : entry.1.1 < turns.length := by
  rcases List.mem_flatMap.1 isEntry with ⟨numbered, isTurn, isEntry⟩
  rw [number_of_mem_entriesOf isEntry]
  simpa using List.snd_lt_of_mem_zipIdx isTurn

theorem nodup_acceptedEntries (turns : List Served) :
    ((acceptedEntries turns).map Prod.fst).Nodup := by
  induction turns using List.reverseRecOn with
  | nil => simp [acceptedEntries]
  | append_singleton turns turn ih =>
      rw [acceptedEntries_concat, List.map_append, List.nodup_append]
      refine ⟨ih, nodup_entriesOf _ _, ?_⟩
      intro mark isEarlier mark' isLater same
      rcases List.mem_map.1 isEarlier with ⟨entry, isEntry, rfl⟩
      rcases List.mem_map.1 isLater with ⟨entry', isEntry', rfl⟩
      have isLess := number_lt_of_mem_acceptedEntries isEntry
      rw [same, number_of_mem_entriesOf isEntry'] at isLess
      exact absurd isLess (Nat.lt_irrefl _)

end Entries

namespace Served

/-- What a request to take in a source comes to. -/
structure TakesIn (turn : Served) (source : String) (parsed : Parsed) : Prop where
  read : parse turn.before.limits.depth (scan source).tokens = .ok parsed
  answers : turn.answer = some true ↔ (scan source).errors = [] ∧ parsed.errors = []
  accepts : turn.answer = some true →
    turn.after.queue = turn.before.queue ++ parsed.statements ∧
    turn.after.machine = { turn.before.machine with
      output := turn.before.machine.output ++ turn.before.listed parsed.statements } ∧
    turn.after.reporter.written = turn.before.reporter.written
  rejects : turn.answer ≠ some true →
    turn.answer = some false ∧ turn.after.queue = turn.before.queue ∧
    turn.after.machine = turn.before.machine ∧
    turn.after.reporter.written = turn.before.reporter.written ++
      (turn.before.registered source).reporter.reports (staticErrors source parsed)

/--
What a request to run the queue comes to. If statements are marked, what is begun of them has all
the effect that the queue has, and it is all of them if there is no error.
-/
structure RunsQueue (turn : Served) (error : Option RuntimeError) : Prop where
  ran : interpret turn.before.limits turn.before.queue turn.before.machine.globals
    turn.before.machine = .ok error turn.after.machine
  empties : turn.after.queue = []
  reports : turn.after.reporter.written = turn.before.reporter.written ++
    turn.before.reporter.reports (error.toList.map RuntimeError.diagnostic)
  effects : ∀ entries : List Entry, entries.map Prod.snd = turn.before.queue →
    interpret turn.before.limits ((turn.before.begun entries).map Prod.snd)
      turn.before.machine.globals turn.before.machine = .ok error turn.after.machine
  completes : error = none → ∀ entries : List Entry, entries.map Prod.snd = turn.before.queue →
    turn.before.begun entries = entries

namespace Rightly

variable {turn : Served}

theorem takesIn {source : String} (rightly : turn.Rightly) (isAdd : turn.input = .add source) :
    ∃ parsed, turn.TakesIn source parsed := by
  cases rightly with
  | accepted read flawless =>
      cases isAdd
      refine ⟨_, read, ?_, fun _ => ⟨rfl, rfl, rfl⟩, by simp⟩
      simp [staticErrors_eq_nil_iff.1 flawless]
  | rejected read faulty =>
      cases isAdd
      refine ⟨_, read, ?_, by simp, fun _ => ⟨rfl, rfl, rfl, rfl⟩⟩
      simpa using mt staticErrors_eq_nil_iff.2 faulty
  | finished => cases isAdd
  | failed => cases isAdd

theorem runsQueue (rightly : turn.Rightly) (isRun : turn.input = .run)
    (free : ∀ statement ∈ turn.before.queue, statement.ReturnFree) :
    ∃ error, turn.RunsQueue error := by
  cases rightly with
  | accepted => cases isRun
  | rejected => cases isRun
  | finished ran =>
      refine ⟨none, ran, rfl, by simp [Session.ran, Reporter.reports], ?_, ?_⟩
      · intro entries same
        rw [Session.interpret_begun, same]
        exact ran
      · intro _ entries same
        rw [← same] at ran free
        exact Session.begun_of_none free ran
  | failed ran =>
      refine ⟨some _, ran, rfl, ?_, ?_, by simp⟩
      · simp [Session.raised, Session.ran, Reporter.raised, Reporter.reports]
      · intro entries same
        rw [Session.interpret_begun, same]
        exact ran

theorem queue_of_add (rightly : turn.Rightly) (isAdd : turn.input ≠ .run) :
    turn.after.queue = turn.before.queue ++ turn.accepted := by
  cases rightly with
  | accepted read => simp [Served.accepted, read, Session.accepted]
  | rejected => exact (List.append_nil _).symm
  | finished => contradiction
  | failed => contradiction

theorem queue_of_run (rightly : turn.Rightly) (isRun : turn.input = .run) :
    turn.after.queue = [] := by
  cases rightly with
  | accepted => cases isRun
  | rejected => cases isRun
  | finished => rfl
  | failed => rfl

end Rightly

theorem accepted_of_run {turn : Served} (isRun : turn.input = .run) : turn.accepted = [] := by
  simp [accepted, isRun]

end Served

/--
That a ledger accounts for all that was taken in, and for the queue that it has led to. The marks
tell the statements apart, so that each is in one place of the ledger only.
-/
structure Ledger.Accounts (ledger : Ledger) (turns : List Served) (last : Session) : Prop where
  queued : ledger.queued.map Prod.snd = last.queue
  complete : (ledger.executed ++ ledger.dropped ++ ledger.queued).Perm (acceptedEntries turns)
  inOrder : (ledger.executed ++ ledger.queued).Sublist (acceptedEntries turns)

namespace Ledger.Accounts

variable {ledger : Ledger} {turns : List Served}

theorem once {last : Session} (accounts : ledger.Accounts turns last) :
    ((ledger.executed ++ ledger.dropped ++ ledger.queued).map Prod.fst).Nodup :=
  (accounts.complete.map Prod.fst).nodup_iff.2 (nodup_acceptedEntries turns)

theorem record {turn : Served} (accounts : ledger.Accounts turns turn.before)
    (rightly : turn.Rightly) :
    (ledger.record turns.length turn).Accounts (turns ++ [turn]) turn.after := by
  cases isInput : turn.input with
  | add source =>
      have grows := rightly.queue_of_add (by simp [isInput])
      simp only [Ledger.record, isInput]
      constructor
      · simp [grows, accounts.queued, map_snd_entriesOf]
      · rw [acceptedEntries_concat, ← List.append_assoc]
        exact accounts.complete.append_right _
      · rw [acceptedEntries_concat, ← List.append_assoc]
        exact accounts.inOrder.append (List.Sublist.refl _)
  | run =>
      have empties := rightly.queue_of_run isInput
      have same : acceptedEntries (turns ++ [turn]) = acceptedEntries turns := by
        simp [acceptedEntries_concat, Served.accepted_of_run isInput, entriesOf]
      -- What is begun is the front of the queue, and what is dropped is the rest of it.
      have isSplit := turn.before.begun_append_drop ledger.queued
      simp only [Ledger.record, isInput]
      generalize turn.before.begun ledger.queued = begun at isSplit ⊢
      generalize ledger.queued.drop begun.length = rest at isSplit ⊢
      have complete := accounts.complete
      have inOrder := accounts.inOrder
      rw [← isSplit] at complete inOrder
      constructor
      · simp [empties]
      · rw [same]
        refine List.Perm.trans ?_ complete
        simp only [List.append_nil, List.append_assoc]
        exact (List.perm_append_comm_assoc _ _ _).append_left _
      · rw [same, List.append_nil]
        refine List.Sublist.trans ?_ inOrder
        exact (List.Sublist.refl _).append (List.sublist_append_left _ _)

end Ledger.Accounts

/-- That a session goes on after errors, and that what it has queued never returns. -/
def Session.Docile (session : Session) : Prop :=
  session.reporter.fatal = false ∧ ∀ statement ∈ session.queue, statement.ReturnFree

theorem Served.Rightly.docile {turn : Served} (rightly : turn.Rightly)
    (docile : turn.before.Docile) : turn.after.Docile := by
  rcases docile with ⟨goesOn, free⟩
  cases rightly with
  | accepted read flawless =>
      refine ⟨goesOn, fun statement member => ?_⟩
      rcases List.mem_append.1 member with isOld | isNew
      · exact free statement isOld
      · refine parse_returnFree read ?_ statement isNew
        simp [(staticErrors_eq_nil_iff.1 flawless).2]
  | rejected => exact ⟨goesOn, free⟩
  | finished => exact ⟨goesOn, by simp [Session.ran]⟩
  | failed => exact ⟨goesOn, by simp [Session.ran, Session.raised]⟩

section Discipline

variable {session last : Session} {turns : List Served}

theorem served_rightly (docile : session.Docile)
    (takes : Takes SessionStep.serve session turns last) :
    last.Docile ∧ ∀ turn ∈ turns, turn.before.Docile ∧ turn.Rightly := by
  have keeps := takes.keeps docile fun docile served =>
    (SessionStep.rightly_of_serve docile.1 served).docile docile
  refine ⟨keeps.1, fun turn isTurn => ?_⟩
  rcases keeps.2 turn isTurn with ⟨docile, _, served⟩
  exact ⟨docile, SessionStep.rightly_of_serve docile.1 served⟩

/-- The queue holds what was taken in since the last run. -/
theorem queue_eq (docile : session.Docile) (isEmpty : session.queue = [])
    (takes : Takes SessionStep.serve session turns last) :
    last.queue = (turns.rtakeWhile fun turn => turn.input ≠ .run).flatMap Served.accepted := by
  induction takes with
  | nil => simpa using isEmpty
  | @snoc turns before after request answer earlier served ih =>
      have rightly := SessionStep.rightly_of_serve (served_rightly docile earlier).1.1 served
      by_cases isRun : request = .run
      · rw [List.rtakeWhile_concat_neg _ _ _ (by simpa using isRun)]
        exact rightly.queue_of_run isRun
      · rw [List.rtakeWhile_concat_pos _ _ _ (by simpa using isRun), List.flatMap_append, ← ih]
        simpa using rightly.queue_of_add isRun

theorem accounts_of_takes (docile : session.Docile) (isEmpty : session.queue = [])
    (takes : Takes SessionStep.serve session turns last) :
    (Ledger.ofTurns turns).Accounts turns last := by
  induction takes with
  | nil => exact ⟨by simp [Ledger.ofTurns, isEmpty], .refl _, .refl _⟩
  | snoc earlier served ih =>
      have rightly := SessionStep.rightly_of_serve (served_rightly docile earlier).1.1 served
      rw [Ledger.ofTurns_concat]
      exact ih.record rightly

end Discipline

/-- What holds of a session that was served requests. -/
structure Served.Disciplined (turns : List Served) (last : Session) : Prop where
  takesIn : ∀ turn ∈ turns, ∀ source, turn.input = .add source →
    ∃ parsed, turn.TakesIn source parsed
  runsQueue : ∀ turn ∈ turns, turn.input = .run → ∃ error, turn.RunsQueue error
  queue : last.queue =
    (turns.rtakeWhile fun turn => turn.input ≠ .run).flatMap Served.accepted
  ledger : (Ledger.ofTurns turns).Accounts turns last
  once : (((Ledger.ofTurns turns).executed ++ (Ledger.ofTurns turns).dropped ++
    (Ledger.ofTurns turns).queued).map Prod.fst).Nodup

/--
Requests to a session that goes on after errors are served one after the other, unless the session
nests too deeply or cannot be brought to an end. What was served was served with discipline: the
queue holds what was taken in since the last run, and every statement that was taken in is queued,
executed or dropped, and only one of these.
-/
theorem queue_discipline (session : Session) (goesOn : session.reporter.fatal = false)
    (isEmpty : session.queue = []) :
    (∀ requests, (∃ turns last, Takes SessionStep.serve session turns last ∧
        turns.map Turn.input = requests) ∨
      ∃ turns last request rest failure stopped, Takes SessionStep.serve session turns last ∧
        requests = turns.map Turn.input ++ request :: rest ∧
        SessionStep.serve request last = .error failure stopped ∧
        (failure = .tooDeep ∨ failure = .unfinished)) ∧
    ∀ turns last, Takes SessionStep.serve session turns last → Served.Disciplined turns last := by
  have docile : session.Docile := ⟨goesOn, by simp [isEmpty]⟩
  refine ⟨fun requests => ?_, fun turns last takes => ?_⟩
  · rcases exists_takes SessionStep.serve session requests with
      all | ⟨turns, last, request, rest, failure, stopped, takes, isRest, fails⟩
    · exact .inl all
    · refine .inr ⟨turns, last, request, rest, failure, stopped, takes, isRest, fails, ?_⟩
      rcases SessionStep.serve_cases (served_rightly docile takes).1.1 request with
        ⟨_, _, served, _⟩ | ⟨_, _, fails', isLimit⟩
      · cases fails.symm.trans served
      · cases fails.symm.trans fails'
        exact isLimit
  · have rightly := (served_rightly docile takes).2
    have accounts := accounts_of_takes docile isEmpty takes
    exact {
      takesIn := fun turn isTurn source => (rightly turn isTurn).2.takesIn
      runsQueue := fun turn isTurn isRun =>
        (rightly turn isTurn).2.runsQueue isRun (rightly turn isTurn).1.2
      queue := queue_eq docile isEmpty takes
      ledger := accounts
      once := accounts.once }

/--
A session of the shell takes in a source, rejects one, runs into an error at the second of three
statements, and takes in another source.
-/
theorem queue_discipline_failing_run :
    let session := Session.start {} Session.typedPath true false .usual
    (session.reporter.fatal = false ∧ session.queue = []) ∧
      ∃ turns last, ((Takes SessionStep.serve session turns last ∧
          turns.map Turn.input =
            [.add "print 1; print x; print 2;", .add "print ;", .run, .add "print 3;"]) ∧
        turns.map Turn.answer = [some true, some false, none, some true] ∧
        last.machine.output = "1\n" ∧
        last.reporter.written =
          "<in>:1: error at ';': Expect expression.\n  print ;\n        ^\n" ++
            "<in>:1: runtime error: Undefined variable 'x'.\n" ∧
        (Ledger.ofTurns turns).executed.map Prod.fst = [(0, 0), (0, 1)] ∧
        (Ledger.ofTurns turns).dropped.map Prod.fst = [(0, 2)] ∧
        (Ledger.ofTurns turns).queued.map Prod.fst = [(3, 0)]) ∧
      Served.Disciplined turns last := by
  intro session
  refine ⟨⟨rfl, rfl⟩, ?_⟩
  apply Exists.imp fun turns => Exists.imp fun last served =>
    ⟨served, (queue_discipline session rfl rfl).2 turns last served.1.1⟩
  exact exists_takes_of_turnsOn (by decide +kernel)

end Scriptlet
