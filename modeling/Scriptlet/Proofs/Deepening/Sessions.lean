import Scriptlet.Proofs.Deepening
import Scriptlet.Proofs.Session.Steps

/-!
# Deeper sessions

A source that is taken in and run comes to the same in a session that may nest deeper, unless
reading, listing or running it nests too deeply. In that case the session has printed a beginning
of what the other one prints (`SessionStep.perform_deepened`).
-/

namespace Scriptlet

/-- A session that may nest as deep as `depth`. -/
def Session.deepened (session : Session) (depth : Nat) : Session :=
  { session with limits := { session.limits with depth := depth } }

namespace SessionStep

section Results

variable {α : Type}

/-- The session that a step leaves, whether it succeeds or fails. -/
def final : EStateM.Result Failure Session α → Session
  | .ok _ session => session
  | .error _ session => session

/-- What a step comes to, but for the depth to which the session may nest. -/
def deepenedTo (depth : Nat) :
    EStateM.Result Failure Session α → EStateM.Result Failure Session α
  | .ok value session => .ok value (session.deepened depth)
  | .error failure session => .error failure (session.deepened depth)

theorem machine_deepenedTo (depth : Nat) (result : EStateM.Result Failure Session α) :
    (final (deepenedTo depth result)).machine = (final result).machine := by
  cases result <;> rfl

/-- Whether a step nests too deeply. -/
def isTooDeep : EStateM.Result Failure Session α → Bool
  | .error .tooDeep _ => true
  | _ => false

end Results

variable (source : String) (session : Session)

theorem machine_run :
    (final (run session)).machine =
      Eval.final
        (interpret session.limits session.queue session.machine.globals session.machine) := by
  rcases session.exists_runs with ⟨result, runs⟩
  rw [runs.eq]
  cases runs with
  | finished ran => rw [ran]; rfl
  | failed ran => rw [ran]; rfl
  | ended ran => rw [ran]; rfl
  | tooDeep ran => rw [ran]; rfl
  | unfinished ran => rw [ran]; rfl

theorem run_prints : session.machine.Prints (final (run session)).machine := by
  rw [machine_run]
  exact (interpret_keeps _ _ _ _).2.2

/-- What was printed before a source is taken in and run is still there afterwards. -/
theorem perform_prints : session.machine.Prints (final (perform source session)).machine := by
  rcases session.exists_adds source with ⟨result, adds⟩
  have added := adds.eq
  cases adds with
  | unread =>
      rw [perform_of_error added]
      exact .of_eq rfl
  | rejected =>
      rw [perform_of_rejected added]
      exact .of_eq rfl
  | ended =>
      rw [perform_of_error added]
      exact .of_eq rfl
  | unlisted =>
      rw [perform_of_error added]
      exact .of_eq rfl
  | accepted =>
      rw [perform_of_accepted added]
      exact .trans ⟨_, rfl⟩ (run_prints _)

variable {source session} {deeper : Nat}

theorem adds_deepened {result : EStateM.Result Failure Session Bool}
    (isDeeper : session.limits.depth ≤ deeper) (adds : session.Adds source result) :
    result = .error .tooDeep (session.registered source) ∨
      (session.deepened deeper).Adds source (deepenedTo deeper result) := by
  cases adds with
  | unread => exact .inl rfl
  | unlisted => exact .inl rfl
  | rejected read faulty goesOn =>
      exact .inr (.rejected (parse_of_deeper isDeeper read) faulty goesOn)
  | ended read faulty isFatal =>
      exact .inr (.ended (parse_of_deeper isDeeper read) faulty isFatal)
  | accepted read flawless fits =>
      refine .inr (.accepted (parse_of_deeper isDeeper read) flawless ?_)
      exact fun shows => (fits shows).trans isDeeper

theorem runs_deepened {result : EStateM.Result Failure Session Unit}
    (isDeeper : session.limits.depth ≤ deeper) (runs : session.Runs result) :
    (∃ stopped, result = .error .tooDeep stopped ∧
      stopped.machine.Prints (final (run (session.deepened deeper))).machine) ∨
    (session.deepened deeper).Runs (deepenedTo deeper result) := by
  have prolongs := interpret_prolongs session.limits.rounds isDeeper session.queue
    session.machine.globals
  rcases prolongs.deepens session.machine with ⟨machine, stops⟩ | same
  · refine .inl ⟨_, runs.eq.symm.trans (Session.Runs.tooDeep stops).eq, ?_⟩
    rw [machine_run]
    exact prolongs.begins stops
  · cases runs with
    | finished ran => exact .inr (.finished (same.trans ran))
    | failed ran goesOn => exact .inr (.failed (same.trans ran) goesOn)
    | ended ran isFatal => exact .inr (.ended (same.trans ran) isFatal)
    | tooDeep ran => exact .inr (.tooDeep (same.trans ran))
    | unfinished ran => exact .inr (.unfinished (same.trans ran))

/-- What a source comes to in a session that may nest deeper. -/
theorem perform_deepened (isDeeper : session.limits.depth ≤ deeper) :
    (∃ stopped, perform source session = .error .tooDeep stopped ∧
      stopped.machine.Prints (final (perform source (session.deepened deeper))).machine) ∨
    perform source (session.deepened deeper) = deepenedTo deeper (perform source session) := by
  rcases session.exists_adds source with ⟨result, adds⟩
  rcases adds_deepened isDeeper adds with rfl | deeperAdds
  · refine .inl ⟨_, perform_of_error adds.eq, ?_⟩
    exact perform_prints source (session.deepened deeper)
  · cases result with
    | error failure after =>
        rw [perform_of_error adds.eq, perform_of_error deeperAdds.eq]
        exact .inr rfl
    | ok isAccepted after =>
        cases isAccepted with
        | false =>
            rw [perform_of_rejected adds.eq, perform_of_rejected deeperAdds.eq]
            exact .inr rfl
        | true =>
            have isDeeper : after.limits.depth ≤ deeper := by
              cases adds
              exact isDeeper
            rcases after.exists_runs with ⟨result, runs⟩
            rw [perform_of_accepted adds.eq, perform_of_accepted deeperAdds.eq, runs.eq]
            rcases runs_deepened isDeeper runs with stopped | deeperRuns
            · exact .inl stopped
            · exact .inr deeperRuns.eq

/--
A deeper limit never changes a result. What is read within a limit is read alike within a deeper
one. What is run comes to the same, and leaves the same machine, unless it nests too deeply; it has
then printed a beginning of what is printed within the deeper limit. So it is with all that a
session does with a source.
-/
theorem deeper_limit_keeps_results (source : String) (session : Session)
    (isDeeper : session.limits.depth ≤ deeper) :
    (∀ parsed, parse session.limits.depth (scan source).tokens = .ok parsed →
      parse deeper (scan source).tokens = .ok parsed) ∧
    (∀ statements scope machine,
      (∃ stopped, interpret session.limits statements scope machine = .error .tooDeep stopped ∧
        stopped.Prints (Eval.final
          (interpret (session.deepened deeper).limits statements scope machine))) ∨
      interpret (session.deepened deeper).limits statements scope machine =
        interpret session.limits statements scope machine) ∧
    ((∃ stopped, perform source session = .error .tooDeep stopped ∧
      stopped.machine.Prints (final (perform source (session.deepened deeper))).machine) ∨
    perform source (session.deepened deeper) = deepenedTo deeper (perform source session)) := by
  refine ⟨fun parsed => parse_of_deeper isDeeper, ?_, perform_deepened isDeeper⟩
  intro statements scope machine
  have prolongs := interpret_prolongs session.limits.rounds isDeeper statements scope
  rcases prolongs.deepens machine with ⟨stopped, stops⟩ | same
  · exact .inl ⟨stopped, stops, prolongs.begins stops⟩
  · exact .inr same

/--
A function that calls itself nine times nests too deeply after seven calls, and prints the rest
within a deeper limit. A source that ends within the limit comes to the same.
-/
theorem deeper_limit_keeps_results_print :
    let session := Session.start {} "script" false false (.ofDepth 24)
    let recursive := "fun f(n) \x7b print n; if (n < 9) f(n + 1); \x7d f(1);"
    session.limits.depth ≤ 100 ∧
      (∃ stopped, perform recursive session = .error .tooDeep stopped ∧
        stopped.machine.Prints (final (perform recursive (session.deepened 100))).machine ∧
        stopped.machine.output = "1\n2\n3\n4\n5\n6\n7\n" ∧
        (final (perform recursive (session.deepened 100))).machine.output =
          "1\n2\n3\n4\n5\n6\n7\n8\n9\n") ∧
      (final (perform "print 1; print (2);" session)).machine.output = "1\n2\n" ∧
      perform "print 1; print (2);" (session.deepened 100) =
        deepenedTo 100 (perform "print 1; print (2);" session) := by
  intro session recursive
  have isDeeper : session.limits.depth ≤ 100 := by decide
  have shallow : (final (perform recursive session)).machine.output =
      "1\n2\n3\n4\n5\n6\n7\n" := by
    decide +kernel
  have deep : (final (perform recursive (session.deepened 100))).machine.output =
      "1\n2\n3\n4\n5\n6\n7\n8\n9\n" := by
    decide +kernel
  have ends : isTooDeep (perform "print 1; print (2);" session) = false ∧
      (final (perform "print 1; print (2);" session)).machine.output = "1\n2\n" := by
    decide +kernel
  refine ⟨isDeeper, ?_, ends.2, ?_⟩
  · rcases (deeper_limit_keeps_results recursive session isDeeper).2.2 with
      ⟨stopped, stops, prints⟩ | same
    · rw [stops] at shallow
      exact ⟨stopped, stops, prints, shallow, deep⟩
    · rw [same, machine_deepenedTo, shallow] at deep
      simp at deep
  · rcases (deeper_limit_keeps_results "print 1; print (2);" session isDeeper).2.2 with
      ⟨stopped, stops, _⟩ | same
    · rw [stops] at ends
      simp [isTooDeep] at ends
    · exact same

end SessionStep

end Scriptlet
