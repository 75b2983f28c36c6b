import Scriptlet.Proofs.Cursor.Expression

/-!
# The cursor follows the grammar of statements

Where a declaration is given up, the cursor is moved on from wherever it stands. If it stands at the
end mark it stays there, but it has come there from a token before: only because a declaration is
never begun at the end mark is there a token before the cursor that can be looked up.
-/

namespace Scriptlet

namespace Cursor

open Scriptlet.Parser

variable {α : Type} {tokens : Tokens} {functions : Nat}

section Skipping

variable {position : Nat}

/-- That a reader moves the cursor to the given rest of the tokens, or runs off without one. -/
inductive Arrives (tokens : Tokens) (reader : Reader Unit) (start : Nat) :
    Option (List Token) → Prop
  | stopped {stop : Nat} (reads : Reads reader start () stop) :
      Arrives tokens reader start (some (tokens.drop stop))
  | off (runsOff : RunsOff reader start) : Arrives tokens reader start none

theorem Arrives.after {reader : Reader α} {next : α → Reader Unit} {value : α} {between : Nat}
    {result : Option (List Token)} (reads : Reads reader position value between)
    (arrives : Arrives tokens (next value) between result) :
    Arrives tokens (reader >>= next) position result := by
  cases arrives with
  | stopped readsOn => exact .stopped (reads.bind readsOn)
  | off runsOff =>
      refine .off fun cursor isHere => ?_
      rcases reads cursor isHere with ⟨middle, ran, isThere, _⟩
      rcases runsOff middle isThere with ⟨after, ranOn⟩
      exact ⟨after, (bind_of_ok ran).trans ranOn⟩

theorem skip_arrives {token : Token} (isToken : tokens[position]? = some token) :
    Arrives tokens tokens.skip (position + 1)
      (skipFrom token.kind (tokens.drop (position + 1))) := by
  -- The induction is on the tokens that are left.
  generalize isRest : tokens.drop (position + 1) = rest
  induction rest generalizing position token with
  | nil =>
      rw [Tokens.skip]
      exact .off ((isAtEnd_runsOff isRest).bind _)
  | cons next rest ih =>
      have stays : Arrives tokens (pure ()) (position + 1) (some (next :: rest)) := by
        rw [← isRest]
        exact .stopped (.pure () _)
      rw [Tokens.skip, skipFrom]
      apply Arrives.after (isAtEnd_reads isRest)
      by_cases isEnd : next.kind = .eof
      · simpa [isEnd] using stays
      simp only [isEnd, decide_false, Bool.false_eq_true, if_false, false_or]
      apply Arrives.after (previous_reads isToken)
      by_cases isSemicolon : token.kind = .semicolon
      · simpa [isSemicolon] using stays
      simp only [isSemicolon, if_false, false_or]
      apply Arrives.after (peek_reads isRest)
      by_cases isStart : next.kind ∈ statementStarts
      · simpa [isStart] using stays
      simp only [isStart, if_false]
      have isLater : tokens.drop (position + 1 + 1) = rest := by
        rw [← List.drop_drop, isRest, List.drop_one, List.tail_cons]
      exact .after (advance_reads isRest isEnd) (ih (getElem?_of_drop isRest) isLater)

theorem synchronize_arrives
    (begun : ∀ {mark rest}, tokens.drop position = mark :: rest → mark.kind = .eof → 0 < position) :
    Arrives tokens tokens.synchronize position (resume? (tokens.drop position)) := by
  cases isRest : tokens.drop position with
  | nil => exact .off (((isAtEnd_runsOff isRest).bind _).bind _)
  | cons next rest =>
      have atEnd := isAtEnd_reads isRest
      rw [resume?]
      by_cases isEnd : next.kind = .eof
      · -- The cursor stays where it is, and looks back at the token before it.
        cases position with
        | zero => exact absurd (begun isRest isEnd) (Nat.lt_irrefl 0)
        | succ before =>
            have isBefore : before < tokens.length := by
              have isShort := congrArg List.length isRest
              rw [List.length_drop, List.length_cons] at isShort
              omega
            have isToken := List.getElem?_eq_getElem isBefore
            have arrives := skip_arrives isToken
            rw [decide_eq_true isEnd] at atEnd
            rw [isRest, skipFrom, if_pos (.inl isEnd)] at arrives
            rw [if_pos isEnd]
            exact .after (atEnd.bind (previous_reads isToken)) arrives
      · have arrives := skip_arrives (getElem?_of_drop isRest)
        rw [← List.drop_drop, isRest, List.drop_one, List.tail_cons] at arrives
        rw [if_neg isEnd]
        exact .after (advance_reads isRest isEnd) arrives

end Skipping

theorem expect_length_lt {kind : Token.Kind} {missing : Missing} {input rest : List Token}
    {token : Token} {noted : List SyntaxError}
    (read : expect kind missing input = .done token rest noted) : rest.length < input.length := by
  cases input with
  | nil => cases read
  | cons first others =>
      rw [expect] at read
      split at read
      · cases read
        exact Nat.lt_succ_self _
      · cases read

section Declarations

variable {cursor after : Cursor}

theorem declaration_of_ok {statement : Stmt}
    (ran : tokens.declared.run.run cursor = some (.ok statement, after)) :
    tokens.declaration.run.run cursor = some (.ok (some statement), after) := by
  change tokens.declaration cursor = _
  rewrite [Tokens.declaration, ran]
  rfl

theorem declaration_of_outOfRange
    (ran : tokens.declared.run.run cursor = some (.error .outOfRange, after)) :
    tokens.declaration.run.run cursor = some (.error .outOfRange, after) := by
  change tokens.declaration cursor = _
  rewrite [Tokens.declaration, ran]
  rfl

theorem declaration_of_rejected {error : SyntaxError} {result : Except Abort Unit} {last : Cursor}
    (ran : tokens.declared.run.run cursor = some (.error (.rejected error), after))
    (skipped : tokens.synchronize.run.run { after with errors := after.errors ++ [error] } =
      some (result, last)) :
    tokens.declaration.run.run cursor = some (result.map fun _ => none, last) := by
  change tokens.declaration cursor = _
  rewrite [Tokens.declaration, ran]
  exact (congrArg (Option.bind · _) skipped).trans rfl

/-- Where a declaration is given up, the error is noted down, and some tokens are skipped. -/
theorem declaration_follows {parser : Parser Stmt}
    (declareds : Refines tokens functions parser tokens.declared)
    (isWithin : cursor.functions = functions) {token : Token} {rest : List Token}
    (isNext : tokens.drop cursor.position = token :: rest) (goesOn : token.kind ≠ .eof) :
    Follows tokens cursor (recovering parser (tokens.drop cursor.position))
      (tokens.declaration.run.run cursor) := by
  have follows := declareds isWithin
  generalize read : parser (tokens.drop cursor.position) = reply at follows
  generalize ran : tokens.declared.run.run cursor = result at follows
  rw [recovering, read]
  cases follows with
  | done moved =>
      rw [declaration_of_ok ran]
      exact .done moved
  | missingEnd after =>
      rw [declaration_of_outOfRange ran]
      exact .missingEnd after
  | tooDeep _ => exact .tooDeep _
  | @failed error noted after moved =>
      -- A declaration does not begin at the end mark, so that the cursor has left the first token.
      have begun : ∀ {mark rest}, tokens.drop after.position = mark :: rest → mark.kind = .eof →
          0 < after.position := by
        intro mark others isMark isEnd
        rcases Nat.eq_zero_or_pos after.position with isFirst | isMoved
        · have isStart : cursor.position = 0 := Nat.le_zero.1 (isFirst ▸ moved.forward)
          rw [isFirst, ← isStart, isNext] at isMark
          cases isMark
          exact absurd isEnd goesOn
        · exact isMoved
      have arrives := synchronize_arrives begun
      dsimp only
      generalize resume? (tokens.drop after.position) = resumed at arrives
      cases arrives with
      | stopped reads =>
          rcases reads { after with errors := after.errors ++ [error] } rfl with
            ⟨last, skipped, rfl, movedOn⟩
          have movedLast := (moved.trans (.noting after error)).trans movedOn
          rw [List.append_nil] at movedLast
          rw [declaration_of_rejected ran skipped]
          exact .done movedLast
      | off runsOff =>
          rcases runsOff { after with errors := after.errors ++ [error] } rfl with ⟨last, skipped⟩
          rw [declaration_of_rejected ran skipped]
          exact .missingEnd last

end Declarations

/-- A body is read one declaration after the other, behind those that were read. -/
theorem statements_refines {stop : Token.Kind} {declaration : Parser (Option Stmt)}
    {stops : Reader Bool} {declaration' : Reader (Option Stmt)}
    {more : List Stmt → Reader (List Stmt)}
    (round : ∀ body, more body = do
      if ← stops then return body
      let next ← declaration'
      more (body ++ next.toList))
    (stopsRead : ∀ {position token rest}, tokens.drop position = token :: rest →
      Reads stops position (token.kind = .eof ∨ token.kind = stop) position)
    (stopsOff : ∀ {position}, tokens.drop position = [] → RunsOff stops position)
    (declarations : ∀ {cursor : Cursor} {token rest}, cursor.functions = functions →
      tokens.drop cursor.position = token :: rest → token.kind ≠ .eof →
      Follows tokens cursor (declaration (tokens.drop cursor.position))
        (declaration'.run.run cursor))
    (shorter : ∀ {token input result rest noted}, token.kind ≠ .eof →
      declaration (token :: input) = .done result rest noted →
      rest.length < (token :: input).length) :
    Refines tokens functions (bounded (statements stop declaration)) (more []) := by
  have turns (body : List Stmt) : Refines tokens functions (bounded fun rounds =>
      statements stop declaration rounds >>= fun others => pure (body ++ others)) (more body) := by
    apply Refines.loop (fun rounds (body : List Stmt) =>
      statements stop declaration rounds >>= fun others => pure (body ++ others)) more fun _ => rfl
    · intro body position isEmpty
      rw [round]
      exact (stopsOff isEmpty).bind _
    · intro _ rounds cursor body isWithin again
      rw [round, statements, bind_assoc]
      cases isNext : tokens.drop cursor.position with
      | nil => exact .of_runsOff ((stopsOff isNext).bind _)
      | cons token rest =>
          apply Follows.reads_bind (stopsRead isNext)
          intro after moved isSame
          rw [← isSame] at isNext
          rw [peek_bind]
          by_cases isLast : token.kind = .eof ∨ token.kind = stop
          · rw [if_pos isLast, decide_eq_true isLast, ← isNext]
            simpa using .done (.refl after)
          · have goesOn : token.kind ≠ .eof := fun isEnd => isLast (.inl isEnd)
            have isWithin := moved.functions.trans isWithin
            rw [if_neg isLast, decide_eq_false isLast, ← isNext, bind_assoc]
            apply (declarations isWithin isNext goesOn).bind
            intro next later _ movedOn read
            rw [isNext] at read
            have isShorter := shorter goesOn read
            rw [← isNext] at isShorter
            have forward := position_lt_of_length_lt isShorter
            have follows := again (body ++ next.toList) (movedOn.functions.trans isWithin)
              (isSame ▸ forward)
            rw [bind_assoc]
            simpa using follows
  simpa using turns []

theorem isClosing_reads {position : Nat} {token : Token} {rest : List Token}
    (isNext : tokens.drop position = token :: rest) :
    Reads tokens.isClosing position (token.kind = .eof ∨ token.kind = .rightBrace) position := by
  have notEnd : Token.Kind.rightBrace ≠ .eof := by decide
  have checked := check_reads isNext notEnd
  by_cases isBrace : token.kind = .rightBrace
  · rw [decide_eq_true isBrace] at checked
    rw [decide_eq_true (.inr isBrace)]
    exact checked.bind (.pure true position)
  · rw [decide_eq_false isBrace] at checked
    simp only [isBrace, or_false]
    exact checked.bind (isAtEnd_reads isNext)

section Clauses

variable (depth functions : Nat)

theorem terminated_refines (missing : Missing) (build : Expr → Stmt) :
    Refines tokens functions (Grammar.terminated depth missing >>= fun value => pure (build value))
      (do
        let value ← tokens.expression
        let _ ← tokens.consume .semicolon missing
        return build value) := by
  simp only [Grammar.terminated, bind_assoc, pure_bind]
  exact (expression_refines depth functions).bind fun value =>
    (Refines.consume (by decide) missing).bind fun _ => .pure (build value)

theorem expressionStatement_refines :
    Refines tokens functions (Grammar.expressionStatement depth) tokens.expressionStatement :=
  terminated_refines depth functions _ _

theorem optional_refines {stop : Token.Kind} (notEnd : stop ≠ .eof) :
    Refines tokens functions (Grammar.optional depth stop) (tokens.optional stop) := by
  apply (Refines.check notEnd).bind
  intro isStop
  cases isStop with
  | true => exact .pure none
  | false => exact (expression_refines depth functions).bind fun value => .pure (some value)

theorem variableDeclaration_refines :
    Refines tokens functions (Grammar.variableDeclaration depth) tokens.variableDeclaration := by
  apply (Refines.consume (by decide) _).bind
  intro name
  rw [Tokens.initialValue, LawfulMonad.bind_assoc]
  apply Refines.accept_bind (by decide) (by decide)
  · simp only [Bool.false_eq_true, if_false, pure_bind]
    exact (Refines.consume (by decide) _).bind fun _ => .pure _
  · intro equals _
    simp only [if_true, LawfulMonad.bind_assoc, pure_bind]
    exact (terminated_refines depth functions _ fun value =>
      .declare name (some value)).behind equals

theorem initializer_refines :
    Refines tokens functions (Grammar.initializer depth) tokens.initializer := by
  apply Refines.accept_bind_cons (by decide)
  · apply Refines.accept_bind (by decide) (by decide)
    · exact (expressionStatement_refines depth functions).bind fun value => .pure (some value)
    · intro token isKind
      simp only [List.mem_singleton.1 isKind]
      exact ((variableDeclaration_refines depth functions).bind fun value =>
        .pure (some value)).behind token
  · intro token isKind
    simp only [isKind]
    exact (Refines.pure none).behind token

theorem returnStatement_refines (keyword : Token) :
    RefinesBehind tokens functions keyword
      (Grammar.returnStatement depth (0 < functions) keyword) tokens.returnStatement := by
  apply RefinesBehind.previous
  apply Refines.behind
  intro cursor isWithin
  have goesOn : Refines tokens functions
      (Grammar.optional depth .semicolon >>= fun value =>
        expect .semicolon .semicolonAfterReturnValue >>= fun _ => pure (Stmt.ret keyword value))
      (tokens.optional .semicolon >>= fun value =>
        tokens.consume .semicolon .semicolonAfterReturnValue >>= fun _ =>
          pure (Stmt.ret keyword value)) :=
    (optional_refines depth functions (by decide)).bind fun value =>
      (Refines.consume (by decide) _).bind fun _ => .pure _
  have got : (get : Reader Cursor).run.run cursor = some (.ok cursor, cursor) := rfl
  rw [bind_of_ok got, isWithin]
  cases functions with
  | zero => exact ((Refines.record _ keyword).bind fun _ => goesOn) isWithin
  | succ outer => exact goesOn isWithin

theorem parameters_refines :
    Refines tokens functions
      (commaList maxParameters .tooManyParameters (expect .identifier .parameterName))
      tokens.parameters :=
  commaList_refines (Tokens.moreParameters.eq_1 tokens) (.consume (by decide) _) expect_length_lt

end Clauses

theorem Moved.leave {cursor after : Cursor} {noted : List SyntaxError}
    (moved : Moved { cursor with functions := cursor.functions + 1 } after noted) :
    Moved cursor { after with functions := after.functions - 1 } noted where
  forward := moved.forward
  errors := moved.errors
  functions := by simp [moved.functions]
  trace := moved.trace

/-- The body of a function is read within one more function. -/
theorem functionBody_refines {parser : Parser (List Stmt)}
    (blocks : Refines tokens (functions + 1) parser tokens.block) :
    Refines tokens functions parser tokens.functionBody := by
  intro cursor isWithin
  have follows : Follows tokens { cursor with functions := cursor.functions + 1 } _ _ :=
    blocks (congrArg (· + 1) isWithin)
  change Follows tokens cursor _ (tokens.functionBody cursor)
  rw [Tokens.functionBody]
  dsimp only at follows ⊢
  generalize parser (tokens.drop cursor.position) = reply at follows ⊢
  generalize tokens.block.run.run _ = result at follows ⊢
  cases follows with
  | done moved => exact .done moved.leave
  | failed moved => exact .failed moved.leave
  | missingEnd after => exact .missingEnd _
  | tooDeep _ => exact .tooDeep _

mutual

theorem declared_refines (depth functions : Nat) :
    Refines tokens functions (Grammar.declared depth (0 < functions)) tokens.declared := by
  rw [Tokens.declared]
  apply Refines.accept_bind_cons (by decide)
  · apply Refines.accept_bind (by decide) (by decide)
    · exact statement_refines depth functions
    · intro token isKind
      simp only [List.mem_singleton.1 isKind, if_true]
      rw [Tokens.function]
      simp only [Grammar.functionHead, bind_assoc, pure_bind]
      apply Refines.behind
      apply (Refines.consume (by decide) _).bind
      intro name
      apply (Refines.consume (by decide) _).bind
      intro _
      apply (parameters_refines functions).bind
      intro parameters
      apply (Refines.consume (by decide) _).bind
      intro _
      apply (Refines.consume (by decide) _).bind
      intro _
      have blocks : Refines tokens (functions + 1) (Grammar.block depth true) tokens.block := by
        simpa using block_refines depth (functions + 1)
      exact (functionBody_refines blocks).bind fun _ => .pure _
  · intro token isKind
    simp only [isKind]
    exact (variableDeclaration_refines depth functions).behind token

theorem declaration_refines (depth functions : Nat) {cursor : Cursor}
    (isWithin : cursor.functions = functions) {token : Token} {rest : List Token}
    (isNext : tokens.drop cursor.position = token :: rest) (goesOn : token.kind ≠ .eof) :
    Follows tokens cursor
      (Grammar.declaration depth (0 < functions) (tokens.drop cursor.position))
      (tokens.declaration.run.run cursor) := by
  match depth with
  | 0 =>
      rw [Grammar.declaration]
      exact .tooDeep _
  | depth + 1 =>
      rw [Grammar.declaration_succ]
      exact declaration_follows (declared_refines depth functions) isWithin isNext goesOn

theorem statement_refines (depth functions : Nat) :
    Refines tokens functions (Grammar.statement depth (0 < functions)) tokens.statement := by
  match depth with
  | 0 =>
      rw [Grammar.statement]
      exact .halt _
  | depth + 1 =>
      have inner := statement_refines depth functions
      rw [Grammar.statement, Tokens.statement]
      apply Refines.accept_bind_cons (by decide)
      swap
      · intro token isKind
        simp only [isKind]
        exact (terminated_refines depth functions _ Stmt.print).behind token
      apply Refines.accept_bind_cons (by decide)
      swap
      · intro token isKind
        simp only [isKind]
        exact ((block_refines depth functions).bind fun body => .pure _).behind token
      apply Refines.accept_bind_cons (by decide)
      swap
      · intro token isKind
        simp only [isKind, if_true, Grammar.condition, bind_assoc, pure_bind]
        rw [Tokens.ifStatement]
        apply Refines.behind
        apply (Refines.consume (by decide) _).bind
        intro _
        apply (expression_refines depth functions).bind
        intro test
        apply (Refines.consume (by decide) _).bind
        intro _
        apply inner.bind
        intro thenBranch
        apply Refines.accept_bind (by decide) (by decide)
        · exact .pure _
        · intro otherwise _
          exact (inner.bind fun elseBranch => .pure _).behind otherwise
      apply Refines.accept_bind_cons (by decide)
      swap
      · intro token isKind
        simp only [isKind, if_true, Grammar.condition, bind_assoc, pure_bind]
        rw [Tokens.whileStatement]
        apply Refines.behind
        apply (Refines.consume (by decide) _).bind
        intro _
        apply (expression_refines depth functions).bind
        intro test
        apply (Refines.consume (by decide) _).bind
        intro _
        exact inner.bind fun body => .pure _
      apply Refines.accept_bind_cons (by decide)
      swap
      · intro token isKind
        simp only [isKind, if_true]
        rw [Tokens.forStatement]
        apply Refines.behind
        apply (Refines.consume (by decide) _).bind
        intro _
        apply (initializer_refines depth functions).bind
        intro first
        apply (optional_refines depth functions (by decide)).bind
        intro test
        apply (Refines.consume (by decide) _).bind
        intro _
        apply (optional_refines depth functions (by decide)).bind
        intro increment
        apply (Refines.consume (by decide) _).bind
        intro _
        exact inner.bind fun body => .pure _
      apply Refines.accept_bind (by decide) (by decide)
        (expressionStatement_refines depth functions)
      intro token isKind
      simp only [List.mem_singleton.1 isKind]
      exact returnStatement_refines depth functions token

theorem block_refines (depth functions : Nat) :
    Refines tokens functions (Grammar.block depth (0 < functions)) tokens.block := by
  match depth with
  | 0 =>
      rw [Grammar.block]
      exact .halt _
  | depth + 1 =>
      rw [Grammar.block, Tokens.block]
      have runsOff {position : Nat} (isEmpty : tokens.drop position = []) :
          RunsOff tokens.isClosing position := (check_runsOff isEmpty .rightBrace).bind _
      have body := statements_refines (Tokens.declarations.eq_1 tokens) isClosing_reads runsOff
        (fun isWithin isNext goesOn => declaration_refines depth functions isWithin isNext goesOn)
        fun goesOn read => Grammar.declaration_length_lt goesOn read
      exact body.bind fun _ => (Refines.consume (by decide) _).bind fun _ => .pure _

end

theorem program_refines (depth : Nat) :
    Refines tokens 0 (Grammar.program depth) (tokens.program []) := by
  refine statements_refines (Tokens.program.eq_1 tokens) (fun isNext => ?_) isAtEnd_runsOff
    (fun isWithin isNext goesOn => declaration_refines depth 0 isWithin isNext goesOn)
    fun goesOn read => Grammar.declaration_length_lt goesOn read
  simpa using isAtEnd_reads isNext

end Cursor

end Scriptlet
