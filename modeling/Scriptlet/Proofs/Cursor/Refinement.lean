import Scriptlet.Proofs.Cursor
import Scriptlet.Proofs.ParserLaws

/-!
# Cursors and parsers

A cursor comes to the same as a parser that is given the tokens from the cursor on. Where the parser
halts because the tokens have no end mark, the cursor runs off the tokens. On its way to any other
place, a cursor looks up no token before the first one or after that place.
-/

namespace Scriptlet

/-- That a cursor's access is to tokens from the first one up to a position. -/
def Access.Within (limit : Nat) : Access → Prop
  | read index => 0 ≤ index ∧ index ≤ limit
  | move position => position ≤ limit

theorem Access.Within.mono {access : Access} {limit further : Nat} (within : access.Within limit)
    (isFurther : limit ≤ further) : access.Within further := by
  cases access with
  | read index => exact ⟨within.1, Int.le_trans within.2 (Int.ofNat_le.2 isFurther)⟩
  | move position => exact Nat.le_trans within isFurther

namespace Cursor

open Scriptlet.Parser

variable {α β : Type} {tokens : Tokens} {cursor after : Cursor}

section Laws

variable {reader : Reader α} {next : α → Reader β}

theorem bind_of_ok {value : α} (ran : reader.run.run cursor = some (.ok value, after)) :
    (reader >>= next).run.run cursor = (next value).run.run after := by
  rw [ExceptT.run_bind, StateT.run_bind, ran]
  rfl

theorem bind_of_error {abort : Abort} (ran : reader.run.run cursor = some (.error abort, after)) :
    (reader >>= next).run.run cursor = some (.error abort, after) := by
  rw [ExceptT.run_bind, StateT.run_bind, ran]
  rfl

end Laws

/-- That a cursor was moved on, if at all, and some errors were noted down. -/
structure Moved (cursor after : Cursor) (noted : List SyntaxError) : Prop where
  forward : cursor.position ≤ after.position
  errors : after.errors = cursor.errors ++ noted
  functions : after.functions = cursor.functions
  trace : ∃ more, after.trace = cursor.trace ++ more ∧
    ∀ access ∈ more, access.Within after.position

namespace Moved

theorem refl (cursor : Cursor) : Moved cursor cursor [] where
  forward := Nat.le_refl _
  errors := by simp
  functions := rfl
  trace := ⟨[], by simp⟩

theorem noting (cursor : Cursor) (error : SyntaxError) :
    Moved cursor { cursor with errors := cursor.errors ++ [error] } [error] where
  forward := Nat.le_refl _
  errors := rfl
  functions := rfl
  trace := ⟨[], by simp⟩

theorem trans {between : Cursor} {noted later : List SyntaxError}
    (first : Moved cursor between noted) (second : Moved between after later) :
    Moved cursor after (noted ++ later) where
  forward := Nat.le_trans first.forward second.forward
  errors := by rw [second.errors, first.errors, List.append_assoc]
  functions := second.functions.trans first.functions
  trace := by
    rcases first.trace with ⟨before, isBefore, withinBefore⟩
    rcases second.trace with ⟨behind, isBehind, withinBehind⟩
    refine ⟨before ++ behind, by rw [isBehind, isBefore, List.append_assoc], ?_⟩
    intro access isAccess
    rcases List.mem_append.1 isAccess with isEarly | isLate
    · exact (withinBefore access isEarly).mono second.forward
    · exact withinBehind access isLate

end Moved

/-- That a reader gives a value from a place on, and ends at a place, without noting down errors. -/
def Reads (reader : Reader α) (start : Nat) (value : α) (stop : Nat) : Prop :=
  ∀ cursor : Cursor, cursor.position = start → ∃ after,
    reader.run.run cursor = some (.ok value, after) ∧ after.position = stop ∧ Moved cursor after []

/-- That a reader runs off the tokens from a place on. -/
def RunsOff (reader : Reader α) (start : Nat) : Prop :=
  ∀ cursor : Cursor, cursor.position = start →
    ∃ after, reader.run.run cursor = some (.error .outOfRange, after)

namespace Reads

theorem pure (value : α) (position : Nat) : Reads (Pure.pure value) position value position :=
  fun cursor isHere => ⟨cursor, rfl, isHere, .refl cursor⟩

theorem bind {reader : Reader α} {next : α → Reader β} {value : α} {result : β}
    {start between stop : Nat} (first : Reads reader start value between)
    (second : Reads (next value) between result stop) :
    Reads (reader >>= next) start result stop := by
  intro cursor isHere
  rcases first cursor isHere with ⟨middle, ran, isThere, moved⟩
  rcases second middle isThere with ⟨after, ranOn, isEnd, movedOn⟩
  exact ⟨after, (bind_of_ok ran).trans ranOn, isEnd, moved.trans movedOn⟩

end Reads

theorem RunsOff.bind {reader : Reader α} {start : Nat} (runsOff : RunsOff reader start)
    (next : α → Reader β) : RunsOff (reader >>= next) start := by
  intro cursor isHere
  rcases runsOff cursor isHere with ⟨after, ran⟩
  exact ⟨after, bind_of_error ran⟩

section Primitives

variable {position : Nat} {token : Token} {rest : List Token}

theorem lookup_reads {index : Int} (isToken : tokens.token? index = some token)
    (isIndex : 0 ≤ index) (isRead : index ≤ position) :
    Reads (tokens.lookup index) position token position := by
  rintro cursor rfl
  refine ⟨{ cursor with trace := cursor.trace ++ [.read index] }, ?_, rfl, ?_⟩
  · unfold Tokens.lookup
    rw [isToken]
    rfl
  · exact {
      forward := Nat.le_refl _
      errors := by simp
      functions := rfl
      trace := ⟨[.read index], rfl, by simpa [Access.Within] using ⟨isIndex, isRead⟩⟩ }

theorem moveOn_reads (position : Nat) : Reads moveOn position () (position + 1) := by
  rintro cursor rfl
  refine ⟨_, rfl, rfl, ?_⟩
  exact {
    forward := Nat.le_succ _
    errors := by simp
    functions := rfl
    trace := ⟨_, rfl, by simp [Access.Within]⟩ }

theorem previous_reads (isToken : tokens[position]? = some token) :
    Reads tokens.previous (position + 1) token (position + 1) := by
  rintro cursor isHere
  have isIndex : (cursor.position : Int) - 1 = position := by omega
  have isFound : tokens.token? ((cursor.position : Int) - 1) = some token := by
    simpa [isIndex, Tokens.token?] using isToken
  exact lookup_reads isFound (by omega) (by omega) cursor isHere

theorem peek_runsOff (isEmpty : tokens.drop position = []) : RunsOff tokens.peek position := by
  rintro cursor rfl
  have isMissing : tokens.token? cursor.position = none := by
    have isShort := List.drop_eq_nil_iff.1 isEmpty
    simpa [Tokens.token?] using isShort
  refine ⟨{ cursor with trace := cursor.trace ++ [.read cursor.position] }, ?_⟩
  change (tokens.lookup cursor.position).run.run cursor = _
  unfold Tokens.lookup
  rw [isMissing]
  rfl

theorem isAtEnd_runsOff (isEmpty : tokens.drop position = []) :
    RunsOff tokens.isAtEnd position :=
  (peek_runsOff isEmpty).bind _

theorem check_runsOff (isEmpty : tokens.drop position = []) (kind : Token.Kind) :
    RunsOff (tokens.check kind) position :=
  (isAtEnd_runsOff isEmpty).bind _

theorem matches_runsOff (isEmpty : tokens.drop position = []) {kinds : List Token.Kind}
    (isSome : kinds ≠ []) : RunsOff (tokens.matches? kinds) position := by
  cases kinds with
  | nil => exact absurd rfl isSome
  | cons kind kinds => exact (check_runsOff isEmpty kind).bind _

section Next

variable (isNext : tokens.drop position = token :: rest)

include isNext

theorem getElem?_of_drop : tokens[position]? = some token := by
  rw [← List.head?_drop, isNext, List.head?_cons]

theorem peek_reads : Reads tokens.peek position token position := by
  rintro cursor rfl
  have isFound : tokens.token? cursor.position = some token := by
    simpa [Tokens.token?] using getElem?_of_drop isNext
  exact lookup_reads isFound (by omega) (by omega) cursor rfl

theorem isAtEnd_reads : Reads tokens.isAtEnd position (token.kind = .eof) position :=
  (peek_reads isNext).bind (.pure _ position)

theorem check_reads {kind : Token.Kind} (notEnd : kind ≠ .eof) :
    Reads (tokens.check kind) position (token.kind = kind) position := by
  have atEnd := isAtEnd_reads isNext
  by_cases isEnd : token.kind = .eof
  · rw [decide_eq_true isEnd] at atEnd
    rw [decide_eq_false (isEnd ▸ notEnd.symm)]
    exact atEnd.bind (.pure false position)
  · rw [decide_eq_false isEnd] at atEnd
    exact atEnd.bind ((peek_reads isNext).bind (.pure _ position))

theorem advance_reads (goesOn : token.kind ≠ .eof) :
    Reads tokens.advance position token (position + 1) := by
  have atEnd := isAtEnd_reads isNext
  rw [decide_eq_false goesOn] at atEnd
  exact atEnd.bind ((moveOn_reads position).bind (previous_reads (getElem?_of_drop isNext)))

theorem matches_reads_true {kinds : List Token.Kind} (notEnd : .eof ∉ kinds)
    (isKind : token.kind ∈ kinds) : Reads (tokens.matches? kinds) position true (position + 1) := by
  induction kinds with
  | nil => exact absurd isKind List.not_mem_nil
  | cons kind kinds ih =>
      rw [List.mem_cons, not_or] at notEnd
      have checked := check_reads isNext (Ne.symm notEnd.1)
      rw [Tokens.matches?]
      by_cases isFirst : token.kind = kind
      · have advanced := advance_reads isNext fun isEnd => notEnd.1 (isEnd.symm.trans isFirst)
        rw [decide_eq_true isFirst] at checked
        exact checked.bind (advanced.bind (.pure true _))
      · rw [decide_eq_false isFirst] at checked
        exact checked.bind (ih notEnd.2 ((List.mem_cons.1 isKind).resolve_left isFirst))

theorem matches_reads_false {kinds : List Token.Kind} (notEnd : .eof ∉ kinds)
    (isOther : token.kind ∉ kinds) : Reads (tokens.matches? kinds) position false position := by
  induction kinds with
  | nil => exact .pure false position
  | cons kind kinds ih =>
      rw [List.mem_cons, not_or] at notEnd isOther
      have checked := check_reads isNext (Ne.symm notEnd.1)
      rw [decide_eq_false isOther.1] at checked
      rw [Tokens.matches?]
      exact checked.bind (ih notEnd.2 isOther.2)

end Next

end Primitives

/-- That a cursor comes to what a parser says of the tokens from the cursor on. -/
inductive Follows (tokens : Tokens) (cursor : Cursor) :
    Reply α → Option (Except Abort α × Cursor) → Prop
  | done {value : α} {noted : List SyntaxError} {after : Cursor}
      (moved : Moved cursor after noted) :
      Follows tokens cursor (.done value (tokens.drop after.position) noted)
        (some (.ok value, after))
  | failed {error : SyntaxError} {noted : List SyntaxError} {after : Cursor}
      (moved : Moved cursor after noted) :
      Follows tokens cursor (.failed error (tokens.drop after.position) noted)
        (some (.error (.rejected error), after))
  | missingEnd (after : Cursor) :
      Follows tokens cursor (.halted .missingEnd) (some (.error .outOfRange, after))
  | tooDeep (result : Option (Except Abort α × Cursor)) :
      Follows tokens cursor (.halted .tooDeep) result

namespace Follows

theorem lift {between : Cursor} {reply : Reply α} {noted : List SyntaxError}
    {result : Option (Except Abort α × Cursor)} (moved : Moved cursor between noted)
    (follows : Follows tokens between reply result) :
    Follows tokens cursor (reply.noting noted) result := by
  cases follows with
  | done movedOn => exact .done (moved.trans movedOn)
  | failed movedOn => exact .failed (moved.trans movedOn)
  | missingEnd after => exact .missingEnd after
  | tooDeep result => exact .tooDeep result

theorem bind {parser : Parser α} {next : α → Parser β} {reader : Reader α}
    {next' : α → Reader β} {input : List Token}
    (first : Follows tokens cursor (parser input) (reader.run.run cursor))
    (second : ∀ value {after noted}, Moved cursor after noted →
      parser input = .done value (tokens.drop after.position) noted →
      Follows tokens after (next value (tokens.drop after.position))
        ((next' value).run.run after)) :
    Follows tokens cursor ((parser >>= next) input) ((reader >>= next').run.run cursor) := by
  generalize read : parser input = reply at first
  generalize ran : reader.run.run cursor = result at first
  cases first with
  | done moved =>
      rw [bind_of_done read, bind_of_ok ran]
      exact (second _ moved read).lift moved
  | failed moved =>
      rw [bind_of_failed read, bind_of_error ran]
      exact .failed moved
  | missingEnd after =>
      rw [bind_of_halted read, bind_of_error ran]
      exact .missingEnd after
  | tooDeep _ =>
      rw [bind_of_halted read]
      exact .tooDeep _

/-- A parser may be compared with what a reader does after some steps that the parser leaves out. -/
theorem reads_bind {reader : Reader α} {next : α → Reader β} {value : α} {stop : Nat}
    {reply : Reply β} (reads : Reads reader cursor.position value stop)
    (second : ∀ {after}, Moved cursor after [] → after.position = stop →
      Follows tokens after reply ((next value).run.run after)) :
    Follows tokens cursor reply ((reader >>= next).run.run cursor) := by
  rcases reads cursor rfl with ⟨after, ran, isStop, moved⟩
  have follows := (second moved isStop).lift moved
  rw [Reply.noting_nil] at follows
  rw [bind_of_ok ran]
  exact follows

theorem of_reads {reader : Reader α} {value : α} {stop : Nat}
    (reads : Reads reader cursor.position value stop) :
    Follows tokens cursor (.done value (tokens.drop stop) []) (reader.run.run cursor) := by
  rcases reads cursor rfl with ⟨after, ran, rfl, moved⟩
  rw [ran]
  exact .done moved

theorem of_runsOff {reader : Reader α} (runsOff : RunsOff reader cursor.position) :
    Follows tokens cursor (.halted .missingEnd) (reader.run.run cursor) := by
  rcases runsOff cursor rfl with ⟨after, ran⟩
  rw [ran]
  exact .missingEnd after

/-- What is read after a token of some kinds, and what is read where there is no such token. -/
theorem matches_bind {parser : Parser α} {kinds : List Token.Kind} (notEnd : .eof ∉ kinds)
    (isSome : kinds ≠ []) {next : Bool → Reader α} (halts : parser [] = .halted .missingEnd)
    (none : ∀ {after token rest}, Moved cursor after [] → token.kind ∉ kinds →
      tokens.drop after.position = token :: rest →
      Follows tokens after (parser (token :: rest)) ((next false).run.run after))
    (some : ∀ {after token}, Moved cursor after [] → token.kind ∈ kinds →
      after.position = cursor.position + 1 → tokens[cursor.position]? = some token →
      Follows tokens after (parser (token :: tokens.drop after.position))
        ((next true).run.run after)) :
    Follows tokens cursor (parser (tokens.drop cursor.position))
      ((tokens.matches? kinds >>= next).run.run cursor) := by
  cases isNext : tokens.drop cursor.position with
  | nil =>
      rw [halts]
      exact .of_runsOff ((matches_runsOff isNext isSome).bind next)
  | cons token rest =>
      by_cases isKind : token.kind ∈ kinds
      · apply Follows.reads_bind (matches_reads_true isNext notEnd isKind)
        intro after moved isThere
        have isRest : tokens.drop after.position = rest := by
          rw [isThere, ← List.drop_drop, isNext, List.drop_one, List.tail_cons]
        rw [← isRest]
        exact some moved isKind isThere (getElem?_of_drop isNext)
      · apply Follows.reads_bind (matches_reads_false isNext notEnd isKind)
        intro after moved isSame
        exact none moved isKind (isSame ▸ isNext)

end Follows

/-- That a cursor comes to what a parser says, anywhere within the given number of functions. -/
def Refines (tokens : Tokens) (functions : Nat) (parser : Parser α) (reader : Reader α) :
    Prop :=
  ∀ ⦃cursor : Cursor⦄, cursor.functions = functions →
    Follows tokens cursor (parser (tokens.drop cursor.position)) (reader.run.run cursor)

/-- That a cursor that stands right behind a token comes to what a parser says. -/
def RefinesBehind (tokens : Tokens) (functions : Nat) (token : Token) (parser : Parser α)
    (reader : Reader α) : Prop :=
  ∀ ⦃cursor : Cursor⦄ ⦃before : Nat⦄, cursor.functions = functions →
    cursor.position = before + 1 → tokens[before]? = some token →
    Follows tokens cursor (parser (tokens.drop cursor.position)) (reader.run.run cursor)

theorem RefinesBehind.previous {functions : Nat} {token : Token} {parser : Parser α}
    {next : Token → Reader α} (second : RefinesBehind tokens functions token parser (next token)) :
    RefinesBehind tokens functions token parser (tokens.previous >>= next) := by
  intro cursor before isWithin isHere isToken
  have reads := previous_reads isToken
  rw [← isHere] at reads
  apply Follows.reads_bind reads
  intro after moved isSame
  rw [← isSame]
  exact second (moved.functions.trans isWithin) (isSame.trans isHere) isToken

namespace Refines

variable {functions : Nat} {parser : Parser α} {reader : Reader α}

theorem behind (refines : Refines tokens functions parser reader) (token : Token) :
    RefinesBehind tokens functions token parser reader :=
  fun _ _ isWithin _ _ => refines isWithin

theorem halt (reader : Reader α) : Refines tokens functions (halt .tooDeep) reader :=
  fun _ _ => .tooDeep _

theorem pure (value : α) : Refines tokens functions (Pure.pure value) (Pure.pure value) :=
  fun cursor _ => .done (.refl cursor)

theorem bind {next : α → Parser β} {next' : α → Reader β}
    (first : Refines tokens functions parser reader)
    (second : ∀ value, Refines tokens functions (next value) (next' value)) :
    Refines tokens functions (parser >>= next) (reader >>= next') :=
  fun _ isWithin => (first isWithin).bind fun value _ _ moved _ =>
    second value (moved.functions.trans isWithin)

/-- What a reader and a parser do shows where there is a next token, if the reader looks for one. -/
theorem of_next (halts : parser [] = .halted .missingEnd)
    (runsOff : ∀ {position}, tokens.drop position = [] → RunsOff reader position)
    (next : ∀ {cursor token rest}, cursor.functions = functions →
      tokens.drop cursor.position = token :: rest →
      Follows tokens cursor (parser (token :: rest)) (reader.run.run cursor)) :
    Refines tokens functions parser reader := by
  intro cursor isWithin
  cases isNext : tokens.drop cursor.position with
  | nil =>
      rw [halts]
      exact .of_runsOff (runsOff isNext)
  | cons token rest => exact next isWithin isNext

theorem peek : Refines tokens functions Parser.peek tokens.peek := by
  refine of_next rfl peek_runsOff fun {cursor token rest} _ isNext => ?_
  rw [Parser.peek, ← isNext]
  exact .of_reads (peek_reads isNext)

theorem check {kind : Token.Kind} (notEnd : kind ≠ .eof) :
    Refines tokens functions (isNext kind) (tokens.check kind) := by
  refine of_next rfl (fun isEmpty => check_runsOff isEmpty kind)
    fun {cursor token rest} _ isNext => ?_
  change Follows tokens cursor (.done (decide (token.kind = kind)) (token :: rest) []) _
  rw [← isNext]
  exact .of_reads (check_reads isNext notEnd)

theorem record (cause : SyntaxError.Cause) (token : Token) :
    Refines tokens functions (note cause token) (record cause token) :=
  fun cursor _ => .done (.noting cursor ⟨cause, token⟩)

theorem reject (missing : Missing) :
    Refines tokens functions (fail missing : Parser α)
      (tokens.peek >>= fun token => throw (.rejected ⟨.missing missing, token⟩)) := by
  refine of_next rfl (fun isEmpty => (peek_runsOff isEmpty).bind _)
    fun {cursor token rest} _ isNext => ?_
  apply Follows.reads_bind (peek_reads isNext)
  intro after _ isSame
  rw [Parser.fail, ← isNext, ← isSame]
  exact .failed (.refl after)

theorem consume {kind : Token.Kind} (notEnd : kind ≠ .eof) (missing : Missing) :
    Refines tokens functions (expect kind missing) (tokens.consume kind missing) := by
  refine of_next rfl (fun isEmpty => (check_runsOff isEmpty kind).bind _)
    fun {cursor token rest} isWithin isNext => ?_
  apply Follows.reads_bind (check_reads isNext notEnd)
  intro after moved isSame
  rw [← isSame] at isNext
  rw [expect]
  by_cases isKind : token.kind = kind
  · have advanced := advance_reads isNext (isKind ▸ notEnd)
    have isRest : tokens.drop (after.position + 1) = rest := by
      rw [← List.drop_drop, isNext, List.drop_one, List.tail_cons]
    rw [if_pos isKind, decide_eq_true isKind, ← isRest]
    exact .of_reads advanced
  · have rejects : Follows tokens after ((fail missing : Parser Token) _) _ :=
      reject missing (moved.functions.trans isWithin)
    rw [isNext] at rejects
    rw [if_neg isKind, decide_eq_false isKind]
    exact rejects

theorem accept_bind {kinds : List Token.Kind} (notEnd : .eof ∉ kinds) (isSome : kinds ≠ [])
    {next : Option Token → Parser α} {next' : Bool → Reader α}
    (none : Refines tokens functions (next none) (next' false))
    (some : ∀ token, token.kind ∈ kinds →
      RefinesBehind tokens functions token (next (some token)) (next' true)) :
    Refines tokens functions (accept kinds >>= next) (tokens.matches? kinds >>= next') := by
  intro cursor isWithin
  apply Follows.matches_bind notEnd isSome (bind_of_halted rfl)
  · intro after token rest moved isOther isNext
    rw [accept_bind_of_not_mem _ _ isOther, ← isNext]
    exact none (moved.functions.trans isWithin)
  · intro after token moved isKind isThere isToken
    rw [accept_bind_of_mem _ _ isKind]
    exact some token isKind (moved.functions.trans isWithin) isThere isToken

/-- What begins with a token of one of many kinds can be told by asking for some of them first. -/
theorem accept_bind_append {kinds others : List Token.Kind} (notEnd : .eof ∉ kinds)
    (isSome : kinds ≠ []) {next : Option Token → Parser α} {next' : Bool → Reader α}
    (none : Refines tokens functions (accept others >>= next) (next' false))
    (some : ∀ token, token.kind ∈ kinds →
      RefinesBehind tokens functions token (next (some token)) (next' true)) :
    Refines tokens functions (accept (kinds ++ others) >>= next)
      (tokens.matches? kinds >>= next') := by
  intro cursor isWithin
  apply Follows.matches_bind notEnd isSome (bind_of_halted rfl)
  · intro after token rest moved isOther isNext
    have goesOn : (accept (kinds ++ others) >>= next) (token :: rest) =
        (accept others >>= next) (token :: rest) := by
      by_cases isKind : token.kind ∈ others
      · rw [accept_bind_of_mem _ _ isKind, accept_bind_of_mem _ _ (List.mem_append_right _ isKind)]
      · have isNeither : token.kind ∉ kinds ++ others := by simp [isOther, isKind]
        rw [accept_bind_of_not_mem _ _ isKind, accept_bind_of_not_mem _ _ isNeither]
    rw [goesOn, ← isNext]
    exact none (moved.functions.trans isWithin)
  · intro after token moved isKind isThere isToken
    rw [accept_bind_of_mem _ _ (List.mem_append_left _ isKind)]
    exact some token isKind (moved.functions.trans isWithin) isThere isToken

theorem accept_bind_cons {kind : Token.Kind} {others : List Token.Kind} (notEnd : kind ≠ .eof)
    {next : Option Token → Parser α} {next' : Bool → Reader α}
    (none : Refines tokens functions (accept others >>= next) (next' false))
    (some : ∀ token, token.kind = kind →
      RefinesBehind tokens functions token (next (some token)) (next' true)) :
    Refines tokens functions (accept (kind :: others) >>= next)
      (tokens.matches? [kind] >>= next') :=
  accept_bind_append (by simpa using notEnd.symm) (List.cons_ne_nil kind []) none
    fun token isKind => some token (List.mem_singleton.1 isKind)

/-- A loop that reads a token in each round is understood from one round. -/
theorem loop {σ : Type} (loop : List Token → σ → Parser α) (reader : σ → Reader α)
    (halts : ∀ state, loop [] state = Parser.halt .missingEnd)
    (runsOff : ∀ state {position}, tokens.drop position = [] → RunsOff (reader state) position)
    (round : ∀ {round : Token} {rounds : List Token} {cursor : Cursor} (state),
      cursor.functions = functions →
      (∀ {after : Cursor} (state), after.functions = functions →
        cursor.position < after.position →
        Follows tokens after (loop rounds state (tokens.drop after.position))
          ((reader state).run.run after)) →
      Follows tokens cursor (loop (round :: rounds) state (tokens.drop cursor.position))
        ((reader state).run.run cursor))
    (state : σ) :
    Refines tokens functions (bounded fun rounds => loop rounds state) (reader state) := by
  have turns : ∀ rounds {cursor : Cursor} (state), cursor.functions = functions →
      (tokens.drop cursor.position).length ≤ rounds.length →
      Follows tokens cursor (loop rounds state (tokens.drop cursor.position))
        ((reader state).run.run cursor) := by
    intro rounds
    -- The rounds that are left are as many as the tokens, so the loop runs out of both at once.
    induction rounds with
    | nil =>
        intro cursor state _ enough
        rw [halts]
        exact .of_runsOff (runsOff state (List.length_eq_zero_iff.1 (Nat.le_zero.1 enough)))
    | cons first rounds ih =>
        intro cursor state isWithin enough
        apply round state isWithin
        intro after state isWithin forward
        apply ih state isWithin
        rw [List.length_drop] at enough ⊢
        rw [List.length_cons] at enough
        omega
  exact fun cursor isWithin => turns _ state isWithin (Nat.le_refl _)

end Refines

end Cursor

end Scriptlet
