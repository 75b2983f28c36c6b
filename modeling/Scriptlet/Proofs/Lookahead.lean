import Scriptlet.Proofs.Soundness.Statement
import Scriptlet.Proofs.Truncation

/-!
# Reading without looking further ahead

A parser never looks further than the next token, and never goes back. Up to the first error at
which something is given up, its reply is therefore settled by the tokens before the error and the
one that the error points at (`Settled`). A rule foresees a language if the tokens before that error
can be completed in the language (`Foresees`): it has not read on in vain.

Both are shown for each way in which parsers are put together. Neither depends on how deeply rules
may nest or how often loops may go round, except that a rule may come to a halt.
-/

namespace Scriptlet

open Scriptlet.Parser

variable {α β : Type}

namespace SyntaxError

/-- Whether something is given up at an error, and not only noted down. -/
def isMajor (error : SyntaxError) : Bool :=
  error.cause ∉ [.invalidTarget, .tooManyParameters, .tooManyArguments, .topLevelReturn]

theorem isMajor_iff {error : SyntaxError} : error.isMajor = true ↔ ¬error.IsMinor := by
  rcases error with ⟨cause, token⟩
  cases cause <;> simp [isMajor, IsMinor]

end SyntaxError

namespace Reply

variable {value : α} {rest : List Token} {noted : List SyntaxError} {error : SyntaxError}
  {reply : Reply α}

def errors : Reply α → List SyntaxError
  | done _ _ noted => noted
  | failed error _ noted => noted ++ [error]
  | halted _ => []

/-- The first error at which something was given up. -/
def major? (reply : Reply α) : Option SyntaxError :=
  reply.errors.find? SyntaxError.isMajor

def IsHalted (reply : Reply α) : Prop :=
  ∃ reason, reply = .halted reason

@[simp]
theorem major?_done : (done value rest noted).major? = noted.find? SyntaxError.isMajor := rfl

@[simp]
theorem major?_failed :
    (failed error rest noted : Reply α).major? = (noted ++ [error]).find? SyntaxError.isMajor := rfl

@[simp]
theorem major?_halted (reason : Halt) : (halted reason : Reply α).major? = none := rfl

/-- An error that was found before is the first one, unless there is no reply at all. -/
theorem major?_noting (isFirst : noted.find? SyntaxError.isMajor = some error) :
    (reply.noting noted).IsHalted ∨ (reply.noting noted).major? = some error := by
  cases reply with
  | done value rest later => exact .inr (by simp [noting, isFirst])
  | failed later rest others => exact .inr (by simp [noting, isFirst])
  | halted reason => exact .inl ⟨reason, rfl⟩

theorem major?_noting_of_none (minor : noted.find? SyntaxError.isMajor = none) :
    (reply.noting noted).major? = reply.major? := by
  cases reply with
  | done value rest later => simp [noting, List.find?_append, minor]
  | failed later rest others => simp [noting, List.find?_append, minor]
  | halted reason => rfl

end Reply

/-- How deeply rules may nest, and how often a loop may go round. -/
structure Bounds where
  depth : Nat
  rounds : List Token

variable {rule rule' : Bounds → Parser α} {bounds bounds' : Bounds} {token : Token}
  {input before rest : List Token} {noted : List SyntaxError} {error : SyntaxError}
  {holds : List Token → Reply α → Prop}

/--
That a rule, within any bounds, replies in a certain way to all tokens that begin with `before` and
go on with the first token of `rest`.
-/
def Settled (rule : Bounds → Parser α) (before rest : List Token)
    (holds : List Token → Reply α → Prop) : Prop :=
  ∀ other, other.head? = rest.head? → ∀ bounds,
    (rule bounds (before ++ other)).IsHalted ∨ holds other (rule bounds (before ++ other))

namespace Settled

theorem reindex (settled : Settled rule before rest holds)
    (same : ∀ bounds tokens,
      (rule' bounds tokens).IsHalted ∨ ∃ bounds', rule' bounds tokens = rule bounds' tokens) :
    Settled rule' before rest holds := by
  intro other sameHead bounds
  rcases same bounds (before ++ other) with halts | ⟨bounds', isSame⟩
  · exact .inl halts
  · rw [isSame]
    exact settled other sameHead bounds'

/-- What a rule does with the first token may depend on this token. -/
theorem of_head (settled : Settled rule before rest holds)
    (begins : (before ++ rest).head? = some token)
    (same : ∀ bounds others, rule' bounds (token :: others) = rule bounds (token :: others)) :
    Settled rule' before rest holds := by
  intro other sameHead bounds
  have begins' : (before ++ other).head? = some token := by
    rw [List.head?_append, sameHead, ← List.head?_append, begins]
  rcases List.head?_eq_some_iff.1 begins' with ⟨others, isOther⟩
  have reply := settled other sameHead bounds
  rw [isOther] at reply ⊢
  rw [same]
  exact reply

theorem of_next (settled : Settled rule before rest holds)
    (same : ∀ bounds others, rule' bounds (token :: others) = rule bounds others) :
    Settled rule' (token :: before) rest holds := by
  intro other sameHead bounds
  rw [List.cons_append, same]
  exact settled other sameHead bounds

theorem bind {next : Bounds → α → Parser β} {holds holds' : List Token → Reply β → Prop}
    {between : List Token} {value : α}
    (first : Settled rule before (between ++ rest) fun other reply =>
      reply = .done value other noted)
    (second : Settled (fun bounds => next bounds value) between rest holds)
    (noting : ∀ other reply, holds other reply → holds' other (reply.noting noted)) :
    Settled (fun bounds => rule bounds >>= next bounds) (before ++ between) rest holds' := by
  intro other sameHead bounds
  have sameHead' : (between ++ other).head? = (between ++ rest).head? := by
    rw [List.head?_append, sameHead, ← List.head?_append]
  simp only [List.append_assoc]
  rcases first (between ++ other) sameHead' bounds with ⟨reason, halts⟩ | read
  · exact .inl ⟨reason, bind_of_halted halts⟩
  · rw [bind_of_done read]
    rcases second other sameHead bounds with ⟨reason, halts⟩ | isSettled
    · exact .inl ⟨reason, congrArg (Reply.noting noted) halts⟩
    · exact .inr (noting other _ isSettled)

/-- What follows an error does not make up for it. -/
theorem bind_broken {next : Bounds → α → Parser β}
    (settled : Settled rule before rest fun _ reply => reply.major? = some error) :
    Settled (fun bounds => rule bounds >>= next bounds) before rest fun _ reply =>
      reply.major? = some error := by
  intro other sameHead bounds
  have isSettled := settled other sameHead bounds
  dsimp only at isSettled ⊢
  cases read : rule bounds (before ++ other) with
  | done value left noted =>
      rw [bind_of_done read]
      simp only [read, Reply.IsHalted, reduceCtorEq, exists_false, false_or] at isSettled
      exact Reply.major?_noting isSettled
  | failed failure left noted =>
      rw [bind_of_failed read]
      simpa [read, Reply.IsHalted] using isSettled
  | halted reason => exact .inl ⟨reason, bind_of_halted read⟩

theorem recovering (settled : Settled rule before rest fun _ reply => reply.major? = some error) :
    Settled (fun bounds => Parser.recovering (rule bounds)) before rest fun _ reply =>
      reply.major? = some error := by
  intro other sameHead bounds
  have isSettled := settled other sameHead bounds
  simp only [Parser.recovering]
  cases read : rule bounds (before ++ other) with
  | done value left noted => simpa [read, Reply.IsHalted] using isSettled
  | failed failure left noted =>
      simp only [read, Reply.IsHalted, reduceCtorEq, exists_false, false_or] at isSettled
      dsimp only
      cases resume? left with
      | some later => exact .inr isSettled
      | none => exact .inl ⟨_, rfl⟩
  | halted reason => exact .inl ⟨reason, rfl⟩

end Settled

instance {kind : Token.Kind} : Inhabited (Terminal [kind]) :=
  ⟨⟨⟨kind, "", .null, 0⟩, List.mem_singleton_self kind⟩⟩

namespace Parser

/-- The first error of a sequence is that of the first parser, or else that of the second. -/
theorem major?_bind {parser : Parser α} {next : α → Parser β}
    (isFirst : ((parser >>= next) input).major? = some error) :
    (parser input).major? = some error ∨
      ∃ value rest noted, parser input = .done value rest noted ∧
        noted.find? SyntaxError.isMajor = none ∧ (next value rest).major? = some error := by
  cases read : parser input with
  | done value rest noted =>
      rw [bind_of_done read] at isFirst
      cases earlier : noted.find? SyntaxError.isMajor with
      | some found =>
          have noting : _ ∨ ((next value rest).noting noted).major? = some found :=
            Reply.major?_noting earlier
          rcases noting with ⟨reason, halts⟩ | isFound
          · simp [halts] at isFirst
          · rw [isFound] at isFirst
            exact .inl (earlier.trans isFirst)
      | none =>
          rw [Reply.major?_noting_of_none earlier] at isFirst
          exact .inr ⟨value, rest, noted, rfl, earlier, isFirst⟩
  | failed failure rest noted =>
      rw [bind_of_failed read] at isFirst
      exact .inl isFirst
  | halted reason =>
      rw [bind_of_halted read] at isFirst
      contradiction

/--
That an error is at the first impossible token: what stands before it can be completed, and the
error is the first one whatever comes after this token.
-/
def BreaksAt (whole : List Token → Prop) (rule : Bounds → Parser α) (input : List Token)
    (error : SyntaxError) : Prop :=
  ∃ before rest, input = before ++ rest ∧ rest.head? = some error.token ∧
    (∃ completion, whole (before ++ completion)) ∧
    Settled rule before rest fun _ reply => reply.major? = some error

/-- That a rule, on an input and within given bounds, foresees a language. -/
structure ForeseesOn (whole : List Token → Prop) (rule : Bounds → Parser α) (bounds : Bounds)
    (input : List Token) : Prop where
  viable : ∃ tokens, whole tokens
  done {value : α} {rest : List Token} {noted : List SyntaxError}
    (read : rule bounds input = .done value rest noted)
    (minor : noted.find? SyntaxError.isMajor = none) :
    ∃ before, input = before ++ rest ∧ whole before ∧
      Settled rule before rest fun other reply => reply = .done value other noted
  broken {error : SyntaxError} (read : (rule bounds input).major? = some error) :
    BreaksAt whole rule input error

variable {whole whole' part : List Token → Prop}

namespace BreaksAt

theorem bind_first {next : Bounds → α → Parser β} (breaks : BreaksAt part rule input error)
    (completes : ∀ {before}, part before → ∃ later, whole (before ++ later)) :
    BreaksAt whole (fun bounds => rule bounds >>= next bounds) input error := by
  rcases breaks with ⟨before, rest, isInput, isError, ⟨completion, isPart⟩, settled⟩
  rcases completes isPart with ⟨later, isWhole⟩
  rw [List.append_assoc] at isWhole
  exact ⟨before, rest, isInput, isError, ⟨_, isWhole⟩, settled.bind_broken⟩

theorem bind_next {next : Bounds → α → Parser β} {value : α}
    (minor : noted.find? SyntaxError.isMajor = none)
    (first : Settled rule before rest fun other reply => reply = .done value other noted)
    (breaks : BreaksAt (fun later => whole (before ++ later)) (fun bounds => next bounds value) rest
      error) :
    BreaksAt whole (fun bounds => rule bounds >>= next bounds) (before ++ rest) error := by
  rcases breaks with ⟨between, left, rfl, isError, ⟨completion, isWhole⟩, settled⟩
  refine ⟨before ++ between, left, by simp, isError, ⟨completion, by simpa using isWhole⟩,
    first.bind settled ?_⟩
  intro other reply isMajor
  rw [Reply.major?_noting_of_none minor, isMajor]

end BreaksAt

namespace ForeseesOn

theorem of_halted (viable : ∃ tokens, whole tokens) {reason : Halt}
    (halts : rule bounds input = .halted reason) : ForeseesOn whole rule bounds input where
  viable := viable
  done read := by simp [halts] at read
  broken read := by simp [halts] at read

theorem mono (foresees : ForeseesOn whole rule bounds input)
    (implies : ∀ tokens, whole tokens → whole' tokens) : ForeseesOn whole' rule bounds input where
  viable := foresees.viable.imp implies
  done read minor := by
    rcases foresees.done read minor with ⟨before, isInput, isWhole, settled⟩
    exact ⟨before, isInput, implies before isWhole, settled⟩
  broken read := by
    rcases foresees.broken read with
      ⟨before, rest, isInput, isError, ⟨completion, isWhole⟩, settled⟩
    exact ⟨before, rest, isInput, isError, ⟨completion, implies _ isWhole⟩, settled⟩

theorem reindex (foresees : ForeseesOn whole rule bounds input)
    (here : rule' bounds' input = rule bounds input)
    (same : ∀ bounds tokens,
      (rule' bounds tokens).IsHalted ∨ ∃ bounds', rule' bounds tokens = rule bounds' tokens) :
    ForeseesOn whole rule' bounds' input where
  viable := foresees.viable
  done read minor := by
    rcases foresees.done (here.symm.trans read) minor with ⟨before, isInput, isWhole, settled⟩
    exact ⟨before, isInput, isWhole, settled.reindex same⟩
  broken read := by
    rw [here] at read
    rcases foresees.broken read with ⟨before, rest, isInput, isError, completes, settled⟩
    exact ⟨before, rest, isInput, isError, completes, settled.reindex same⟩

theorem of_head (foresees : ForeseesOn whole rule bounds (token :: input))
    (same : ∀ bounds others, rule' bounds (token :: others) = rule bounds (token :: others)) :
    ForeseesOn whole rule' bounds (token :: input) where
  viable := foresees.viable
  done read minor := by
    rw [same] at read
    rcases foresees.done read minor with ⟨before, isInput, isWhole, settled⟩
    exact ⟨before, isInput, isWhole, settled.of_head (by rw [← isInput]; rfl) same⟩
  broken read := by
    rw [same] at read
    rcases foresees.broken read with ⟨before, rest, isInput, isError, completes, settled⟩
    exact ⟨before, rest, isInput, isError, completes,
      settled.of_head (by rw [← isInput]; rfl) same⟩

theorem of_next (foresees : ForeseesOn (fun later => whole (token :: later)) rule bounds input)
    (same : ∀ bounds others, rule' bounds (token :: others) = rule bounds others) :
    ForeseesOn whole rule' bounds (token :: input) where
  viable := by
    rcases foresees.viable with ⟨later, isWhole⟩
    exact ⟨_, isWhole⟩
  done read minor := by
    rw [same] at read
    rcases foresees.done read minor with ⟨before, rfl, isWhole, settled⟩
    exact ⟨token :: before, rfl, isWhole, settled.of_next same⟩
  broken read := by
    rw [same] at read
    rcases foresees.broken read with ⟨before, rest, rfl, isError, completes, settled⟩
    exact ⟨token :: before, rest, rfl, isError, completes, settled.of_next same⟩

/-- A rule that fails at the first token has read nothing. -/
theorem of_failed (viable : ∃ tokens, whole tokens) (what : Missing)
    (fails : ∀ bounds others,
      rule bounds (token :: others) = .failed ⟨.missing what, token⟩ (token :: others) []) :
    ForeseesOn whole rule bounds (token :: input) where
  viable := viable
  done read := by simp [fails] at read
  broken read := by
    have isFirst : ∀ bounds others,
        (rule bounds (token :: others)).major? = some ⟨.missing what, token⟩ := by
      intro bounds others
      simp [fails, SyntaxError.isMajor]
    rw [isFirst] at read
    cases read
    refine ⟨[], token :: input, rfl, rfl, viable, ?_⟩
    intro other sameHead bounds
    rcases List.head?_eq_some_iff.1 sameHead with ⟨others, rfl⟩
    exact .inr (isFirst bounds others)

end ForeseesOn

/-- That a rule, within given bounds, foresees a language whatever it reads. -/
def Foresees (whole : List Token → Prop) (rule : Bounds → Parser α) (bounds : Bounds) : Prop :=
  ∀ input, ForeseesOn whole rule bounds input

namespace Foresees

theorem viable (foresees : Foresees whole rule bounds) : ∃ tokens, whole tokens :=
  (foresees []).viable

theorem mono (foresees : Foresees whole rule bounds)
    (implies : ∀ tokens, whole tokens → whole' tokens) : Foresees whole' rule bounds :=
  fun input => (foresees input).mono implies

theorem halt (viable : ∃ tokens, whole tokens) {reason : Halt}
    (halts : rule bounds = Parser.halt reason) : Foresees whole rule bounds :=
  fun input => .of_halted viable (congrFun halts input)

theorem pure (isWhole : whole []) (value : α) :
    Foresees whole (fun _ => Pure.pure value) bounds := by
  intro input
  refine ⟨⟨[], isWhole⟩, fun read _ => ?_, fun read => ?_⟩
  · cases read
    exact ⟨[], rfl, isWhole, fun _ _ _ => .inr rfl⟩
  · simp at read

theorem note {cause : SyntaxError.Cause} (minor : ∀ what, cause ≠ .missing what) (token : Token) :
    Foresees (· = []) (fun _ => Parser.note cause token) bounds := by
  intro input
  refine ⟨⟨[], rfl⟩, fun read _ => ?_, fun read => ?_⟩
  · cases read
    exact ⟨[], rfl, rfl, fun _ _ _ => .inr rfl⟩
  · have isMinor : SyntaxError.IsMinor ⟨cause, token⟩ := minor
    simp [Parser.note, SyntaxError.isMajor_iff, isMinor] at read

/-- What a rule foresees is made of what its parts foresee, the second in the light of the first. -/
theorem bind [Inhabited α] {next : Bounds → α → Parser β} (first : Foresees part rule bounds)
    (second : ∀ value {before}, part before →
      Foresees (fun later => whole (before ++ later)) (fun bounds => next bounds value) bounds) :
    Foresees whole (fun bounds => rule bounds >>= next bounds) bounds := by
  have completes {before : List Token} (isPart : part before) :
      ∃ later, whole (before ++ later) := (second default isPart).viable
  intro input
  refine ⟨?_, fun {value rest noted} read minor => ?_, fun {error} read => ?_⟩
  · rcases first.viable with ⟨before, isPart⟩
    rcases completes isPart with ⟨later, isWhole⟩
    exact ⟨_, isWhole⟩
  · rcases bind_eq_done read with ⟨_, _, noted, _, firstRead, nextRead, rfl⟩
    simp only [List.find?_append, Option.or_eq_none_iff] at minor
    rcases (first input).done firstRead minor.1 with ⟨before, rfl, isPart, settled⟩
    rcases (second _ isPart _).done nextRead minor.2 with ⟨between, rfl, isWhole, settledNext⟩
    refine ⟨before ++ between, by simp, isWhole, settled.bind settledNext ?_⟩
    rintro other _ rfl
    rfl
  · rcases major?_bind read with isFirst | ⟨value, left, noted, firstRead, minor, isNext⟩
    · exact ((first input).broken isFirst).bind_first completes
    · rcases (first input).done firstRead minor with ⟨before, rfl, isPart, settled⟩
      exact ((second value isPart left).broken isNext).bind_next minor settled

theorem peek_bind {next : Bounds → Token → Parser α}
    (after : ∀ token, Foresees whole (fun bounds => next bounds token) bounds) :
    Foresees whole (fun bounds => peek >>= next bounds) bounds := by
  intro input
  cases input with
  | nil => exact .of_halted (after default).viable rfl
  | cons token rest =>
      apply (after token (token :: rest)).of_head
      intro bounds others
      exact Parser.peek_bind (next bounds) token others

theorem isNext_bind {kind : Token.Kind} {next : Bounds → Bool → Parser α}
    (after : ∀ isNext, Foresees whole (fun bounds => next bounds isNext) bounds) :
    Foresees whole (fun bounds => isNext kind >>= next bounds) bounds := by
  intro input
  cases input with
  | nil => exact .of_halted (after true).viable rfl
  | cons token rest =>
      apply (after (token.kind = kind) (token :: rest)).of_head
      intro bounds others
      exact Parser.isNext_bind kind (next bounds) token others

theorem accept_bind {kinds : List Token.Kind} {next : Bounds → Option Token → Parser α}
    (none : Foresees whole (fun bounds => next bounds none) bounds)
    (some : ∀ terminal : Terminal kinds, Foresees (fun later => whole (terminal.token :: later))
      (fun bounds => next bounds (some terminal.token)) bounds) :
    Foresees whole (fun bounds => accept kinds >>= next bounds) bounds := by
  intro input
  cases input with
  | nil => exact .of_halted none.viable rfl
  | cons token rest =>
      by_cases isKind : token.kind ∈ kinds
      · apply (some ⟨token, isKind⟩ rest).of_next
        intro bounds others
        exact accept_bind_of_mem (next bounds) others isKind
      · apply (none (token :: rest)).of_head
        intro bounds others
        exact accept_bind_of_not_mem (next bounds) others isKind

theorem expect_bind {kind : Token.Kind} {missing : Missing} {next : Bounds → Token → Parser α}
    (after : ∀ terminal : Terminal [kind], Foresees (fun later => whole (terminal.token :: later))
      (fun bounds => next bounds terminal.token) bounds) :
    Foresees whole (fun bounds => expect kind missing >>= next bounds) bounds := by
  have viable : ∃ tokens, whole tokens := by
    rcases (after default).viable with ⟨later, isWhole⟩
    exact ⟨_, isWhole⟩
  intro input
  cases input with
  | nil => exact .of_halted viable rfl
  | cons token rest =>
      by_cases isKind : token.kind = kind
      · apply (after ⟨token, by simp [isKind]⟩ rest).of_next
        intro bounds others
        exact Parser.expect_bind missing (next bounds) others isKind
      · apply ForeseesOn.of_failed viable missing
        intro bounds others
        exact bind_of_failed (by simp [expect, isKind])

theorem expect (kind : Token.Kind) (missing : Missing) :
    Foresees (fun tokens => ∃ terminal : Terminal [kind], [terminal.token] = tokens)
      (fun _ => Parser.expect kind missing) bounds := by
  have isExpect : Parser.expect kind missing = Parser.expect kind missing >>= Pure.pure :=
    (bind_pure _).symm
  rw [isExpect]
  apply expect_bind
  intro terminal
  exact pure ⟨terminal, rfl⟩ terminal.token

/-- A rule that may nest more deeply is the same rule, except where it would have come to a halt. -/
theorem deeper (rule : Nat → Parser α) {reason : Halt} (halts : rule 0 = Parser.halt reason)
    {depth : Nat} {rounds : List Token}
    (foresees : Foresees whole (fun bounds => rule (bounds.depth + 1)) ⟨depth, rounds⟩) :
    Foresees whole (fun bounds => rule bounds.depth) ⟨depth + 1, rounds⟩ := by
  intro input
  apply (foresees input).reindex rfl
  rintro ⟨depth, rounds⟩ tokens
  cases depth with
  | zero => exact .inl ⟨reason, congrFun halts tokens⟩
  | succ depth => exact .inr ⟨⟨depth, rounds⟩, rfl⟩

/-- A loop is understood from one round. -/
theorem loop {σ : Type} {whole : σ → List Token → Prop}
    (viable : ∀ state, ∃ tokens, whole state tokens)
    (loop : Nat → List Token → σ → Parser α)
    (halts : ∀ depth state, loop depth [] state = Parser.halt .missingEnd)
    (unmarked : ∀ depth round round' rounds state,
      loop depth (round :: rounds) state = loop depth (round' :: rounds) state)
    {depth : Nat}
    (turn : ∀ {rounds} round,
      (∀ state, Foresees (whole state) (fun bounds => loop bounds.depth bounds.rounds state)
        ⟨depth, rounds⟩) →
      ∀ state, Foresees (whole state)
        (fun bounds => loop bounds.depth (round :: bounds.rounds) state) ⟨depth, rounds⟩)
    (state : σ) (rounds : List Token) :
    Foresees (whole state) (fun bounds => bounded fun rounds => loop bounds.depth rounds state)
      ⟨depth, rounds⟩ := by
  have turns (rounds : List Token) : ∀ state, Foresees (whole state)
      (fun bounds => loop bounds.depth bounds.rounds state) ⟨depth, rounds⟩ := by
    induction rounds with
    | nil => exact fun state => .halt (viable state) (halts depth state)
    | cons round rounds ih =>
        intro state input
        apply (turn round ih state input).reindex rfl
        rintro ⟨depth, rounds⟩ tokens
        cases rounds with
        | nil => exact .inl ⟨_, congrFun (halts depth state) tokens⟩
        | cons other rounds =>
            exact .inr ⟨⟨depth, rounds⟩, congrFun (unmarked depth other round rounds state) tokens⟩
  intro input
  apply (turns input state input).reindex rfl
  intro bounds tokens
  exact .inr ⟨⟨bounds.depth, tokens⟩, rfl⟩

section CommaList

variable {excess : SyntaxError.Cause} (minor : ∀ what, excess ≠ .missing what) (limit : Nat)

include minor

theorem noteExcess (count : Nat) :
    Foresees (· = []) (fun _ => Parser.noteExcess limit excess count) bounds := by
  unfold Parser.noteExcess
  split
  · exact peek_bind fun token => note minor token
  · apply pure
    rfl

variable [Inhabited α] (item : Nat → Parser α) {depth : Nat}
  (items : ∀ rounds, Foresees part (fun bounds => item bounds.depth) ⟨depth, rounds⟩)
  (list : Nat → List Token → Prop) (last : ∀ count {tokens}, part tokens → list count tokens)
  (next : ∀ count {tokens later} (comma : Terminal [.comma]), part tokens →
    list (count + 1) later → list count (tokens ++ comma.token :: later))

include items last next

theorem separated (count : Nat) (rounds : List Token) :
    Foresees (list count)
      (fun bounds => bounded fun rounds =>
        Parser.separated limit excess (item bounds.depth) rounds count) ⟨depth, rounds⟩ := by
  have viable (count : Nat) : ∃ tokens, list count tokens :=
    (items []).viable.imp fun _ => last count
  apply loop viable (fun depth => Parser.separated limit excess (item depth)) (fun _ _ => rfl)
    fun _ _ _ _ _ => rfl
  intro rounds round again count
  simp only [separated_round]
  apply (noteExcess minor limit count).bind
  rintro _ _ rfl
  apply (items rounds).bind
  intro first tokens isPart
  apply accept_bind
  · exact pure (by simpa using last count isPart) _
  · intro comma
    apply (again (count + 1)).bind
    intro others later isList
    exact pure (by simpa using next count comma isPart isList) _

theorem commaList (empty : whole []) (some : ∀ tokens, list 0 tokens → whole tokens)
    (rounds : List Token) :
    Foresees whole (fun bounds => Parser.commaList limit excess (item bounds.depth))
      ⟨depth, rounds⟩ := by
  apply isNext_bind
  intro isClosing
  cases isClosing with
  | true => exact pure empty []
  | false => exact (separated minor limit item items list last next 0 rounds).mono some

end CommaList

theorem recovering (foresees : Foresees whole rule bounds)
    (fails : ∀ {input error rest noted}, rule bounds input = .failed error rest noted →
      error.isMajor = true) :
    Foresees whole (fun bounds => Parser.recovering (rule bounds)) bounds := by
  intro input
  refine ⟨foresees.viable, fun {result rest noted} read minor => ?_, fun {error} read => ?_⟩
  · simp only [Parser.recovering] at read
    cases parsed : rule bounds input with
    | done value left earlier =>
        rw [parsed] at read
        cases read
        rcases (foresees input).done parsed minor with ⟨before, isInput, isWhole, settled⟩
        refine ⟨before, isInput, isWhole, ?_⟩
        intro other sameHead bounds
        rcases settled other sameHead bounds with ⟨reason, halts⟩ | isDone
        · exact .inl ⟨reason, by simp only [Parser.recovering, halts]⟩
        · exact .inr (by simp only [Parser.recovering, isDone])
    | failed error left earlier =>
        rw [parsed] at read
        dsimp only at read
        split at read
        · cases read
          simp [fails parsed] at minor
        · contradiction
    | halted reason =>
        rw [parsed] at read
        contradiction
  · have isBroken : (rule bounds input).major? = some error := by
      simp only [Parser.recovering] at read
      cases parsed : rule bounds input with
      | done value left earlier => simpa [parsed] using read
      | failed failure left earlier =>
          rw [parsed] at read
          dsimp only at read
          split at read
          · exact read
          · contradiction
      | halted reason => simp [parsed] at read
    rcases (foresees input).broken isBroken with
      ⟨before, rest, isInput, isError, completes, settled⟩
    exact ⟨before, rest, isInput, isError, completes, settled.recovering⟩

end Foresees

end Parser

end Scriptlet
