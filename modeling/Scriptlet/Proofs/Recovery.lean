import Scriptlet.Proofs.Sequel

/-!
# Errors up to a semicolon

Whatever stands before a semicolon, if it is not a block or a `for` loop, an error in it is an error
of its own: reading resumes inside of it, or behind the semicolon. Tokens behind the semicolon are
read as if nothing stood before it (`parse_after_semicolon`).

To see this, a parser is compared on two lists that begin with the same line and go on with
different tails. No expression goes over the semicolon that ends the line, and no statement goes
further; only an `else` behind the semicolon would be looked at.
-/

namespace Scriptlet

open Scriptlet.Parser

/-- Tokens that end in their only semicolon, and among which no block or `for` loop begins. -/
inductive Line : List Token → Prop
  | last (semicolon : Terminal [.semicolon]) : Line [semicolon.token]
  | cons {token : Token} {rest : List Token}
      (inside : token.kind ∉ [.semicolon, .eof, .leftBrace, .kwFor]) (isLine : Line rest) :
      Line (token :: rest)

theorem Line.append {tokens : List Token}
    (inside : ∀ token ∈ tokens, token.kind ∉ [.semicolon, .eof, .leftBrace, .kwFor])
    (semicolon : Terminal [.semicolon]) : Line (tokens ++ [semicolon.token]) := by
  induction tokens with
  | nil => exact .last semicolon
  | cons token tokens ih =>
      rw [List.forall_mem_cons] at inside
      exact .cons inside.1 (ih inside.2)

/-- Two tails that may follow a line. -/
structure Tails where
  first : List Token
  second : List Token
  first_ne_nil : first ≠ []
  second_ne_nil : second ≠ []
  first_notElse : Avoids [.kwElse] first
  second_notElse : Avoids [.kwElse] second

variable {α β : Type} {tails : Tails} {between after : List Token → Prop} {line : List Token}

/--
That two replies, on a line and two tails, agree. A value leaves a rest of the line for which
`after` holds, and a failure is one inside of the line.
-/
inductive Reply.Confined (tails : Tails) (after : List Token → Prop) (line : List Token) :
    Reply α → Reply α → Prop
  | done {value : α} {rest : List Token} {noted : List SyntaxError} (isRest : rest <:+ line)
      (isAfter : after rest) :
      Confined tails after line (.done value (rest ++ tails.first) noted)
        (.done value (rest ++ tails.second) noted)
  | failed {error : SyntaxError} {rest : List Token} {noted : List SyntaxError}
      (isRest : rest <:+ line) (isLine : Line rest) :
      Confined tails after line (.failed error (rest ++ tails.first) noted)
        (.failed error (rest ++ tails.second) noted)
  | halted (reason : Halt) : Confined tails after line (.halted reason) (.halted reason)

namespace Reply.Confined

variable {reply reply' : Reply α}

theorem noting (confined : reply.Confined tails after line reply') (noted : List SyntaxError) :
    (reply.noting noted).Confined tails after line (reply'.noting noted) := by
  cases confined with
  | done isRest isAfter => exact .done isRest isAfter
  | failed isRest isLine => exact .failed isRest isLine
  | halted reason => exact .halted reason

/-- What is said of a rest of the line can be said of the line. -/
theorem lift {rest : List Token} (isRest : rest <:+ line)
    (confined : reply.Confined tails after rest reply') :
    reply.Confined tails after line reply' := by
  cases confined with
  | done isLater isAfter => exact .done (isLater.trans isRest) isAfter
  | failed isLater isLine => exact .failed (isLater.trans isRest) isLine
  | halted reason => exact .halted reason

theorem bind {parser parser' : Parser α} {next next' : α → Parser β}
    (first : (parser (line ++ tails.first)).Confined tails between line
      (parser' (line ++ tails.second)))
    (second : ∀ value {rest}, between rest → rest <:+ line →
      (next value (rest ++ tails.first)).Confined tails after rest
        (next' value (rest ++ tails.second))) :
    ((parser >>= next) (line ++ tails.first)).Confined tails after line
      ((parser' >>= next') (line ++ tails.second)) := by
  generalize read : parser (line ++ tails.first) = reply at first
  generalize read' : parser' (line ++ tails.second) = reply' at first
  cases first with
  | done isRest isBetween =>
      rw [bind_of_done read, bind_of_done read']
      exact ((second _ isBetween isRest).lift isRest).noting _
  | failed isRest isLine =>
      rw [bind_of_failed read, bind_of_failed read']
      exact .failed isRest isLine
  | halted reason =>
      rw [bind_of_halted read, bind_of_halted read']
      exact .halted reason

/-- A token that is accepted is not the semicolon, unless semicolons are. -/
theorem accept_bind {kinds : List Token.Kind} (notLast : .semicolon ∉ kinds) (isLine : Line line)
    {next next' : Option Token → Parser α}
    (none : (next none (line ++ tails.first)).Confined tails after line
      (next' none (line ++ tails.second)))
    (some : ∀ {token rest}, token.kind ∈ kinds →
      token.kind ∉ [.semicolon, .eof, .leftBrace, .kwFor] → line = token :: rest → Line rest →
      (next (some token) (rest ++ tails.first)).Confined tails after rest
        (next' (some token) (rest ++ tails.second))) :
    ((accept kinds >>= next) (line ++ tails.first)).Confined tails after line
      ((accept kinds >>= next') (line ++ tails.second)) := by
  cases isLine with
  | last semicolon =>
      have isOther : semicolon.token.kind ∉ kinds := by simpa [semicolon.kind_eq] using notLast
      rw [List.singleton_append, List.singleton_append] at none ⊢
      rw [accept_bind_of_not_mem _ _ isOther, accept_bind_of_not_mem _ _ isOther]
      exact none
  | @cons token rest inside isLine =>
      rw [List.cons_append, List.cons_append] at none ⊢
      by_cases isKind : token.kind ∈ kinds
      · rw [accept_bind_of_mem _ _ isKind, accept_bind_of_mem _ _ isKind]
        exact (some isKind inside rfl isLine).lift (List.suffix_cons token rest)
      · rw [accept_bind_of_not_mem _ _ isKind, accept_bind_of_not_mem _ _ isKind]
        exact none

end Reply.Confined

namespace Parser

/-- That a parser agrees with itself on lines with two tails. -/
def Confined (tails : Tails) (after : List Token → Prop) (parser : Parser α) : Prop :=
  ∀ ⦃line : List Token⦄, Line line →
    (parser (line ++ tails.first)).Confined tails after line (parser (line ++ tails.second))

namespace Confined

variable {parser : Parser α}

theorem bind {next : α → Parser β} (first : Confined tails Line parser)
    (second : ∀ value, Confined tails after (next value)) :
    Confined tails after (parser >>= next) :=
  fun _ isLine => (first isLine).bind fun value _ isRest _ => second value isRest

/-- At the end of a line, only an `else` makes a difference. -/
theorem bind_last {next : α → Parser β} (first : Confined tails (· = []) parser)
    (second : ∀ value, ∃ result, ∀ tail, Avoids [.kwElse] tail →
      next value tail = .done result tail []) :
    Confined tails (· = []) (parser >>= next) := by
  intro line isLine
  apply (first isLine).bind
  rintro value rest rfl _
  rcases second value with ⟨result, same⟩
  rw [List.nil_append, List.nil_append, same _ tails.first_notElse, same _ tails.second_notElse]
  exact .done (List.suffix_refl []) rfl

/-- What comes after a parser that never succeeds on a line makes no difference. -/
theorem bind_never {next : α → Parser β} (first : Confined tails (fun _ => False) parser) :
    Confined tails after (parser >>= next) :=
  fun _ isLine => (first isLine).bind fun _ _ never => never.elim

theorem accept_bind {kinds : List Token.Kind} (notLast : .semicolon ∉ kinds)
    {next : Option Token → Parser α} (none : Confined tails after (next none))
    (some : ∀ token, token.kind ∈ kinds → token.kind ∉ [.semicolon, .eof, .leftBrace, .kwFor] →
      Confined tails after (next (some token))) :
    Confined tails after (accept kinds >>= next) :=
  fun _ isLine => .accept_bind notLast isLine (none isLine) fun isKind inside _ isRest =>
    some _ isKind inside isRest

theorem pure (value : α) : Confined tails Line (Pure.pure value) :=
  fun _ isLine => .done List.suffix_rfl isLine

theorem halt (reason : Halt) : Confined tails after (Parser.halt reason : Parser α) :=
  fun _ _ => .halted reason

theorem note (cause : SyntaxError.Cause) (token : Token) :
    Confined tails Line (Parser.note cause token) :=
  fun _ isLine => .done List.suffix_rfl isLine

theorem peek : Confined tails Line Parser.peek := by
  intro line isLine
  cases isLine with
  | last semicolon => exact .done List.suffix_rfl (.last semicolon)
  | cons inside isLine => exact .done List.suffix_rfl (.cons inside isLine)

theorem isNext (kind : Token.Kind) : Confined tails Line (Parser.isNext kind) :=
  peek.bind fun _ => pure _

theorem mono (confined : Confined tails between parser)
    (implied : ∀ {rest}, between rest → after rest) : Confined tails after parser := by
  intro line isLine
  have replies := confined isLine
  generalize parser (line ++ tails.first) = reply at replies
  generalize parser (line ++ tails.second) = reply' at replies
  cases replies with
  | done isRest isBetween => exact .done isRest (implied isBetween)
  | failed isRest isLine => exact .failed isRest isLine
  | halted reason => exact .halted reason

/-- A token that is found before the semicolon is one of those that can stand there. -/
theorem expect_inside {kind : Token.Kind} (notLast : kind ≠ .semicolon) (missing : Missing) :
    Confined tails (fun rest => Line rest ∧ kind ∉ [.semicolon, .eof, .leftBrace, .kwFor])
      (Parser.expect kind missing) := by
  intro line isLine
  cases isLine with
  | last semicolon =>
      have isOther : ¬semicolon.token.kind = kind := by simpa [semicolon.kind_eq] using notLast.symm
      simp only [List.singleton_append, Parser.expect, if_neg isOther]
      exact .failed (List.suffix_refl [_]) (.last semicolon)
  | @cons token rest inside isLine =>
      simp only [List.cons_append, Parser.expect]
      split
      · rename_i isKind
        exact .done (List.suffix_cons token rest) ⟨isLine, isKind ▸ inside⟩
      · exact .failed (List.suffix_refl (token :: rest)) (.cons inside isLine)

theorem expect {kind : Token.Kind} (notLast : kind ≠ .semicolon) (missing : Missing) :
    Confined tails Line (Parser.expect kind missing) :=
  (expect_inside notLast missing).mono And.left

theorem expect_leftBrace (missing : Missing) :
    Confined tails (fun _ => False) (Parser.expect .leftBrace missing) :=
  (expect_inside (by decide) missing).mono fun inside => inside.2 (by decide)

theorem expect_semicolon (missing : Missing) :
    Confined tails (· = []) (Parser.expect .semicolon missing) := by
  intro line isLine
  cases isLine with
  | last semicolon =>
      simp only [List.singleton_append, Parser.expect, if_pos semicolon.kind_eq]
      exact .done List.nil_suffix rfl
  | @cons token rest inside isLine =>
      have isOther : ¬token.kind = .semicolon := fun isKind => inside (by simp [isKind])
      simp only [List.cons_append, Parser.expect, if_neg isOther]
      exact .failed (List.suffix_refl (token :: rest)) (.cons inside isLine)

/-- A loop that reads a token in each round has rounds enough to get to the end of the line. -/
theorem loop {σ : Type} (loop : List Token → σ → Parser α)
    (round : ∀ {round round' : Token} {rounds rounds' line : List Token} (state), Line line →
      (∀ {rest : List Token} (state), Line rest → rest <:+ line → rest.length < line.length →
        (loop rounds state (rest ++ tails.first)).Confined tails after rest
          (loop rounds' state (rest ++ tails.second))) →
      (loop (round :: rounds) state (line ++ tails.first)).Confined tails after line
        (loop (round' :: rounds') state (line ++ tails.second)))
    (state : σ) : Confined tails after (bounded fun rounds => loop rounds state) := by
  have turns : ∀ rounds rounds' {line} state, Line line → line.length ≤ rounds.length →
      line.length ≤ rounds'.length →
      (loop rounds state (line ++ tails.first)).Confined tails after line
        (loop rounds' state (line ++ tails.second)) := by
    intro rounds
    induction rounds with
    | nil =>
        intro rounds' line state isLine enough
        cases isLine <;> simp at enough
    | cons first rounds ih =>
        intro rounds' line state isLine enough enough'
        cases rounds' with
        | nil => cases isLine <;> simp at enough'
        | cons first' rounds' =>
            apply round state isLine
            intro rest state isLine isRest shorter
            simp only [List.length_cons] at enough enough'
            exact ih rounds' state isLine (by omega) (by omega)
  intro line isLine
  exact turns _ _ state isLine (by simp) (by simp)

theorem operations {operators : List Token.Kind} (notLast : .semicolon ∉ operators)
    {operand : Parser Expr} (operands : Confined tails Line operand)
    (combine : Expr → Token → Expr → Expr) (left : Expr) :
    Confined tails Line
      (bounded fun rounds => Parser.operations operators operand combine rounds left) := by
  apply loop (Parser.operations operators operand combine)
  intro _ _ rounds rounds' line left isLine again
  apply Reply.Confined.accept_bind notLast isLine (pure left isLine)
  rintro operator rest _ _ rfl isLine
  apply (operands isLine).bind
  intro right later isLater isRest
  have shorter := isRest.length_le
  exact again _ isLater (isRest.trans (List.suffix_cons operator rest)) (by simp; omega)

theorem noteExcess (limit : Nat) (excess : SyntaxError.Cause) (count : Nat) :
    Confined tails Line (Parser.noteExcess limit excess count) := by
  unfold Parser.noteExcess
  split
  · exact peek.bind fun token => note excess token
  · exact pure ()

theorem separated {item : Parser α} (items : Confined tails Line item) (limit : Nat)
    (excess : SyntaxError.Cause) (count : Nat) :
    Confined tails Line
      (bounded fun rounds => Parser.separated limit excess item rounds count) := by
  apply loop (Parser.separated limit excess item)
  intro _ _ rounds rounds' line count isLine again
  rw [separated_round, separated_round]
  apply (noteExcess limit excess count isLine).bind
  intro _ noted isNoted fewest
  apply (items isNoted).bind
  intro first rest isRest fewer
  apply Reply.Confined.accept_bind (by decide) isRest (pure [first] isRest)
  rintro comma others _ _ rfl isOthers
  have shorter : others.length < line.length := (fewer.trans fewest).length_le
  have isSuffix := (List.suffix_cons comma others).trans (fewer.trans fewest)
  apply (again (count + 1) isOthers isSuffix shorter).bind
  intro values last isLast _
  exact pure (first :: values) isLast

theorem commaList {item : Parser α} (items : Confined tails Line item) (limit : Nat)
    (excess : SyntaxError.Cause) : Confined tails Line (Parser.commaList limit excess item) := by
  apply (isNext .rightParen).bind
  intro isClosing
  cases isClosing with
  | true => exact pure []
  | false => exact items.separated limit excess 0

end Confined

end Parser

namespace Grammar

theorem calls_confined {argument : Parser Expr} (arguments : Confined tails Line argument)
    (callee : Expr) :
    Confined tails Line (bounded fun rounds => calls argument rounds callee) := by
  apply Confined.loop (calls argument)
  intro _ _ rounds rounds' line callee isLine again
  apply Reply.Confined.accept_bind (by decide) isLine (Confined.pure callee isLine)
  rintro opening rest _ _ rfl isLine
  apply (arguments.commaList maxArguments .tooManyArguments isLine).bind
  intro values later isLater isRest
  apply (Confined.expect (by decide) _ isLater).bind
  intro paren last isLast isLaterRest
  have shorter := (isLaterRest.trans isRest).length_le
  have isSuffix := (isLaterRest.trans isRest).trans (List.suffix_cons opening rest)
  exact again _ isLast isSuffix (by simp; omega)

theorem assignment_confined (target : Expr) (equals : Token) (value : Expr) :
    Confined tails Line (assignment target equals value) := by
  unfold assignment
  split
  · exact .pure _
  · exact (Confined.note _ equals).bind fun _ => .pure target

theorem atomOr_confined {parenthesised : Parser Expr}
    (inner : Confined tails Line parenthesised) : Confined tails Line (atomOr parenthesised) := by
  intro line isLine
  cases isLine with
  | last semicolon =>
      simp only [List.singleton_append, atomOr, atom?, semicolon.kind_eq]
      exact .failed (List.suffix_refl [_]) (.last semicolon)
  | @cons token rest inside isLine =>
      simp only [List.cons_append, atomOr]
      split
      · exact .done (List.suffix_cons token rest) isLine
      · split
        · exact (inner isLine).lift (List.suffix_cons token rest)
        · exact .failed (List.suffix_refl (token :: rest)) (.cons inside isLine)

mutual

theorem expression_confined (depth : Nat) : Confined tails Line (expression depth) := by
  match depth with
  | 0 =>
      rw [expression]
      exact .halt _
  | depth + 1 =>
      rw [expression]
      apply (operation_confined depth .disjunction).bind
      intro target
      apply Confined.accept_bind (by decide) (.pure target)
      intro equals _ _
      apply (expression_confined depth).bind
      intro value
      exact assignment_confined target equals value

theorem operation_confined (depth : Nat) (tier : Tier) :
    Confined tails Line (operation depth tier) := by
  match depth with
  | 0 =>
      rw [operation]
      exact .halt _
  | depth + 1 =>
      have operands : Confined tails Line (operand depth tier) := by
        unfold operand
        split
        · exact operation_confined depth _
        · exact unary_confined depth
      rw [operation_succ]
      apply operands.bind
      intro first
      exact operands.operations (by cases tier <;> decide) tier.combine first

theorem unary_confined (depth : Nat) : Confined tails Line (unary depth) := by
  match depth with
  | 0 =>
      rw [unary]
      exact .halt _
  | depth + 1 =>
      rw [unary]
      apply Confined.accept_bind (by decide)
      · exact call_confined depth
      · intro operator _ _
        exact (unary_confined depth).bind fun _ => .pure _

theorem call_confined (depth : Nat) : Confined tails Line (call depth) := by
  match depth with
  | 0 =>
      rw [call]
      exact .halt _
  | depth + 1 =>
      rw [call]
      apply (primary_confined depth).bind
      intro callee
      exact calls_confined (expression_confined depth) callee

theorem primary_confined (depth : Nat) : Confined tails Line (primary depth) := by
  match depth with
  | 0 =>
      rw [primary]
      exact .halt _
  | depth + 1 =>
      rw [primary]
      apply atomOr_confined
      apply (expression_confined depth).bind
      intro inner
      exact (Confined.expect (by decide) _).bind fun _ => .pure _

end

variable (depth : Nat)

theorem terminated_confined (missing : Missing) :
    Confined tails (· = []) (terminated depth missing) := by
  apply (expression_confined depth).bind
  intro value
  exact (Confined.expect_semicolon _).bind_last fun _ => ⟨value, fun _ _ => rfl⟩

theorem optional_confined (stop : Token.Kind) : Confined tails Line (optional depth stop) := by
  apply (Confined.isNext stop).bind
  intro isStop
  cases isStop with
  | true => exact .pure _
  | false => exact (expression_confined depth).bind fun _ => .pure _

theorem condition_confined (before after : Missing) :
    Confined tails Line (condition depth before after) := by
  apply (Confined.expect (by decide) _).bind
  intro _
  apply (expression_confined depth).bind
  intro test
  exact (Confined.expect (by decide) _).bind fun _ => .pure test

theorem variableDeclaration_confined :
    Confined tails (· = []) (variableDeclaration depth) := by
  apply (Confined.expect (by decide) _).bind
  intro name
  apply Confined.accept_bind (by decide)
  · exact (Confined.expect_semicolon _).bind_last fun _ => ⟨_, fun _ _ => rfl⟩
  · intro equals _ _
    exact (terminated_confined depth _).bind_last fun _ => ⟨_, fun _ _ => rfl⟩

theorem expressionStatement_confined :
    Confined tails (· = []) (expressionStatement depth) :=
  (terminated_confined depth _).bind_last fun _ => ⟨_, fun _ _ => rfl⟩

theorem returnStatement_confined (inFunction : Bool) (keyword : Token) :
    Confined tails (· = []) (returnStatement depth inFunction keyword) := by
  have goesOn : Confined tails (· = [])
      (optional depth .semicolon >>= fun value =>
        Parser.expect .semicolon .semicolonAfterReturnValue >>= fun _ =>
          pure (Stmt.ret keyword value)) := by
    apply (optional_confined depth _).bind
    intro value
    exact (Confined.expect_semicolon _).bind_last fun _ => ⟨_, fun _ _ => rfl⟩
  cases inFunction with
  | true => exact goesOn
  | false => exact (Confined.note _ keyword).bind fun _ => goesOn

/-- The head of a function ends in a brace, of which there is none in a line. -/
theorem functionHead_confined : Confined tails (fun _ => False) functionHead := by
  apply (Confined.expect (by decide) _).bind
  intro name
  apply (Confined.expect (by decide) _).bind
  intro _
  apply ((Confined.expect (by decide) _).commaList _ _).bind
  intro parameters
  exact (Confined.expect (by decide) _).bind fun _ => (Confined.expect_leftBrace _).bind_never

theorem statement_confined (inFunction : Bool) :
    Confined tails (· = []) (statement depth inFunction) := by
  induction depth with
  | zero =>
      rw [statement]
      exact .halt _
  | succ depth ih =>
      rw [statement]
      apply Confined.accept_bind (by decide)
      · exact expressionStatement_confined depth
      · intro token isKeyword inside
        dsimp only
        split
        · exact (terminated_confined depth _).bind_last fun _ => ⟨_, fun _ _ => rfl⟩
        · simp_all
        · apply (condition_confined depth _ _).bind
          intro test
          apply ih.bind_last
          intro thenBranch
          exact ⟨_, fun tail notElse => accept_bind_of_avoids _ notElse⟩
        · apply (condition_confined depth _ _).bind
          intro test
          exact ih.bind_last fun _ => ⟨_, fun _ _ => rfl⟩
        · simp_all
        · exact returnStatement_confined depth inFunction token

theorem declared_confined (inFunction : Bool) :
    Confined tails (· = []) (declared depth inFunction) := by
  apply Confined.accept_bind (by decide)
  · exact statement_confined depth inFunction
  · intro token _ _
    dsimp only
    split
    · exact variableDeclaration_confined depth
    · exact functionHead_confined.bind_never

end Grammar

namespace Parser

/-- Skipping ends in the line or right behind it. -/
theorem skipFrom_line (isLine : Line line) (previous : Token.Kind) :
    ∃ rest, (rest = [] ∨ Line rest) ∧ rest.length ≤ line.length ∧
      ∀ tail, tail ≠ [] → skipFrom previous (line ++ tail) = some (rest ++ tail) := by
  induction isLine generalizing previous with
  | last semicolon =>
      by_cases stops : previous = .semicolon
      · refine ⟨_, .inr (.last semicolon), Nat.le_refl _, fun tail _ => ?_⟩
        simp [skipFrom, stops]
      · refine ⟨[], .inl rfl, Nat.zero_le _, fun tail goesOn => ?_⟩
        obtain ⟨next, tail, rfl⟩ := List.exists_cons_of_ne_nil goesOn
        simp [skipFrom, semicolon.kind_eq, stops, statementStarts]
  | @cons token rest inside isLine ih =>
      by_cases stops : token.kind = .eof ∨ previous = .semicolon ∨ token.kind ∈ statementStarts
      · refine ⟨_, .inr (.cons inside isLine), Nat.le_refl _, fun tail _ => ?_⟩
        simp [skipFrom, stops]
      · rcases ih token.kind with ⟨later, isLater, shorter, skips⟩
        refine ⟨later, isLater, Nat.le_succ_of_le shorter, fun tail goesOn => ?_⟩
        rw [List.cons_append, skipFrom, if_neg stops]
        exact skips tail goesOn

theorem resume?_line (isLine : Line line) :
    ∃ rest, (rest = [] ∨ Line rest) ∧ rest.length < line.length ∧
      ∀ tail, tail ≠ [] → resume? (line ++ tail) = some (rest ++ tail) := by
  cases isLine with
  | last semicolon =>
      refine ⟨[], .inl rfl, Nat.zero_lt_one, fun tail goesOn => ?_⟩
      obtain ⟨next, tail, rfl⟩ := List.exists_cons_of_ne_nil goesOn
      simp [resume?, skipFrom, semicolon.kind_eq]
  | @cons token rest inside isLine =>
      have goesOn : ¬token.kind = .eof := fun isEnd => inside (by simp [isEnd])
      rcases skipFrom_line isLine token.kind with ⟨later, isLater, shorter, skips⟩
      refine ⟨later, isLater, Nat.lt_succ_of_le shorter, fun tail hasNext => ?_⟩
      rw [List.cons_append, resume?, if_neg goesOn]
      exact skips tail hasNext

end Parser

namespace Grammar

/-- A declaration that begins in a line ends in it. What follows the line makes no difference. -/
theorem declaration_line (tails : Tails) (isLine : Line line) (depth : Nat)
    (inFunction : Bool) :
    (∃ reason, declaration depth inFunction (line ++ tails.first) = .halted reason) ∨
    ∃ result rest noted, (rest = [] ∨ Line rest) ∧ rest.length < line.length ∧
      declaration depth inFunction (line ++ tails.first) =
        .done result (rest ++ tails.first) noted ∧
      declaration depth inFunction (line ++ tails.second) =
        .done result (rest ++ tails.second) noted := by
  cases depth with
  | zero => exact .inl ⟨.tooDeep, by rw [declaration]; rfl⟩
  | succ depth =>
      simp only [declaration_succ, recovering]
      have replies : Reply.Confined tails _ line _ _ := declared_confined depth inFunction isLine
      generalize declared depth inFunction (line ++ tails.first) = reply at replies
      generalize declared depth inFunction (line ++ tails.second) = reply' at replies
      cases replies with
      | @done statement _ noted _ isEmpty =>
          subst isEmpty
          have isLong : 0 < line.length := by cases isLine <;> simp
          exact .inr ⟨some statement, [], noted, .inl rfl, isLong, rfl, rfl⟩
      | @failed error rest noted isRest isLater =>
          rcases resume?_line isLater with ⟨later, isLast, shorter, resumes⟩
          refine .inr ⟨none, later, noted ++ [error], isLast, ?_, ?_, ?_⟩
          · exact Nat.lt_of_lt_of_le shorter isRest.length_le
          · simp only [resumes _ tails.first_ne_nil]
          · simp only [resumes _ tails.second_ne_nil]
      | halted reason => exact .inl ⟨reason, rfl⟩

theorem program_line (tails : Tails) (isLine : Line line) (depth : Nat) :
    (∃ reason, program depth (line ++ tails.first) = .halted reason) ∨
    ∃ statements noted, Passes depth tails.first line statements noted ∧
      Passes depth tails.second line statements noted := by
  -- By induction on the length of the line: a declaration leaves a shorter one, or nothing.
  induction isLength : line.length using Nat.strongRecOn generalizing line with
  | ind length ih =>
      obtain ⟨token, tokens, rfl, goesOn⟩ : ∃ token tokens, line = token :: tokens ∧
          token.kind ≠ .eof := by
        cases isLine with
        | last semicolon => exact ⟨_, _, rfl, by simp [semicolon.kind_eq]⟩
        | cons inside _ => exact ⟨_, _, rfl, fun isEnd => inside (by simp [isEnd])⟩
      rcases declaration_line tails isLine depth false with
        ⟨reason, read⟩ | ⟨first, rest, noted, isRest, shorter, read, read'⟩
      · refine .inl ⟨reason, ?_⟩
        rw [List.cons_append] at read ⊢
        rw [program_cons goesOn, bind_of_halted read]
      · rcases isRest with rfl | isLine
        · exact .inr ⟨_, _, .cons goesOn read (.nil depth _), .cons goesOn read' (.nil depth _)⟩
        · rcases ih rest.length (isLength ▸ shorter) isLine rfl with
            ⟨reason, later⟩ | ⟨statements, others, passes, passes'⟩
          · refine .inl ⟨reason, ?_⟩
            rw [List.cons_append] at read ⊢
            rw [program_cons goesOn, bind_of_done read, bind_of_halted later]
            rfl
          · exact .inr ⟨_, _, .cons goesOn read passes, .cons goesOn read' passes'⟩

end Grammar

/--
Errors in a line are confined to it. Whatever stands before a semicolon, if no block or `for` loop
begins there, its statements and errors come first, and then those of the tokens behind the
semicolon, as if these were read alone.
-/
theorem parse_after_semicolon {line : List Token}
    (inside : ∀ token ∈ line, token.kind ∉ [.semicolon, .eof, .leftBrace, .kwFor])
    (semicolon : Terminal [.semicolon]) (ending : Terminal [.eof]) {tail : List Token}
    (notElse : Avoids [.kwElse] tail) {depth : Nat} {statements others : List Stmt}
    {errors otherErrors : List SyntaxError}
    (read : parse depth (line ++ [semicolon.token] ++ [ending.token]) = .ok ⟨statements, errors⟩)
    (tailRead : parse depth tail = .ok ⟨others, otherErrors⟩) :
    parse depth (line ++ [semicolon.token] ++ tail) =
      .ok ⟨statements ++ others, errors ++ otherErrors⟩ := by
  have hasTail : tail ≠ [] := by
    rintro rfl
    contradiction
  let tails : Tails :=
    ⟨[ending.token], tail, by simp, hasTail, ending.avoids (by decide) [], notElse⟩
  rcases Grammar.program_line tails (Line.append inside semicolon) depth with
    ⟨reason, halts⟩ | ⟨statements, errors, passes, passes'⟩
  · rw [parse_of_halted halts] at read
    contradiction
  · have endRead : parse depth [ending.token] = .ok ⟨[], []⟩ :=
      parse_of_done (Grammar.program_of_eof ending.kind_eq)
    have lineRead := passes.parse_eq endRead
    rw [List.append_nil, List.append_nil] at lineRead
    cases lineRead.symm.trans read
    exact passes'.parse_eq tailRead

/--
In `print a else print b;` reading fails at `else` and resumes at `print b;`, and the error in
`c) ;` comes behind that.
-/
theorem parse_after_semicolon_else :
    let token := fun (kind : Token.Kind) (lexeme : String) => Token.mk kind lexeme .null 1
    let line :=
      [token .kwPrint "print", token .identifier "a", token .kwElse "else", token .kwPrint "print",
        token .identifier "b"]
    let semicolon := token .semicolon ";"
    let tail :=
      [token .identifier "c", token .rightParen ")", semicolon, token .eof ""]
    let statement := Stmt.print (.read (token .identifier "b"))
    let error := SyntaxError.mk (.missing .semicolonAfterValue) (token .kwElse "else")
    let other := SyntaxError.mk (.missing .semicolonAfterExpression) (token .rightParen ")")
    parse 20 (line ++ [semicolon] ++ [token .eof ""]) = .ok ⟨[statement], [error]⟩ ∧
      parse 20 tail = .ok ⟨[], [other]⟩ ∧
      parse 20 (line ++ [semicolon] ++ tail) = .ok ⟨[statement], [error, other]⟩ := by
  intro token line semicolon tail statement error other
  have inside : ∀ token ∈ line, token.kind ∉ [.semicolon, .eof, .leftBrace, .kwFor] := by
    simp [line, token]
  have read : parse 20 (line ++ [semicolon] ++ [token .eof ""]) = .ok ⟨[statement], [error]⟩ := rfl
  have tailRead : parse 20 tail = .ok ⟨[], [other]⟩ := rfl
  exact ⟨read, tailRead, parse_after_semicolon inside ⟨semicolon, List.mem_singleton_self _⟩
    ⟨token .eof "", List.mem_singleton_self _⟩ (.cons (by decide)) read tailRead⟩

end Scriptlet
