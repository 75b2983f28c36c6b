import Scriptlet.Proofs.Completeness.Expression

/-!
# What is read as an expression is one

Whenever a rule of the grammar of expressions succeeds, the tokens it has read are those of a
phrase, its value is the tree of the phrase, and what it has noted down are the errors of the
phrase. The proof follows the rules, and within a rule the parsers that make it up.
-/

namespace Scriptlet

namespace Parser

variable {α β : Type} {input rest : List Token} {noted : List SyntaxError}

/-- A sequence of parsers succeeds if all of them do. -/
theorem bind_eq_done {first : Parser α} {next : α → Parser β} {value : β}
    (read : (first >>= next) input = .done value rest noted) :
    ∃ firstValue between firstNoted nextNoted,
      first input = .done firstValue between firstNoted ∧
      next firstValue between = .done value rest nextNoted ∧ noted = firstNoted ++ nextNoted := by
  cases firstRead : first input with
  | done firstValue between firstNoted =>
      rw [bind_of_done firstRead] at read
      cases nextRead : next firstValue between with
      | done nextValue nextRest nextNoted =>
          rw [nextRead] at read
          cases read
          exact ⟨firstValue, between, firstNoted, nextNoted, rfl, nextRead, rfl⟩
      | failed error nextRest nextNoted =>
          rw [nextRead] at read
          contradiction
      | halted reason =>
          rw [nextRead] at read
          contradiction
  | failed error between firstNoted =>
      rw [bind_of_failed firstRead] at read
      contradiction
  | halted reason =>
      rw [bind_of_halted firstRead] at read
      contradiction

theorem noting_eq_done {reply : Reply α} {earlier : List SyntaxError} {value : α}
    (read : reply.noting earlier = .done value rest noted) :
    ∃ later, reply = .done value rest later ∧ noted = earlier ++ later := by
  cases reply with
  | done result left later =>
      cases read
      exact ⟨later, rfl, rfl⟩
  | failed error left later => contradiction
  | halted reason => contradiction

theorem pure_eq_done {value result : α}
    (read : (pure value : Parser α) input = .done result rest noted) :
    value = result ∧ input = rest ∧ noted = [] := by
  cases read
  exact ⟨rfl, rfl, rfl⟩

theorem expect_bind_eq_done {kind : Token.Kind} {missing : Missing} {next : Token → Parser β}
    {value : β} (read : (expect kind missing >>= next) input = .done value rest noted) :
    ∃ (terminal : Terminal [kind]) (between : List Token),
      input = terminal.token :: between ∧
      next terminal.token between = .done value rest noted := by
  cases input with
  | nil => contradiction
  | cons token between =>
      by_cases isKind : token.kind = kind
      · rw [expect_bind _ _ _ isKind] at read
        exact ⟨⟨token, List.mem_singleton.mpr isKind⟩, between, rfl, read⟩
      · rcases bind_eq_done read with ⟨_, _, _, _, failed, _⟩
        simp [expect, isKind] at failed

theorem accept_bind_eq_done {kinds : List Token.Kind} {next : Option Token → Parser β} {value : β}
    (read : (accept kinds >>= next) input = .done value rest noted) :
    (∃ (terminal : Terminal kinds) (between : List Token),
      input = terminal.token :: between ∧
      next (some terminal.token) between = .done value rest noted) ∨
    (Avoids kinds input ∧ next none input = .done value rest noted) := by
  cases input with
  | nil => contradiction
  | cons token between =>
      by_cases mem : token.kind ∈ kinds
      · rw [accept_bind_of_mem _ _ mem] at read
        exact Or.inl ⟨⟨token, mem⟩, between, rfl, read⟩
      · rw [accept_bind_of_not_mem _ _ mem] at read
        exact Or.inr ⟨.cons mem, read⟩

theorem isNext_bind_eq_done {kind : Token.Kind} {next : Bool → Parser β} {value : β}
    (read : (isNext kind >>= next) input = .done value rest noted) :
    ∃ isNext, next isNext input = .done value rest noted := by
  cases input with
  | nil => contradiction
  | cons token between => exact ⟨_, (isNext_bind kind next token between).symm.trans read⟩

end Parser

open Scriptlet.Parser

namespace ExprPhrase

/-- That what a parser reads is a phrase of a symbol. -/
def Derives (symbol : Symbol) (parser : Parser symbol.Tree) : Prop :=
  ∀ input value rest noted, parser input = .done value rest noted →
    ∃ phrase : ExprPhrase symbol,
      input = phrase.tokens ++ rest ∧ phrase.tree = value ∧ phrase.errors = noted

variable {input rest : List Token} {noted : List SyntaxError}

/-- Rounds of operators and operands are operations of a level. -/
theorem operations_derives {level : Level} {tighter : List Level} {operand : Parser Expr}
    (operandDerives : Derives (.operation tighter) operand) {rounds : List Token}
    {left value : Expr}
    (read : operations level.operators operand level.node rounds left input =
      .done value rest noted) :
    ∃ phrase : ExprPhrase (.operations level tighter),
      input = phrase.tokens ++ rest ∧ phrase.tree left = value ∧ phrase.errors = noted := by
  induction rounds generalizing left input noted with
  | nil => contradiction
  | cons round rounds ih =>
      rw [operations] at read
      rcases accept_bind_eq_done read with ⟨operator, between, rfl, next⟩ | ⟨_, ends⟩
      · rcases bind_eq_done next with
            ⟨right, after, rightNoted, moreNoted, rightRead, moreRead, rfl⟩
        rcases operandDerives _ _ _ _ rightRead with ⟨rightPhrase, rfl, rfl, rfl⟩
        rcases ih moreRead with ⟨more, rfl, rfl, rfl⟩
        exact ⟨nextOperation operator rightPhrase more, by simp, rfl, rfl⟩
      · rcases pure_eq_done ends with ⟨rfl, rfl, rfl⟩
        exact ⟨noOperation, rfl, rfl, rfl⟩

/-- Rounds of arguments and commas are a list of arguments. -/
theorem separated_derives {argument : Parser Expr} (derives : Derives .expression argument)
    {rounds : List Token} {before : Nat} {value : List Expr}
    (read : separated maxArguments .tooManyArguments argument rounds before input =
      .done value rest noted) :
    ∃ phrase : ExprPhrase (.argumentList before),
      input = phrase.tokens ++ rest ∧ phrase.tree = value ∧ phrase.errors = noted := by
  induction rounds generalizing before value input noted with
  | nil => contradiction
  | cons round rounds ih =>
      have begins : BeginsWith (input.map Token.kind) input := by
        cases input with
        | cons token between => exact ⟨token, between, rfl, List.mem_cons_self⟩
        | nil =>
            rw [separated] at read
            split at read
            · contradiction
            · rcases bind_eq_done read with ⟨_, _, _, _, argumentRead, _⟩
              rcases derives _ _ _ _ argumentRead with ⟨phrase, empty, _⟩
              have := (phrase.beginsWith rfl).length_pos
              have := congrArg List.length empty
              simp only [List.length_nil, List.length_append] at this
              omega
      rw [separated_cons _ _ _ _ _ _ begins] at read
      rcases noting_eq_done read with ⟨later, roundRead, rfl⟩
      rcases bind_eq_done roundRead with ⟨_, between, _, _, argumentRead, next, rfl⟩
      rcases derives _ _ _ _ argumentRead with ⟨phrase, rfl, rfl, rfl⟩
      rw [excessErrors_append _ _ _ (phrase.beginsWith rfl)]
      rcases accept_bind_eq_done next with ⟨comma, after, rfl, goesOn⟩ | ⟨_, ends⟩
      · rcases bind_eq_done goesOn with ⟨_, _, _, _, listRead, done, rfl⟩
        rcases pure_eq_done done with ⟨rfl, rfl, rfl⟩
        rcases ih listRead with ⟨list, rfl, rfl, rfl⟩
        exact ⟨nextArgument phrase comma list, by simp, rfl, by simp⟩
      · rcases pure_eq_done ends with ⟨rfl, rfl, rfl⟩
        exact ⟨lastArgument phrase, rfl, rfl, by simp⟩

theorem commaList_derives {argument : Parser Expr} (derives : Derives .expression argument) :
    Derives .arguments (commaList maxArguments .tooManyArguments argument) := by
  intro input value rest noted read
  rw [commaList] at read
  rcases isNext_bind_eq_done read with ⟨isClosing, next⟩
  cases isClosing with
  | true =>
      rcases pure_eq_done next with ⟨rfl, rfl, rfl⟩
      exact ⟨noArguments, rfl, rfl, rfl⟩
  | false =>
      rcases separated_derives derives next with ⟨list, rfl, rfl, rfl⟩
      exact ⟨someArguments list, rfl, rfl, rfl⟩

/-- Rounds of argument lists in parentheses are calls. -/
theorem calls_derives {argument : Parser Expr} (derives : Derives .expression argument)
    {rounds : List Token} {callee value : Expr}
    (read : Grammar.calls argument rounds callee input = .done value rest noted) :
    ∃ phrase : ExprPhrase .calls,
      input = phrase.tokens ++ rest ∧ phrase.tree callee = value ∧ phrase.errors = noted := by
  induction rounds generalizing callee input noted with
  | nil => contradiction
  | cons round rounds ih =>
      rw [Grammar.calls] at read
      rcases accept_bind_eq_done read with ⟨opening, between, rfl, next⟩ | ⟨_, ends⟩
      · rcases bind_eq_done next with ⟨_, _, _, _, argumentsRead, goesOn, rfl⟩
        rcases commaList_derives derives _ _ _ _ argumentsRead with ⟨arguments, rfl, rfl, rfl⟩
        rcases expect_bind_eq_done goesOn with ⟨closing, _, rfl, moreRead⟩
        rcases ih moreRead with ⟨more, rfl, rfl, rfl⟩
        exact ⟨nextCall opening arguments closing more, by simp, rfl, rfl⟩
      · rcases pure_eq_done ends with ⟨rfl, rfl, rfl⟩
        exact ⟨noCall, rfl, rfl, rfl⟩

/-- A token that is an expression by itself is an atom. -/
theorem atom?_eq_some {token : Token} {value : Expr} (isAtom : Grammar.atom? token = some value) :
    token.kind ∈ Grammar.atomKinds := by
  unfold Grammar.atom? at isAtom
  split at isAtom <;> simp_all [Grammar.atomKinds]

mutual

theorem expression_derives (depth : Nat) : Derives .expression (Grammar.expression depth) := by
  intro input value rest noted read
  match depth with
  | 0 => contradiction
  | depth + 1 =>
      rw [Grammar.expression_succ] at read
      rcases bind_eq_done read with ⟨_, _, _, _, targetRead, next, rfl⟩
      rcases operation_derives depth levels _ _ _ _ targetRead with ⟨target, rfl, rfl, rfl⟩
      rcases accept_bind_eq_done next with ⟨equals, _, rfl, goesOn⟩ | ⟨_, ends⟩
      · rcases bind_eq_done goesOn with ⟨_, _, _, _, valueRead, assigned, rfl⟩
        rcases expression_derives depth _ _ _ _ valueRead with ⟨valuePhrase, rfl, rfl, rfl⟩
        rw [read_assigned] at assigned
        cases assigned
        exact ⟨assignment target equals valuePhrase, by simp, rfl, rfl⟩
      · rcases pure_eq_done ends with ⟨rfl, rfl, rfl⟩
        exact ⟨plain target, rfl, rfl, by simp⟩

theorem operation_derives (depth : Nat) (levels : List Level) :
    Derives (.operation levels) (Grammar.operationOf depth levels) := by
  intro input value rest noted read
  match depth, levels with
  | depth, [] =>
      rw [Grammar.operationOf] at read
      rcases unary_derives depth _ _ _ _ read with ⟨phrase, rfl, rfl, rfl⟩
      exact ⟨tightest phrase, rfl, rfl, rfl⟩
  | 0, _ :: _ => contradiction
  | depth + 1, level :: tighter =>
      rw [Grammar.operationOf] at read
      rcases bind_eq_done read with ⟨_, _, _, _, firstRead, moreRead, rfl⟩
      rcases operation_derives depth tighter _ _ _ _ firstRead with ⟨first, rfl, rfl, rfl⟩
      rcases operations_derives (operation_derives depth tighter) moreRead with
          ⟨more, rfl, rfl, rfl⟩
      exact ⟨operation first more, by simp, rfl, rfl⟩

theorem unary_derives (depth : Nat) : Derives .unary (Grammar.unary depth) := by
  intro input value rest noted read
  match depth with
  | 0 => contradiction
  | depth + 1 =>
      rw [Grammar.unary] at read
      rcases accept_bind_eq_done read with ⟨operator, _, rfl, next⟩ | ⟨_, next⟩
      · rcases bind_eq_done next with ⟨_, _, _, _, operandRead, done, rfl⟩
        rcases pure_eq_done done with ⟨rfl, rfl, rfl⟩
        rcases unary_derives depth _ _ _ _ operandRead with ⟨operand, rfl, rfl, rfl⟩
        exact ⟨unaryOperation operator operand, rfl, rfl, by simp⟩
      · rcases call_derives depth _ _ _ _ next with ⟨phrase, rfl, rfl, rfl⟩
        exact ⟨unaryCall phrase, rfl, rfl, rfl⟩

theorem call_derives (depth : Nat) : Derives .call (Grammar.call depth) := by
  intro input value rest noted read
  match depth with
  | 0 => contradiction
  | depth + 1 =>
      rw [Grammar.call] at read
      rcases bind_eq_done read with ⟨_, _, _, _, calleeRead, moreRead, rfl⟩
      rcases primary_derives depth _ _ _ _ calleeRead with ⟨callee, rfl, rfl, rfl⟩
      rcases calls_derives (expression_derives depth) moreRead with ⟨more, rfl, rfl, rfl⟩
      exact ⟨call callee more, by simp, rfl, rfl⟩

theorem primary_derives (depth : Nat) : Derives .primary (Grammar.primary depth) := by
  intro input value rest noted read
  match depth, input with
  | 0, _ => contradiction
  | depth + 1, [] => contradiction
  | depth + 1, token :: between =>
      rw [Grammar.primary, Grammar.atomOr] at read
      cases isAtom : Grammar.atom? token with
      | some expr =>
          have mem := atom?_eq_some isAtom
          rw [atom?_eq mem] at isAtom read
          cases read
          exact ⟨atom ⟨token, mem⟩, rfl, rfl, rfl⟩
      | none =>
          rw [isAtom] at read
          dsimp only at read
          split at read
          · rename_i isOpening
            rcases bind_eq_done read with ⟨_, _, _, _, innerRead, next, rfl⟩
            rcases expression_derives depth _ _ _ _ innerRead with ⟨inner, rfl, rfl, rfl⟩
            rcases expect_bind_eq_done next with ⟨closing, _, rfl, done⟩
            rcases pure_eq_done done with ⟨rfl, rfl, rfl⟩
            exact ⟨parenthesised ⟨token, List.mem_singleton.mpr isOpening⟩ inner closing,
              by simp, rfl, by simp⟩
          · contradiction

end

end ExprPhrase

end Scriptlet
