import Scriptlet.Grammar.Expression
import Scriptlet.Proofs.ParserLaws
import Scriptlet.Proofs.Phrase.Expression

/-!
# Expressions are read back

The rules of the grammar read every phrase of an expression back: they stop exactly where the
phrase ends, give its tree and note its errors (`ExprPhrase.read`). The token after a phrase must
not be one that makes the phrase longer; which tokens do is a matter of the symbol alone, and one
token of lookahead tells.

The parser knows the levels of operators as tiers, and the grammar has them in a table. The tiers
are the rows of the table in order (`Tier.levels_eq`), so that the rule of a tier is the rule of
the levels from its row on (`Grammar.operation_eq`).
-/

namespace Scriptlet

open Scriptlet.Parser
open ExprPhrase (Level)

namespace ExprPhrase

/-- The kinds of tokens that make an operation of some levels longer. -/
def continues (levels : List Level) : List Token.Kind :=
  levels.flatMap Level.operators ++ [.leftParen]

theorem continues_cons (level : Level) (tighter : List Level) :
    continues (level :: tighter) = level.operators ++ continues tighter := by
  simp [continues]

/-- No two levels share an operator, and none has the parenthesis of a call. -/
theorem continues_nodup : (continues levels).Nodup := by
  decide

theorem operators_disjoint {level : Level} {tighter : List Level}
    (isSuffix : level :: tighter <:+ levels) :
    ∀ kind ∈ level.operators, kind ∉ continues tighter := by
  have nodup : (level.operators ++ continues tighter).Nodup := by
    rcases isSuffix with ⟨looser, isLevels⟩
    have split : continues levels =
        looser.flatMap Level.operators ++ (level.operators ++ continues tighter) := by
      simp [continues, ← isLevels]
    exact (List.nodup_append.mp (split ▸ continues_nodup)).2.1
  intro kind isOperator continuesTighter
  exact (List.nodup_append.mp nodup).2.2 kind isOperator kind continuesTighter rfl

end ExprPhrase

namespace Grammar

/-- The rule of the operands of a level. -/
def operand (depth : Nat) (tier : Tier) : Parser Expr :=
  match tier.tighter? with
  | some tighter => operation depth tighter
  | none => unary depth

theorem operation_succ (depth : Nat) (tier : Tier) :
    operation (depth + 1) tier =
      operand depth tier >>= fun first => bounded fun rounds =>
        operations tier.operators (operand depth tier) tier.combine rounds first := by
  rw [operation]
  rfl

/-- The rule of operations of some levels. -/
def operationOf : Nat → List Level → Parser Expr
  | depth, [] => unary depth
  | 0, _ :: _ => halt .tooDeep
  | depth + 1, level :: tighter =>
    operationOf depth tighter >>= fun first => bounded fun rounds =>
      operations level.operators (operationOf depth tighter) level.node rounds first

end Grammar

/-- The levels from a tier on. -/
def Tier.levels : Tier → List Level
  | disjunction => ExprPhrase.levels
  | conjunction => ExprPhrase.levels.drop 1
  | equality => ExprPhrase.levels.drop 2
  | comparison => ExprPhrase.levels.drop 3
  | sum => ExprPhrase.levels.drop 4
  | product => ExprPhrase.levels.drop 5

/-- A tier is a row of the table: its operators and its node are there, and tighter rows follow. -/
theorem Tier.levels_eq (tier : Tier) :
    ∃ level : Level, level.operators = tier.operators ∧ level.node = tier.combine ∧
      tier.levels = level :: (tier.tighter?.map levels).getD [] := by
  cases tier <;> exact ⟨_, rfl, rfl, rfl⟩

namespace Grammar

/-- The rule of a tier is the rule of the levels from the tier on. -/
theorem operation_eq (depth : Nat) (tier : Tier) :
    operation depth tier = operationOf depth tier.levels := by
  induction depth generalizing tier with
  | zero =>
      rcases tier.levels_eq with ⟨level, _, _, isLevels⟩
      rw [isLevels, operation, operationOf]
  | succ depth ih =>
      rcases tier.levels_eq with ⟨level, sameOperators, sameNode, isLevels⟩
      have sameOperand :
          operand depth tier = operationOf depth ((tier.tighter?.map Tier.levels).getD []) := by
        unfold operand
        cases tier.tighter? with
        | none => rw [Option.map_none, Option.getD_none, operationOf]
        | some tighter => exact ih tighter
      rw [isLevels, operation_succ, operationOf, sameOperand, sameOperators, sameNode]

theorem expression_succ (depth : Nat) :
    expression (depth + 1) =
      operationOf depth ExprPhrase.levels >>= fun target => accept [.equal] >>= fun
        | none => pure target
        | some equals => expression depth >>= fun value => assignment target equals value := by
  rw [expression, operation_eq]
  rfl

/-- The kinds of tokens that make an expression longer. -/
def expressionContinues : List Token.Kind :=
  .equal :: ExprPhrase.continues ExprPhrase.levels

/-- The kinds of tokens that an expression begins with. -/
def expressionOpeners : List Token.Kind :=
  [.bang, .minus, .leftParen] ++ atomKinds

end Grammar

open Grammar (expressionContinues expressionOpeners)

namespace Terminal

theorem kind_eq {kind : Token.Kind} (terminal : Terminal [kind]) : terminal.token.kind = kind :=
  List.mem_singleton.mp terminal.kind_mem

/-- An expression ends before a token that does not make it longer. -/
theorem avoids {kind : Token.Kind} (terminal : Terminal [kind]) {kinds : List Token.Kind}
    (notMem : kind ∉ kinds) (rest : List Token) : Avoids kinds (terminal.token :: rest) :=
  .cons (by rw [terminal.kind_eq]; exact notMem)

end Terminal

/-- One round of a list: a note where the list is too long, an item, and what follows it. -/
theorem Parser.separated_cons {α : Type} (limit : Nat) (excess : SyntaxError.Cause)
    (item : Parser α) (round : Token) (rounds : List Token) (count : Nat) {kinds : List Token.Kind}
    {tokens : List Token} (begins : BeginsWith kinds tokens) :
    separated limit excess item (round :: rounds) count tokens =
      ((item >>= fun first => accept [.comma] >>= fun
        | none => pure [first]
        | some _ => separated limit excess item rounds (count + 1) >>= fun rest =>
            pure (first :: rest)) tokens).noting
        (ExprPhrase.excessErrors limit excess count tokens) := by
  rcases begins with ⟨first, rest, rfl, _⟩
  rw [separated, ExprPhrase.excessErrors]
  split
  · rw [peek_bind, note_bind]
    rfl
  · rewrite [Reply.noting_nil]
    rfl

namespace ExprPhrase

/-- Whether the derivations of a symbol begin with an expression. -/
def Symbol.beginsExpression : Symbol → Bool
  | operations _ _ | calls | arguments => false
  | _ => true

/-- The first token of a phrase tells that it is an expression. -/
theorem beginsWith {symbol : Symbol} (phrase : ExprPhrase symbol)
    (begins : symbol.beginsExpression = true) : BeginsWith expressionOpeners phrase.tokens := by
  induction phrase with
  | plain value ih => exact ih rfl
  | assignment target equals value ih => exact (ih rfl).append _
  | operation first more ih => exact (ih rfl).append _
  | tightest value ih => exact ih rfl
  | noOperation => contradiction
  | nextOperation => contradiction
  | unaryOperation operator operand =>
      have subset : [.bang, .minus] ⊆ expressionOpeners := by decide
      exact ⟨operator.token, operand.tokens, rfl, subset operator.kind_mem⟩
  | unaryCall value ih => exact ih rfl
  | call callee more ih => exact (ih rfl).append _
  | noCall => contradiction
  | nextCall => contradiction
  | noArguments => contradiction
  | someArguments => contradiction
  | lastArgument value ih => exact ih rfl
  | nextArgument value comma rest ih => exact (ih rfl).append _
  | atom token => exact ⟨token.token, [], rfl, List.mem_append_right _ token.kind_mem⟩
  | parenthesised opening inner closing =>
      have subset : [.leftParen] ⊆ expressionOpeners := by decide
      exact ⟨opening.token, inner.tokens ++ [closing.token], rfl, subset opening.kind_mem⟩

theorem excessErrors_append (limit : Nat) (cause : SyntaxError.Cause) (before : Nat)
    {kinds : List Token.Kind} {item : List Token} (begins : BeginsWith kinds item)
    (rest : List Token) :
    excessErrors limit cause before (item ++ rest) = excessErrors limit cause before item := by
  rcases begins with ⟨first, others, rfl, _⟩
  rfl

/--
That the rules read a phrase back, whatever follows it, unless what follows makes it longer. The
levels of an operation are the last ones of the table. A repetition is read in rounds, of which
there are enough when there are more than tokens to read.
-/
def Read : {symbol : Symbol} → ExprPhrase symbol → Prop
  | .expression, phrase =>
    ∀ depth rest, Avoids expressionContinues rest →
      Grammar.expression depth (phrase.tokens ++ rest) =
        (Reply.done phrase.tree rest phrase.errors).upTo phrase.height depth
  | .operation last, phrase =>
    last <:+ levels → ∀ depth rest, Avoids (continues last) rest →
      Grammar.operationOf depth last (phrase.tokens ++ rest) =
        (Reply.done phrase.tree rest phrase.errors).upTo phrase.height depth
  | .operations level tighter, phrase =>
    level :: tighter <:+ levels → ∀ depth rest left (rounds : List Token),
      Avoids (continues (level :: tighter)) rest → phrase.tokens.length < rounds.length →
      operations level.operators (Grammar.operationOf depth tighter) level.node rounds left
          (phrase.tokens ++ rest) =
        (Reply.done (phrase.tree left) rest phrase.errors).upTo phrase.height depth
  | .unary, phrase =>
    ∀ depth rest, Avoids [.leftParen] rest →
      Grammar.unary depth (phrase.tokens ++ rest) =
        (Reply.done phrase.tree rest phrase.errors).upTo phrase.height depth
  | .call, phrase =>
    ∀ depth rest, Avoids [.leftParen] rest →
      Grammar.call depth (phrase.tokens ++ rest) =
        (Reply.done phrase.tree rest phrase.errors).upTo phrase.height depth
  | .calls, phrase =>
    ∀ depth rest callee (rounds : List Token), Avoids [.leftParen] rest →
      phrase.tokens.length < rounds.length →
      Grammar.calls (Grammar.expression depth) rounds callee (phrase.tokens ++ rest) =
        (Reply.done (phrase.tree callee) rest phrase.errors).upTo phrase.height depth
  | .arguments, phrase =>
    ∀ depth rest, BeginsWith [.rightParen] rest →
      commaList maxArguments .tooManyArguments (Grammar.expression depth) (phrase.tokens ++ rest) =
        (Reply.done phrase.tree rest phrase.errors).upTo phrase.height depth
  | .argumentList before, phrase =>
    ∀ depth rest (rounds : List Token), BeginsWith [.rightParen] rest →
      phrase.tokens.length < rounds.length →
      separated maxArguments .tooManyArguments (Grammar.expression depth) rounds before
          (phrase.tokens ++ rest) =
        (Reply.done phrase.tree rest phrase.errors).upTo phrase.height depth
  | .primary, phrase =>
    ∀ depth rest,
      Grammar.primary depth (phrase.tokens ++ rest) =
        (Reply.done phrase.tree rest phrase.errors).upTo phrase.height depth

/-- The assignment of a value is noted down where its target is no variable. -/
theorem read_assigned (target : Expr) (equals : Token) (value : Expr) (rest : List Token) :
    Grammar.assignment target equals value rest =
      .done (assigned target value) rest (targetErrors target equals) := by
  cases target <;> rfl

theorem read_plain {value : ExprPhrase (.operation levels)} (read : value.Read) :
    (plain value).Read := by
  intro depth rest avoids
  cases depth with
  | zero => rfl
  | succ depth =>
      have valueRead := read List.suffix_rfl depth rest (avoids.anti (List.subset_cons_self ..))
      have stops : Avoids [.equal] rest := avoids.anti (by decide)
      rw [Grammar.expression_succ, tokens, bind_of_upTo valueRead, accept_bind_of_avoids _ stops]
      simp

theorem read_assignment {target : ExprPhrase (.operation levels)}
    {value : ExprPhrase .expression} (equals : Terminal [.equal]) (readTarget : target.Read)
    (readValue : value.Read) : (assignment target equals value).Read := by
  intro depth rest avoids
  cases depth with
  | zero => rfl
  | succ depth =>
      have stops : Avoids (continues levels) (equals.token :: (value.tokens ++ rest)) :=
        equals.avoids (by decide) _
      have targetRead := readTarget List.suffix_rfl depth _ stops
      have valueRead := readValue depth rest avoids
      rw [Grammar.expression_succ, tokens, List.append_assoc, List.cons_append,
        bind_of_upTo targetRead, accept_bind_of_mem _ _ equals.kind_mem]
      dsimp only
      rw [bind_of_upTo valueRead, read_assigned]
      simp

section Operation

variable {level : Level} {tighter : List Level} {more : ExprPhrase (.operations level tighter)}

/-- What follows an operand, be it an operator or the end of the operation, ends the operand. -/
theorem avoids_operations (more : ExprPhrase (.operations level tighter))
    (isSuffix : level :: tighter <:+ levels) {rest : List Token}
    (avoids : Avoids (continues (level :: tighter)) rest) :
    Avoids (continues tighter) (more.tokens ++ rest) := by
  cases more with
  | noOperation =>
      rw [continues_cons] at avoids
      exact avoids.anti (List.subset_append_right ..)
  | nextOperation operator right more =>
      exact .cons (operators_disjoint isSuffix _ operator.kind_mem)

theorem read_operation {first : ExprPhrase (.operation tighter)} (readFirst : first.Read)
    (readMore : more.Read) : (operation first more).Read := by
  intro isSuffix depth rest avoids
  cases depth with
  | zero => rfl
  | succ depth =>
      have firstRead := readFirst ((List.suffix_cons ..).trans isSuffix) depth _
        (avoids_operations more isSuffix avoids)
      have moreRead := readMore isSuffix depth rest first.tree (more.tokens ++ rest) avoids
        (avoids.length_lt_append _)
      rw [Grammar.operationOf, tokens, List.append_assoc, bind_of_upTo firstRead, bounded, moreRead]
      simp

theorem read_tightest {value : ExprPhrase .unary} (read : value.Read) : (tightest value).Read := by
  intro _ depth rest avoids
  rw [Grammar.operationOf]
  exact read depth rest avoids

theorem read_noOperation : (noOperation : ExprPhrase (.operations level tighter)).Read := by
  intro _ depth rest left rounds avoids enough
  cases rounds with
  | nil => contradiction
  | cons round rounds =>
      rw [continues_cons] at avoids
      have stops : Avoids level.operators rest := avoids.anti (List.subset_append_left ..)
      rw [operations, tokens, List.nil_append, accept_bind_of_avoids _ stops]
      simp

theorem read_nextOperation (operator : Terminal level.operators)
    {right : ExprPhrase (.operation tighter)} (readRight : right.Read) (readMore : more.Read) :
    (nextOperation operator right more).Read := by
  intro isSuffix depth rest left rounds avoids enough
  cases rounds with
  | nil => contradiction
  | cons round rounds =>
      have enoughMore : more.tokens.length < rounds.length := by
        simp only [tokens, List.length_cons, List.length_append] at enough
        omega
      have rightRead := readRight ((List.suffix_cons ..).trans isSuffix) depth _
        (avoids_operations more isSuffix avoids)
      have moreRead := readMore isSuffix depth rest (level.node left operator.token right.tree)
        rounds avoids enoughMore
      rw [operations, tokens, List.cons_append, accept_bind_of_mem _ _ operator.kind_mem]
      dsimp only
      rw [List.append_assoc, bind_of_upTo rightRead, moreRead]
      simp

end Operation

theorem read_unaryOperation (operator : Terminal [.bang, .minus]) {operand : ExprPhrase .unary}
    (read : operand.Read) : (unaryOperation operator operand).Read := by
  intro depth rest avoids
  cases depth with
  | zero => rfl
  | succ depth =>
      have operandRead := read depth rest avoids
      rw [Grammar.unary, tokens, List.cons_append, accept_bind_of_mem _ _ operator.kind_mem]
      dsimp only
      rw [bind_of_upTo operandRead]
      simp

/-- The first token of a call tells that no unary operator stands before it. -/
theorem beginsWith_call (value : ExprPhrase .call) :
    BeginsWith (.leftParen :: Grammar.atomKinds) value.tokens := by
  cases value with
  | call callee more =>
      cases callee with
      | atom token =>
          exact ⟨token.token, more.tokens, rfl, List.mem_cons_of_mem _ token.kind_mem⟩
      | parenthesised opening inner closing =>
          refine ⟨opening.token, inner.tokens ++ [closing.token] ++ more.tokens, rfl, ?_⟩
          rw [opening.kind_eq]
          exact List.mem_cons_self

theorem read_unaryCall {value : ExprPhrase .call} (read : value.Read) :
    (unaryCall value).Read := by
  intro depth rest avoids
  cases depth with
  | zero => rfl
  | succ depth =>
      have stops : Avoids [.bang, .minus] (value.tokens ++ rest) :=
        ((beginsWith_call value).append rest).avoids (by decide)
      rw [Grammar.unary, tokens, accept_bind_of_avoids _ stops]
      dsimp only
      rw [read depth rest avoids]
      simp

theorem read_call {callee : ExprPhrase .primary} {more : ExprPhrase .calls}
    (readCallee : callee.Read) (readMore : more.Read) : (call callee more).Read := by
  intro depth rest avoids
  cases depth with
  | zero => rfl
  | succ depth =>
      have calleeRead := readCallee depth (more.tokens ++ rest)
      have moreRead := readMore depth rest callee.tree (more.tokens ++ rest) avoids
        (avoids.length_lt_append _)
      rw [Grammar.call, tokens, List.append_assoc, bind_of_upTo calleeRead, bounded, moreRead]
      simp

theorem read_noCall : noCall.Read := by
  intro depth rest callee rounds avoids enough
  cases rounds with
  | nil => contradiction
  | cons round rounds =>
      rw [Grammar.calls, tokens, List.nil_append, accept_bind_of_avoids _ avoids]
      simp

theorem read_nextCall (opening : Terminal [.leftParen]) {arguments : ExprPhrase .arguments}
    (closing : Terminal [.rightParen]) {more : ExprPhrase .calls}
    (readArguments : arguments.Read) (readMore : more.Read) :
    (nextCall opening arguments closing more).Read := by
  intro depth rest callee rounds avoids enough
  cases rounds with
  | nil => contradiction
  | cons round rounds =>
      have enoughMore : more.tokens.length < rounds.length := by
        simp only [tokens, List.length_cons, List.length_append] at enough
        omega
      have ends : BeginsWith [.rightParen] (closing.token :: (more.tokens ++ rest)) :=
        ⟨_, _, rfl, closing.kind_mem⟩
      have argumentsRead := readArguments depth _ ends
      have moreRead := readMore depth rest (.call callee closing.token arguments.tree) rounds
        avoids enoughMore
      rw [Grammar.calls, tokens, List.cons_append, accept_bind_of_mem _ _ opening.kind_mem]
      dsimp only
      rw [List.append_assoc, List.cons_append, bind_of_upTo argumentsRead,
        expect_bind _ _ _ closing.kind_eq, moreRead]
      simp

theorem read_noArguments : noArguments.Read := by
  rintro depth rest ⟨paren, others, rfl, isParen⟩
  rw [commaList, tokens, List.nil_append, isNext_bind,
    decide_eq_true (List.mem_singleton.mp isParen)]
  simp

theorem read_someArguments {list : ExprPhrase (.argumentList 0)} (read : list.Read) :
    (someArguments list).Read := by
  intro depth rest ends
  have stops : Avoids [.rightParen] (list.tokens ++ rest) :=
    ((list.beginsWith rfl).append rest).avoids (by decide)
  have ended : Avoids [.comma] rest := ends.avoids (by decide)
  rw [commaList, tokens, isNext_bind_of_avoids _ stops]
  exact read depth rest _ ends (ended.length_lt_append _)

theorem read_lastArgument {before : Nat} {value : ExprPhrase .expression} (read : value.Read) :
    (lastArgument value : ExprPhrase (.argumentList before)).Read := by
  intro depth rest rounds ends enough
  cases rounds with
  | nil => contradiction
  | cons round rounds =>
      have begins := value.beginsWith rfl
      have valueRead := read depth rest (ends.avoids (by decide))
      have stops : Avoids [.comma] rest := ends.avoids (by decide)
      rw [tokens, separated_cons _ _ _ _ _ _ (begins.append rest), bind_of_upTo valueRead,
        accept_bind_of_avoids _ stops, excessErrors_append _ _ _ begins]
      simp

theorem read_nextArgument {before : Nat} {value : ExprPhrase .expression}
    (comma : Terminal [.comma]) {list : ExprPhrase (.argumentList (before + 1))}
    (readValue : value.Read) (readList : list.Read) : (nextArgument value comma list).Read := by
  intro depth rest rounds ends enough
  cases rounds with
  | nil => contradiction
  | cons round rounds =>
      have enoughRest : list.tokens.length < rounds.length := by
        simp only [tokens, List.length_cons, List.length_append] at enough
        omega
      have begins := value.beginsWith rfl
      have stops : Avoids expressionContinues (comma.token :: (list.tokens ++ rest)) :=
        comma.avoids (by decide) _
      have valueRead := readValue depth _ stops
      have listRead := readList depth rest rounds ends enoughRest
      rw [tokens, List.append_assoc, List.cons_append,
        separated_cons _ _ _ _ _ _ (begins.append _), bind_of_upTo valueRead,
        accept_bind_of_mem _ _ comma.kind_mem, excessErrors_append _ _ _ begins]
      dsimp only
      rw [bind_of_upTo listRead]
      simp

theorem atom?_eq {token : Token} (isAtom : token.kind ∈ Grammar.atomKinds) :
    Grammar.atom? token = some (atomTree token) := by
  simp only [Grammar.atomKinds, List.mem_cons, List.not_mem_nil, or_false] at isAtom
  rcases isAtom with isKind | isKind | isKind | isKind | isKind | isKind <;>
    simp [Grammar.atom?, atomTree, isKind]

theorem read_atom (token : Terminal Grammar.atomKinds) : (atom token).Read := by
  intro depth rest
  cases depth with
  | zero => rfl
  | succ depth =>
      rw [Grammar.primary, tokens, List.singleton_append, Grammar.atomOr, atom?_eq token.kind_mem]
      simp

theorem read_parenthesised (opening : Terminal [.leftParen]) {inner : ExprPhrase .expression}
    (closing : Terminal [.rightParen]) (read : inner.Read) :
    (parenthesised opening inner closing).Read := by
  intro depth rest
  cases depth with
  | zero => rfl
  | succ depth =>
      have notAtom : Grammar.atom? opening.token = none := by
        simp [Grammar.atom?, opening.kind_eq]
      have stops : Avoids expressionContinues (closing.token :: rest) :=
        closing.avoids (by decide) _
      rw [Grammar.primary, tokens, List.cons_append, Grammar.atomOr, notAtom]
      dsimp only
      rw [if_pos opening.kind_eq, List.append_assoc, List.singleton_append,
        bind_of_upTo (read depth _ stops), expect_bind _ _ _ closing.kind_eq]
      simp

/-- The rules read every phrase of an expression back. -/
theorem read {symbol : Symbol} (phrase : ExprPhrase symbol) : phrase.Read := by
  induction phrase with
  | plain value ih => exact read_plain ih
  | assignment target equals value ihTarget ihValue => exact read_assignment equals ihTarget ihValue
  | operation first more ihFirst ihMore => exact read_operation ihFirst ihMore
  | tightest value ih => exact read_tightest ih
  | noOperation => exact read_noOperation
  | nextOperation operator right more ihRight ihMore =>
      exact read_nextOperation operator ihRight ihMore
  | unaryOperation operator operand ih => exact read_unaryOperation operator ih
  | unaryCall value ih => exact read_unaryCall ih
  | call callee more ihCallee ihMore => exact read_call ihCallee ihMore
  | noCall => exact read_noCall
  | nextCall opening arguments closing more ihArguments ihMore =>
      exact read_nextCall opening closing ihArguments ihMore
  | noArguments => exact read_noArguments
  | someArguments list ih => exact read_someArguments ih
  | lastArgument value ih => exact read_lastArgument ih
  | nextArgument value comma list ihValue ihList => exact read_nextArgument comma ihValue ihList
  | atom token => exact read_atom token
  | parenthesised opening inner closing ih => exact read_parenthesised opening closing ih

end ExprPhrase

end Scriptlet
