import Scriptlet.Proofs.Cursor.Refinement
import Scriptlet.Proofs.Soundness.Expression
import Scriptlet.Proofs.Truncation.Grammar

/-!
# The cursor follows the grammar of expressions

A loop of the grammar is bounded by the tokens that are left, and a loop of the cursor is not
bounded at all. They come to the same, since every round reads some of the tokens.
-/

namespace Scriptlet

namespace Cursor

open Scriptlet.Parser

variable {α β : Type} {tokens : Tokens} {functions : Nat}

/-- A move that reads some of the tokens brings the cursor forward. -/
theorem position_lt_of_length_lt {start stop : Nat}
    (shorter : (tokens.drop stop).length < (tokens.drop start).length) : start < stop := by
  rw [List.length_drop, List.length_drop] at shorter
  omega

theorem recordExcess_refines (limit : Nat) (excess : SyntaxError.Cause) (count : Nat) :
    Refines tokens functions (noteExcess limit excess count)
      (tokens.recordExcess limit excess count) := by
  unfold noteExcess Tokens.recordExcess
  split
  · exact Refines.peek.bind fun token => .record excess token
  · exact .pure ()

/-- Items with commas between them are read one after the other, behind those that were read. -/
theorem separated_follows {limit : Nat} {excess : SyntaxError.Cause} {item : Parser α}
    {item' : Reader α} {more : List α → Reader (List α)}
    (round : ∀ values, more values = do
      tokens.recordExcess limit excess values.length
      let value ← item'
      if ← tokens.matches? [.comma] then more (values ++ [value])
      else return values ++ [value])
    (items : Refines tokens functions item item')
    (shorter : ∀ {input value rest noted}, item input = .done value rest noted →
      rest.length < input.length)
    {rounds : List Token} (isSome : rounds ≠ []) (values : List α) {cursor : Cursor}
    (isWithin : cursor.functions = functions)
    (enough : (tokens.drop cursor.position).length ≤ rounds.length) :
    Follows tokens cursor
      ((separated limit excess item rounds values.length >>= fun others =>
        pure (values ++ others)) (tokens.drop cursor.position))
      ((more values).run.run cursor) := by
  induction rounds generalizing values cursor with
  | nil => exact absurd rfl isSome
  | cons first rounds ih =>
      rw [round, separated_round]
      simp only [bind_assoc]
      apply (recordExcess_refines limit excess values.length isWithin).bind
      intro _ noted _ movedOver _
      have isWithin := movedOver.functions.trans isWithin
      apply (items isWithin).bind
      intro value after _ moved read
      have isWithin := moved.functions.trans isWithin
      have forward := position_lt_of_length_lt (shorter read)
      apply Follows.matches_bind (by decide) (by decide) (bind_of_halted rfl)
      · intro later token rest _ isOther isNext
        rw [accept_bind_of_not_mem _ _ isOther, ← isNext]
        exact .done (.refl later)
      · intro later token movedOn isComma isThere isToken
        rw [accept_bind_of_mem _ _ isComma]
        -- The item and the comma are two tokens, which leaves a round for the next item.
        have isBefore := (List.getElem?_eq_some_iff.1 isToken).1
        have forwardOver := movedOver.forward
        have shorter : (tokens.drop later.position).length < rounds.length := by
          rw [List.length_drop] at enough ⊢
          rw [List.length_cons] at enough
          omega
        have isSome : rounds ≠ [] := by
          rintro rfl
          exact absurd shorter (Nat.not_lt_zero _)
        have again := ih isSome (values ++ [value]) (movedOn.functions.trans isWithin)
          (Nat.le_of_lt shorter)
        simp only [bind_assoc, pure_bind]
        simpa using again

theorem commaList_refines {limit : Nat} {excess : SyntaxError.Cause} {item : Parser α}
    {item' : Reader α} {more : List α → Reader (List α)}
    (round : ∀ values, more values = do
      tokens.recordExcess limit excess values.length
      let value ← item'
      if ← tokens.matches? [.comma] then more (values ++ [value])
      else return values ++ [value])
    (items : Refines tokens functions item item')
    (shorter : ∀ {input value rest noted}, item input = .done value rest noted →
      rest.length < input.length) :
    Refines tokens functions (commaList limit excess item) (do
      if ← tokens.check .rightParen then return []
      more []) := by
  refine Refines.of_next (bind_of_halted rfl) (fun isEmpty => (check_runsOff isEmpty _).bind _)
    fun {cursor token rest} isWithin isNext => ?_
  apply Follows.reads_bind (check_reads isNext (by decide))
  intro after moved isSame
  rw [← isSame] at isNext
  rw [commaList, isNext_bind, ← isNext]
  by_cases isClosing : token.kind = .rightParen
  · rw [decide_eq_true isClosing]
    exact .done (.refl after)
  · have isSome : tokens.drop after.position ≠ [] := by simp [isNext]
    have follows := separated_follows round items shorter isSome []
      (moved.functions.trans isWithin) (Nat.le_refl _)
    rw [decide_eq_false isClosing]
    simpa [bounded] using follows

theorem operations_refines {tier : Tier} {operand : Parser Expr}
    (operands : Refines tokens functions operand (tokens.operand tier)) (left : Expr) :
    Refines tokens functions
      (bounded fun rounds => Parser.operations tier.operators operand tier.combine rounds left)
      (tokens.operations tier left) := by
  have isSome : tier.operators ≠ [] := by cases tier <;> decide
  apply Refines.loop (Parser.operations tier.operators operand tier.combine)
    (tokens.operations tier) fun _ => rfl
  · intro left position isEmpty
    rw [Tokens.operations]
    exact (matches_runsOff isEmpty isSome).bind _
  · intro _ rounds cursor left isWithin again
    rw [Parser.operations, Tokens.operations]
    apply Follows.matches_bind tier.eof_not_mem_operators isSome (bind_of_halted rfl)
    · intro after token rest _ isOther isNext
      rw [accept_bind_of_not_mem _ _ isOther, ← isNext]
      exact .done (.refl after)
    · intro after token moved isKind isThere isToken
      have reads := previous_reads isToken
      rw [← isThere] at reads
      rw [accept_bind_of_mem _ _ isKind]
      apply Follows.reads_bind reads
      intro later movedOn isSame
      rw [← isSame]
      apply (operands (movedOn.functions.trans (moved.functions.trans isWithin))).bind
      intro right last _ movedLast _
      have forward := movedLast.forward
      exact again _ (movedLast.functions.trans (movedOn.functions.trans
        (moved.functions.trans isWithin))) (by omega)

theorem arguments_refines {argument : Parser Expr}
    (arguments : Refines tokens functions argument tokens.expression)
    (shorter : ∀ {input value rest noted}, argument input = .done value rest noted →
      rest.length < input.length) :
    Refines tokens functions (commaList maxArguments .tooManyArguments argument)
      tokens.arguments := by
  rw [Tokens.arguments]
  exact commaList_refines (Tokens.moreArguments.eq_1 tokens) arguments shorter

/-- A call, after its opening parenthesis. -/
def finishedCall (argument : Parser Expr) (callee : Expr) : Parser Expr := do
  let arguments ← commaList maxArguments .tooManyArguments argument
  let paren ← expect .rightParen .parenAfterArguments
  return .call callee paren arguments

theorem calls_round (argument : Parser Expr) (round : Token) (rounds : List Token)
    (callee : Expr) :
    Grammar.calls argument (round :: rounds) callee = (do
      match ← accept [.leftParen] with
      | none => return callee
      | some _ => finishedCall argument callee >>= Grammar.calls argument rounds) := by
  rw [Grammar.calls]
  refine bind_congr fun opening => ?_
  cases opening with
  | none => rfl
  | some _ => simp only [finishedCall, bind_assoc, pure_bind]

theorem finishCall_refines {argument : Parser Expr}
    (arguments : Refines tokens functions argument tokens.expression)
    (shorter : ∀ {input value rest noted}, argument input = .done value rest noted →
      rest.length < input.length) (callee : Expr) :
    Refines tokens functions (finishedCall argument callee) (tokens.finishCall callee) := by
  rw [Tokens.finishCall]
  exact (arguments_refines arguments shorter).bind fun _ =>
    (Refines.consume (by decide) _).bind fun _ => .pure _

theorem calls_refines {argument : Parser Expr}
    (arguments : Refines tokens functions argument tokens.expression)
    (shorter : ∀ {input value rest noted}, argument input = .done value rest noted →
      rest.length < input.length) (callee : Expr) :
    Refines tokens functions (bounded fun rounds => Grammar.calls argument rounds callee)
      (tokens.calls callee) := by
  apply Refines.loop (Grammar.calls argument) tokens.calls fun _ => rfl
  · intro callee position isEmpty
    rw [Tokens.calls]
    exact (matches_runsOff isEmpty (by decide)).bind _
  · intro _ rounds cursor callee isWithin again
    rw [calls_round, Tokens.calls]
    apply Follows.matches_bind (by decide) (by decide) (bind_of_halted rfl)
    · intro after token rest _ isOther isNext
      rw [accept_bind_of_not_mem _ _ isOther, ← isNext]
      exact .done (.refl after)
    · intro after token moved isKind isThere isToken
      have isWithin := moved.functions.trans isWithin
      rw [accept_bind_of_mem _ _ isKind]
      apply (finishCall_refines arguments shorter callee isWithin).bind
      intro call last _ movedOn _
      have forward := movedOn.forward
      exact again _ (movedOn.functions.trans isWithin) (by omega)

/-- The kinds of tokens that a primary expression begins with. -/
def primaryKinds : List Token.Kind :=
  [.kwFalse, .kwTrue, .kwNull, .number, .string, .identifier, .leftParen]

theorem primaryKinds_eq : primaryKinds = Grammar.atomKinds ++ [.leftParen] := rfl

/-- What is read after the first token of a primary expression. -/
def atomThen (parenthesised : Parser Expr) : Option Token → Parser Expr
  | none => fail .expression
  | some token =>
    match Grammar.atom? token with
    | some expr => pure expr
    | none => parenthesised

theorem atomThen_of_some {token : Token} {expr : Expr} (isAtom : Grammar.atom? token = some expr)
    (parenthesised : Parser Expr) : atomThen parenthesised (some token) = pure expr := by
  rw [atomThen, isAtom]

theorem atomThen_of_none {token : Token} (isNone : Grammar.atom? token = none)
    (parenthesised : Parser Expr) : atomThen parenthesised (some token) = parenthesised := by
  rw [atomThen, isNone]

theorem atomOr_eq (parenthesised : Parser Expr) :
    Grammar.atomOr parenthesised = accept primaryKinds >>= atomThen parenthesised := by
  funext tokens
  cases tokens with
  | nil => rfl
  | cons token rest =>
      rw [Grammar.atomOr, primaryKinds_eq]
      by_cases isAtom : token.kind ∈ Grammar.atomKinds
      · have isMember := List.mem_append_left [.leftParen] isAtom
        rw [ExprPhrase.atom?_eq isAtom, accept_bind_of_mem _ _ isMember,
          atomThen_of_some (ExprPhrase.atom?_eq isAtom)]
        rfl
      · have isNone : Grammar.atom? token = none :=
          Option.eq_none_iff_forall_ne_some.2 fun _ isSome =>
            isAtom (ExprPhrase.atom?_eq_some isSome)
        rw [isNone]
        by_cases isParen : token.kind = .leftParen
        · have isMember := List.mem_append_right Grammar.atomKinds (List.mem_singleton.2 isParen)
          rw [accept_bind_of_mem _ _ isMember, atomThen_of_none isNone]
          exact if_pos isParen
        · have isOther : token.kind ∉ Grammar.atomKinds ++ [.leftParen] := by
            simp [isAtom, isParen]
          rewrite [accept_bind_of_not_mem _ _ isOther]
          exact if_neg isParen

/-- An atom is known by the kind of its token. -/
theorem atom_refines (build : Token → Expr) {kind : Token.Kind} {others : List Token.Kind}
    {parenthesised : Parser Expr} {next : Bool → Reader Expr} (notEnd : kind ≠ .eof)
    (isAtom : ∀ token : Token, token.kind = kind → Grammar.atom? token = some (build token))
    (some : ∀ token, RefinesBehind tokens functions token (pure (build token)) (next true))
    (none : Refines tokens functions (accept others >>= atomThen parenthesised) (next false)) :
    Refines tokens functions (accept (kind :: others) >>= atomThen parenthesised)
      (tokens.matches? [kind] >>= next) := by
  apply Refines.accept_bind_cons notEnd none
  intro token isKind
  rw [atomThen_of_some (isAtom token isKind)]
  exact some token

mutual

theorem expression_refines (depth functions : Nat) :
    Refines tokens functions (Grammar.expression depth) tokens.expression := by
  match depth with
  | 0 =>
      rw [Grammar.expression]
      exact .halt _
  | depth + 1 =>
      rw [Grammar.expression, Tokens.expression]
      apply (operation_refines depth .disjunction functions).bind
      intro target
      apply Refines.accept_bind (by decide) (by decide) (.pure target)
      intro equals _
      apply RefinesBehind.previous
      apply Refines.behind
      apply (expression_refines depth functions).bind
      intro value
      cases target with
      | read name => exact .pure _
      | literal _ | unary _ _ | binary _ _ _ | logical _ _ _ | grouping _ | assign _ _
      | call _ _ _ =>
          exact (Refines.record _ equals).bind fun _ => .pure _

theorem operation_refines (depth : Nat) (tier : Tier) (functions : Nat) :
    Refines tokens functions (Grammar.operation depth tier) (tokens.operation tier) := by
  match depth with
  | 0 =>
      rw [Grammar.operation]
      exact .halt _
  | depth + 1 =>
      have operands :
          Refines tokens functions (Grammar.operand depth tier) (tokens.operand tier) := by
        rw [Grammar.operand, Tokens.operand]
        cases tier.tighter? with
        | some tighter => exact operation_refines depth tighter functions
        | none => exact unary_refines depth functions
      rw [Grammar.operation_succ, Tokens.operation]
      exact operands.bind fun first => operations_refines operands first

theorem unary_refines (depth functions : Nat) :
    Refines tokens functions (Grammar.unary depth) tokens.unary := by
  match depth with
  | 0 =>
      rw [Grammar.unary]
      exact .halt _
  | depth + 1 =>
      rw [Grammar.unary, Tokens.unary]
      apply Refines.accept_bind (by decide) (by decide) (call_refines depth functions)
      intro operator _
      apply RefinesBehind.previous
      exact ((unary_refines depth functions).bind fun operand => .pure _).behind operator

theorem call_refines (depth functions : Nat) :
    Refines tokens functions (Grammar.call depth) tokens.call := by
  match depth with
  | 0 =>
      rw [Grammar.call]
      exact .halt _
  | depth + 1 =>
      rw [Grammar.call, Tokens.call]
      exact (primary_refines depth functions).bind fun callee =>
        calls_refines (expression_refines depth functions) Grammar.expression_length_lt callee

theorem primary_refines (depth functions : Nat) :
    Refines tokens functions (Grammar.primary depth) tokens.primary := by
  match depth with
  | 0 =>
      rw [Grammar.primary]
      exact .halt _
  | depth + 1 =>
      rw [Grammar.primary, Tokens.primary, atomOr_eq, primaryKinds]
      -- The cursor asks for one kind after the other, in the order of the list.
      apply atom_refines (fun _ => .literal (.bool false)) (by decide)
      · intro token isFalse
        simp only [Grammar.atom?, isFalse]
      · exact (Refines.pure _).behind
      apply atom_refines (fun _ => .literal (.bool true)) (by decide)
      · intro token isTrue
        simp only [Grammar.atom?, isTrue]
      · exact (Refines.pure _).behind
      apply atom_refines (fun _ => .literal .null) (by decide)
      · intro token isNull
        simp only [Grammar.atom?, isNull]
      · exact (Refines.pure _).behind
      change Refines tokens functions
        (accept ([.number, .string] ++ [.identifier, .leftParen]) >>= _) _
      apply Refines.accept_bind_append (by decide) (by decide)
      swap
      · intro token isKind
        have isAtom : Grammar.atom? token = some (.literal token.literal) := by
          rcases List.mem_pair.1 isKind with isNumber | isString
          · simp only [Grammar.atom?, isNumber]
          · simp only [Grammar.atom?, isString]
        rw [atomThen_of_some isAtom, if_pos rfl]
        apply RefinesBehind.previous
        exact (Refines.pure _).behind token
      apply atom_refines .read (by decide)
      · intro token isName
        simp only [Grammar.atom?, isName]
      · intro token
        rw [if_pos rfl]
        apply RefinesBehind.previous
        exact (Refines.pure _).behind token
      apply Refines.accept_bind (by decide) (by decide) (.reject _)
      intro token isKind
      have isNone : Grammar.atom? token = none := by
        simp only [Grammar.atom?, List.mem_singleton.1 isKind]
      rw [atomThen_of_none isNone]
      apply Refines.behind
      exact (expression_refines depth functions).bind fun inner =>
        (Refines.consume (by decide) _).bind fun _ => .pure _

end

end Cursor

end Scriptlet
