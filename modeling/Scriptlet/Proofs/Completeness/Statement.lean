import Scriptlet.Grammar.Statement
import Scriptlet.Proofs.Completeness.Expression
import Scriptlet.Proofs.Phrase.Statement

/-!
# Statements are read back

The rules of the grammar read every phrase of a statement back (`StmtPhrase.read`). A statement can
be followed by anything but an `else` that it could take. The declarations of a block or a program
are read up to the token that ends them.
-/

namespace Scriptlet

open Scriptlet.Parser
open Grammar (expressionContinues expressionOpeners)

namespace ExprPhrase

/-- An expression and its semicolon are read back. -/
theorem read_terminated (value : ExprPhrase .expression) (semicolon : Terminal [.semicolon])
    (missing : Missing) (depth : Nat) (rest : List Token) :
    Grammar.terminated depth missing (value.tokens ++ semicolon.token :: rest) =
      (Reply.done value.tree rest value.errors).upTo value.height depth := by
  have stops : Avoids expressionContinues (semicolon.token :: rest) :=
    semicolon.avoids (by decide) rest
  rw [Grammar.terminated, bind_of_upTo (value.read depth _ stops),
    expect_bind _ _ _ semicolon.kind_eq]
  simp

/-- A condition in parentheses is read back. -/
theorem read_condition (value : ExprPhrase .expression) (opening : Terminal [.leftParen])
    (closing : Terminal [.rightParen]) (before after : Missing) (depth : Nat)
    (rest : List Token) :
    Grammar.condition depth before after
        (opening.token :: (value.tokens ++ closing.token :: rest)) =
      (Reply.done value.tree rest value.errors).upTo value.height depth := by
  have stops : Avoids expressionContinues (closing.token :: rest) :=
    closing.avoids (by decide) rest
  rw [Grammar.condition, expect_bind _ _ _ opening.kind_eq,
    bind_of_upTo (value.read depth _ stops), expect_bind _ _ _ closing.kind_eq]
  simp

end ExprPhrase

/-- An optional expression is read back up to the token that ends it. -/
theorem OptionalPhrase.read (phrase : OptionalPhrase) {stop : Token.Kind} (ending : Terminal [stop])
    (endsExpression : stop ∉ expressionContinues) (notStart : stop ∉ expressionOpeners)
    (depth : Nat) (rest : List Token) :
    Grammar.optional depth stop (phrase.tokens ++ ending.token :: rest) =
      (Reply.done phrase.tree (ending.token :: rest) phrase.errors).upTo phrase.height depth := by
  cases phrase with
  | none =>
      rw [Grammar.optional, tokens, Option.elim_none, List.nil_append, isNext_bind,
        decide_eq_true ending.kind_eq]
      simp [tree, errors, height]
  | some value =>
      have stops := ending.avoids endsExpression rest
      have begins : Avoids [stop] (value.tokens ++ ending.token :: rest) :=
        ((value.beginsWith rfl).append _).avoids fun kind isStart isStop =>
          notStart (List.mem_singleton.mp isStop ▸ isStart)
      rw [Grammar.optional, tokens, Option.elim_some, isNext_bind_of_avoids _ begins,
        if_neg Bool.false_ne_true, bind_of_upTo (value.read depth _ stops)]
      simp [tree, errors, height]

/-- A declaration of a variable is read back after its keyword. -/
theorem VariablePhrase.read (phrase : VariablePhrase) (depth : Nat) (rest : List Token) :
    Grammar.variableDeclaration depth (phrase.tail ++ rest) =
      (Reply.done phrase.tree rest phrase.value.errors).upTo phrase.value.height depth := by
  rcases phrase with ⟨keyword, name, initializer, semicolon⟩
  cases initializer with
  | none =>
      rw [Grammar.variableDeclaration, tail, List.cons_append, expect_bind _ _ _ name.kind_eq]
      dsimp only [Option.elim_none, List.nil_append, List.singleton_append]
      rw [accept_bind_of_avoids _ (semicolon.avoids (by decide) rest)]
      dsimp only
      rw [expect_bind _ _ _ semicolon.kind_eq]
      simp [tree, value, OptionalPhrase.tree, OptionalPhrase.errors, OptionalPhrase.height]
  | some assigned =>
      rcases assigned with ⟨equals, value⟩
      rw [Grammar.variableDeclaration, tail, List.cons_append, expect_bind _ _ _ name.kind_eq]
      dsimp only [Option.elim_some]
      rw [List.append_assoc, List.cons_append, accept_bind_of_mem _ _ equals.kind_mem]
      dsimp only
      rw [List.singleton_append,
        bind_of_upTo (value.read_terminated semicolon .semicolonAfterDeclaration depth rest)]
      simp [tree, VariablePhrase.value, OptionalPhrase.tree, OptionalPhrase.errors,
        OptionalPhrase.height]

/-- The first clause of a `for` loop is read back. -/
theorem ClausePhrase.read (phrase : ClausePhrase) (depth : Nat) (rest : List Token) :
    Grammar.initializer depth (phrase.tokens ++ rest) =
      (Reply.done phrase.tree rest phrase.value.errors).upTo phrase.value.height depth := by
  cases phrase with
  | absent semicolon =>
      have mem : semicolon.token.kind ∈ [.semicolon, .kwVar] := by simp [semicolon.kind_eq]
      rw [Grammar.initializer, tokens, List.singleton_append, accept_bind_of_mem _ _ mem]
      dsimp only
      rw [if_pos semicolon.kind_eq]
      simp [tree, value, OptionalPhrase.errors, OptionalPhrase.height]
  | declaration phrase =>
      have mem : phrase.keyword.token.kind ∈ [.semicolon, .kwVar] := by
        simp [phrase.keyword.kind_eq]
      have notSemicolon : ¬phrase.keyword.token.kind = .semicolon := by
        simp [phrase.keyword.kind_eq]
      rw [Grammar.initializer, tokens, VariablePhrase.tokens, List.cons_append,
        accept_bind_of_mem _ _ mem]
      dsimp only
      rw [if_neg notSemicolon, bind_of_upTo (phrase.read depth rest)]
      simp [tree, value]
  | expression value semicolon =>
      have begins : Avoids [.semicolon, .kwVar] (value.tokens ++ semicolon.token :: rest) :=
        ((value.beginsWith rfl).append _).avoids (by decide)
      rw [Grammar.initializer, tokens, List.append_assoc, List.singleton_append,
        accept_bind_of_avoids _ begins]
      dsimp only
      rw [Grammar.expressionStatement, Parser.bind_assoc,
        bind_of_upTo (value.read_terminated semicolon .semicolonAfterExpression depth rest)]
      simp [tree, ClausePhrase.value, OptionalPhrase.errors, OptionalPhrase.height]

namespace ParameterPhrase

theorem beginsWith (phrase : ParameterPhrase) : BeginsWith [.identifier] phrase.tokens := by
  cases phrase with
  | last name => exact ⟨_, _, rfl, name.kind_mem⟩
  | next name comma rest => exact ⟨_, _, rfl, name.kind_mem⟩

/-- The first of some names is too many when there are enough before it. -/
theorem map_drop_cons (count : Nat) (name : Token) (names after : List Token) :
    ((name :: names).drop (maxParameters - count)).map (SyntaxError.mk .tooManyParameters) =
      ExprPhrase.excessErrors maxParameters .tooManyParameters count (name :: after) ++
        (names.drop (maxParameters - (count + 1))).map (SyntaxError.mk .tooManyParameters) := by
  unfold ExprPhrase.excessErrors
  split
  · rw [Nat.sub_eq_zero_of_le ‹_›, Nat.sub_eq_zero_of_le (by omega)]
    rfl
  · obtain ⟨left, isLeft⟩ : ∃ left, maxParameters - count = left + 1 :=
      ⟨maxParameters - (count + 1), by omega⟩
    rw [isLeft, List.drop_succ_cons, List.nil_append]
    congr 2
    omega

/-- A list of parameters is read back, and each of those that are too many is noted down. -/
theorem read (phrase : ParameterPhrase) {rest rounds : List Token} (count : Nat)
    (ends : BeginsWith [.rightParen] rest) (enough : phrase.tokens.length < rounds.length) :
    separated maxParameters .tooManyParameters (expect .identifier .parameterName) rounds count
        (phrase.tokens ++ rest) =
      .done phrase.names rest
        ((phrase.names.drop (maxParameters - count)).map (SyntaxError.mk .tooManyParameters)) := by
  induction phrase generalizing rounds count with
  | last name =>
      cases rounds with
      | nil => contradiction
      | cons round rounds =>
          have stops : Avoids [.comma] rest := ends.avoids (by decide)
          rw [separated_cons _ _ _ _ _ _ ((last name).beginsWith.append rest), tokens,
            List.singleton_append, expect_bind _ _ _ name.kind_eq, accept_bind_of_avoids _ stops,
            names, map_drop_cons count name.token [] rest]
          simp
  | next name comma list ih =>
      cases rounds with
      | nil => contradiction
      | cons round rounds =>
          have enoughRest : list.tokens.length < rounds.length := by
            simp only [tokens, List.length_cons] at enough
            omega
          rw [separated_cons _ _ _ _ _ _ ((next name comma list).beginsWith.append rest), tokens,
            List.cons_append, List.cons_append, expect_bind _ _ _ name.kind_eq,
            accept_bind_of_mem _ _ comma.kind_mem]
          dsimp only
          rw [bind_of_done (ih (count + 1) enoughRest), names,
            map_drop_cons count name.token list.names (comma.token :: (list.tokens ++ rest))]
          simp

end ParameterPhrase

/-- The head of a function is read back. -/
theorem HeadPhrase.read (phrase : HeadPhrase) (rest : List Token) :
    Grammar.functionHead (phrase.tokens ++ rest) =
      .done (phrase.name.token, phrase.parameters) rest phrase.errors := by
  rcases phrase with ⟨name, opening, list, closing, brace⟩
  have ends : BeginsWith [.rightParen] (closing.token :: brace.token :: rest) :=
    ⟨_, _, rfl, closing.kind_mem⟩
  have listRead : commaList maxParameters .tooManyParameters (expect .identifier .parameterName)
      (list.elim [] ParameterPhrase.tokens ++ closing.token :: brace.token :: rest) =
        .done (list.elim [] ParameterPhrase.names) (closing.token :: brace.token :: rest)
          (((list.elim [] ParameterPhrase.names).drop maxParameters).map
            (SyntaxError.mk .tooManyParameters)) := by
    cases list with
    | none =>
        rw [commaList, Option.elim_none, List.nil_append, isNext_bind,
          decide_eq_true closing.kind_eq]
        simp
    | some list =>
        have begins : Avoids [.rightParen]
            (list.tokens ++ closing.token :: brace.token :: rest) :=
          (list.beginsWith.append _).avoids (by decide)
        rw [commaList, Option.elim_some, isNext_bind_of_avoids _ begins]
        exact list.read 0 ends (by simp)
  rw [Grammar.functionHead, tokens, List.cons_append, List.cons_append,
    expect_bind _ _ _ name.kind_eq, expect_bind _ _ _ opening.kind_eq]
  dsimp only
  rw [List.append_assoc, List.cons_append, List.singleton_append, bind_of_done listRead,
    expect_bind _ _ _ closing.kind_eq, expect_bind _ _ _ brace.kind_eq]
  simp [errors, parameters]

namespace Grammar

/-- The kinds of tokens that a statement begins with. -/
def statementOpeners : List Token.Kind :=
  [.kwPrint, .leftBrace, .kwIf, .kwWhile, .kwFor, .kwReturn] ++ expressionOpeners

/-- The kinds of tokens that a declaration begins with. -/
def declarationOpeners : List Token.Kind :=
  [.kwVar, .kwFun] ++ statementOpeners

end Grammar

open Grammar (statementOpeners declarationOpeners)

theorem Parser.recovering_of_upTo {α : Type} {parser : Parser α} {tokens rest : List Token}
    {value : α} {noted : List SyntaxError} {height depth : Nat}
    (read : parser tokens = (Reply.done value rest noted).upTo height depth) :
    recovering parser tokens = (Reply.done (some value) rest noted).upTo height depth := by
  unfold Reply.upTo at read ⊢
  unfold recovering
  split at read <;> rw [read] <;> simp [*]

namespace StmtPhrase

/-- The first token of a statement tells that it is one. -/
theorem beginsWith_statement {endsOpen : Bool} (phrase : StmtPhrase (.statement endsOpen)) :
    BeginsWith statementOpeners phrase.tokens := by
  cases phrase with
  | expression value semicolon =>
      exact ((value.beginsWith rfl).append _).mono (List.subset_append_right ..)
  | print keyword => exact ⟨_, _, rfl, by rw [keyword.kind_eq]; decide⟩
  | block opening => exact ⟨_, _, rfl, by rw [opening.kind_eq]; decide⟩
  | ifThen keyword => exact ⟨_, _, rfl, by rw [keyword.kind_eq]; decide⟩
  | ifElse keyword => exact ⟨_, _, rfl, by rw [keyword.kind_eq]; decide⟩
  | whileDo keyword => exact ⟨_, _, rfl, by rw [keyword.kind_eq]; decide⟩
  | forLoop keyword => exact ⟨_, _, rfl, by rw [keyword.kind_eq]; decide⟩
  | ret keyword => exact ⟨_, _, rfl, by rw [keyword.kind_eq]; decide⟩

/-- The first token of a declaration tells that it is one. -/
theorem beginsWith_declaration (phrase : StmtPhrase .declaration) :
    BeginsWith declarationOpeners phrase.tokens := by
  cases phrase with
  | declare phrase => exact ⟨_, _, rfl, by rw [phrase.keyword.kind_eq]; decide⟩
  | function keyword => exact ⟨_, _, rfl, by rw [keyword.kind_eq]; decide⟩
  | statement phrase => exact phrase.beginsWith_statement.mono (List.subset_append_right ..)

/--
That the rules read a phrase back, whatever follows it, unless an `else` follows an `if` without
one. Declarations are read up to the token that ends them.
-/
def Read : {symbol : Symbol} → StmtPhrase symbol → Prop
  | .declaration, phrase =>
    ∀ depth inFunction rest, Avoids [.kwElse] rest →
      Grammar.declaration depth inFunction (phrase.tokens ++ rest) =
        (Reply.done (some phrase.tree) rest (phrase.errors inFunction)).upTo phrase.height depth
  | .declarations, phrase =>
    ∀ stop depth inFunction rest (rounds : List Token), stop ∈ [.rightBrace, .eof] →
      BeginsWith [stop] rest → phrase.tokens.length < rounds.length →
      statements stop (Grammar.declaration depth inFunction) rounds (phrase.tokens ++ rest) =
        (Reply.done phrase.tree rest (phrase.errors inFunction)).upTo phrase.height depth
  | .statement endsOpen, phrase =>
    ∀ depth inFunction rest, (endsOpen = true → Avoids [.kwElse] rest) →
      Grammar.statement depth inFunction (phrase.tokens ++ rest) =
        (Reply.done phrase.tree rest (phrase.errors inFunction)).upTo phrase.height depth

theorem read_declare (phrase : VariablePhrase) : (declare phrase).Read := by
  intro depth inFunction rest _
  cases depth with
  | zero => rfl
  | succ depth =>
      have mem : phrase.keyword.token.kind ∈ [.kwVar, .kwFun] := by
        simp [phrase.keyword.kind_eq]
      rw [Grammar.declaration]
      refine recovering_of_upTo ?_
      rw [tokens, VariablePhrase.tokens, List.cons_append, accept_bind_of_mem _ _ mem]
      dsimp only
      rw [if_pos phrase.keyword.kind_eq, phrase.read depth rest]
      simp

theorem read_block {body : StmtPhrase .declarations} (closing : Terminal [.rightBrace])
    (read : body.Read) (depth : Nat) (inFunction : Bool) (rest : List Token) :
    Grammar.block depth inFunction (body.tokens ++ closing.token :: rest) =
      (Reply.done body.tree rest (body.errors inFunction)).upTo (body.height + 1) depth := by
  cases depth with
  | zero => rfl
  | succ depth =>
      have bodyRead := read .rightBrace depth inFunction (closing.token :: rest)
        (body.tokens ++ closing.token :: rest) (by decide) ⟨_, _, rfl, closing.kind_mem⟩ (by simp)
      rw [Grammar.block, bind_of_upTo (by exact bodyRead), expect_bind _ _ _ closing.kind_eq]
      simp

theorem read_function (keyword : Terminal [.kwFun]) (head : HeadPhrase)
    {body : StmtPhrase .declarations} (closing : Terminal [.rightBrace]) (read : body.Read) :
    (function keyword head body closing).Read := by
  intro depth inFunction rest _
  cases depth with
  | zero => rfl
  | succ depth =>
      have mem : keyword.token.kind ∈ [.kwVar, .kwFun] := by simp [keyword.kind_eq]
      have notVar : ¬keyword.token.kind = .kwVar := by simp [keyword.kind_eq]
      rw [Grammar.declaration]
      refine recovering_of_upTo ?_
      rw [tokens, List.cons_append, accept_bind_of_mem _ _ mem]
      dsimp only
      rw [if_neg notVar, List.append_assoc, bind_of_done (head.read _)]
      dsimp only
      rw [List.append_assoc, List.singleton_append,
        bind_of_upTo (read_block closing read depth true rest)]
      simp

theorem read_statement {endsOpen : Bool} {phrase : StmtPhrase (.statement endsOpen)}
    (read : phrase.Read) : (statement phrase).Read := by
  intro depth inFunction rest avoids
  cases depth with
  | zero => rfl
  | succ depth =>
      have begins : Avoids [.kwVar, .kwFun] (phrase.tokens ++ rest) :=
        (phrase.beginsWith_statement.append rest).avoids (by decide)
      rw [Grammar.declaration]
      refine recovering_of_upTo ?_
      rw [tokens, accept_bind_of_avoids _ begins]
      dsimp only
      rw [read depth inFunction rest (fun _ => avoids)]
      simp

theorem read_noDeclaration : noDeclaration.Read := by
  rintro stop depth inFunction rest rounds _ ⟨ending, others, rfl, isStop⟩ enough
  cases rounds with
  | nil => contradiction
  | cons round rounds =>
      rw [statements, tokens, List.nil_append, peek_bind,
        if_pos (Or.inr (List.mem_singleton.mp isStop))]
      simp

/-- No `else` follows a declaration. -/
theorem avoids_declarations (phrase : StmtPhrase .declarations) {rest : List Token}
    {stop : Token.Kind} (isStop : stop ∈ [.rightBrace, .eof]) (ends : BeginsWith [stop] rest) :
    Avoids [.kwElse] (phrase.tokens ++ rest) := by
  cases phrase with
  | noDeclaration =>
      have subset : [stop] ⊆ [.rightBrace, .eof] := by simpa using isStop
      exact (ends.mono subset).avoids (by decide)
  | nextDeclaration first others =>
      exact ((first.beginsWith_declaration.append _).append rest).avoids (by decide)

theorem read_nextDeclaration {first : StmtPhrase .declaration}
    {others : StmtPhrase .declarations} (readFirst : first.Read) (readOthers : others.Read) :
    (nextDeclaration first others).Read := by
  intro stop depth inFunction rest rounds isStop ends enough
  cases rounds with
  | nil => contradiction
  | cons round rounds =>
      rcases first.beginsWith_declaration with ⟨opener, inner, begins, isOpener⟩
      have enoughOthers : others.tokens.length < rounds.length := by
        simp only [tokens, begins, List.length_cons, List.length_append] at enough
        omega
      -- What ends declarations does not begin one.
      have disjoint : ∀ kind ∈ declarationOpeners, kind ∉ [Token.Kind.rightBrace, .eof] := by
        decide
      have goesOn : ¬(opener.kind = .eof ∨ opener.kind = stop) := by
        rintro (isEof | isStopKind)
        · exact disjoint _ isOpener (by simp [isEof])
        · exact disjoint _ isOpener (isStopKind ▸ isStop)
      have firstRead := readFirst depth inFunction _ (avoids_declarations others isStop ends)
      have othersRead := readOthers stop depth inFunction rest rounds isStop ends enoughOthers
      rw [tokens, List.append_assoc]
      rw [begins, List.cons_append] at firstRead ⊢
      rw [statements, peek_bind, if_neg goesOn, bind_of_upTo firstRead, bind_of_upTo othersRead]
      simp

theorem read_expression (value : ExprPhrase .expression) (semicolon : Terminal [.semicolon]) :
    (expression value semicolon).Read := by
  intro depth inFunction rest _
  cases depth with
  | zero => rfl
  | succ depth =>
      have begins : Avoids [.kwPrint, .leftBrace, .kwIf, .kwWhile, .kwFor, .kwReturn]
          (value.tokens ++ semicolon.token :: rest) :=
        ((value.beginsWith rfl).append _).avoids (by decide)
      rw [Grammar.statement, tokens, List.append_assoc, List.singleton_append,
        accept_bind_of_avoids _ begins]
      dsimp only
      rw [Grammar.expressionStatement,
        bind_of_upTo (value.read_terminated semicolon .semicolonAfterExpression depth rest)]
      simp

theorem read_print (keyword : Terminal [.kwPrint]) (value : ExprPhrase .expression)
    (semicolon : Terminal [.semicolon]) : (print keyword value semicolon).Read := by
  intro depth inFunction rest _
  cases depth with
  | zero => rfl
  | succ depth =>
      rw [Grammar.statement, tokens, List.cons_append, List.append_assoc, List.singleton_append,
        accept_bind_of_mem _ _ (by simp [keyword.kind_eq])]
      simp only [keyword.kind_eq]
      rw [bind_of_upTo (value.read_terminated semicolon .semicolonAfterValue depth rest)]
      simp

theorem read_blockStatement (opening : Terminal [.leftBrace]) {body : StmtPhrase .declarations}
    (closing : Terminal [.rightBrace]) (read : body.Read) : (block opening body closing).Read := by
  intro depth inFunction rest _
  cases depth with
  | zero => rfl
  | succ depth =>
      rw [Grammar.statement, tokens, List.cons_append, List.append_assoc, List.singleton_append,
        accept_bind_of_mem _ _ (by simp [opening.kind_eq])]
      simp only [opening.kind_eq]
      rw [bind_of_upTo (read_block closing read depth inFunction rest)]
      simp

theorem read_ifThen {endsOpen : Bool} (keyword : Terminal [.kwIf])
    (opening : Terminal [.leftParen]) (condition : ExprPhrase .expression)
    (closing : Terminal [.rightParen]) {thenBranch : StmtPhrase (.statement endsOpen)}
    (read : thenBranch.Read) : (ifThen keyword opening condition closing thenBranch).Read := by
  intro depth inFunction rest avoids
  cases depth with
  | zero => rfl
  | succ depth =>
      have stops := avoids rfl
      have thenRead := read depth inFunction rest (fun _ => stops)
      rw [Grammar.statement, tokens, List.cons_append,
        accept_bind_of_mem _ _ (by simp [keyword.kind_eq])]
      simp only [keyword.kind_eq]
      rw [List.cons_append, List.append_assoc, List.cons_append,
        bind_of_upTo (condition.read_condition opening closing _ _ depth _),
        bind_of_upTo thenRead, accept_bind_of_avoids _ stops]
      simp

theorem read_ifElse {endsOpen : Bool} (keyword : Terminal [.kwIf])
    (opening : Terminal [.leftParen]) (condition : ExprPhrase .expression)
    (closing : Terminal [.rightParen]) {thenBranch : StmtPhrase (.statement false)}
    (otherwise : Terminal [.kwElse]) {elseBranch : StmtPhrase (.statement endsOpen)}
    (readThen : thenBranch.Read) (readElse : elseBranch.Read) :
    (ifElse keyword opening condition closing thenBranch otherwise elseBranch).Read := by
  intro depth inFunction rest avoids
  cases depth with
  | zero => rfl
  | succ depth =>
      have thenRead := readThen depth inFunction (otherwise.token :: (elseBranch.tokens ++ rest))
        (by simp)
      have elseRead := readElse depth inFunction rest avoids
      rw [Grammar.statement, tokens, List.cons_append,
        accept_bind_of_mem _ _ (by simp [keyword.kind_eq])]
      simp only [keyword.kind_eq]
      rw [List.cons_append, List.append_assoc, List.cons_append, List.append_assoc,
        List.cons_append, bind_of_upTo (condition.read_condition opening closing _ _ depth _),
        bind_of_upTo thenRead, accept_bind_of_mem _ _ otherwise.kind_mem]
      dsimp only
      rw [bind_of_upTo elseRead]
      simp

theorem read_whileDo {endsOpen : Bool} (keyword : Terminal [.kwWhile])
    (opening : Terminal [.leftParen]) (condition : ExprPhrase .expression)
    (closing : Terminal [.rightParen]) {body : StmtPhrase (.statement endsOpen)}
    (read : body.Read) : (whileDo keyword opening condition closing body).Read := by
  intro depth inFunction rest avoids
  cases depth with
  | zero => rfl
  | succ depth =>
      rw [Grammar.statement, tokens, List.cons_append,
        accept_bind_of_mem _ _ (by simp [keyword.kind_eq])]
      simp only [keyword.kind_eq]
      rw [List.cons_append, List.append_assoc, List.cons_append,
        bind_of_upTo (condition.read_condition opening closing _ _ depth _),
        bind_of_upTo (read depth inFunction rest avoids)]
      simp

theorem read_forLoop {endsOpen : Bool} (keyword : Terminal [.kwFor])
    (opening : Terminal [.leftParen]) (first : ClausePhrase) (condition : OptionalPhrase)
    (semicolon : Terminal [.semicolon]) (increment : OptionalPhrase)
    (closing : Terminal [.rightParen]) {body : StmtPhrase (.statement endsOpen)}
    (read : body.Read) :
    (forLoop keyword opening first condition semicolon increment closing body).Read := by
  intro depth inFunction rest avoids
  cases depth with
  | zero => rfl
  | succ depth =>
      have conditionRead := condition.read semicolon (by decide) (by decide) depth
        (increment.tokens ++ closing.token :: (body.tokens ++ rest))
      have incrementRead := increment.read closing (by decide) (by decide) depth
        (body.tokens ++ rest)
      rw [Grammar.statement, tokens, tree_forLoop, List.cons_append,
        accept_bind_of_mem _ _ (by simp [keyword.kind_eq])]
      simp only [keyword.kind_eq]
      rw [List.cons_append, expect_bind _ _ _ opening.kind_eq, List.append_assoc,
        bind_of_upTo (first.read depth _), List.append_assoc, List.cons_append, List.append_assoc,
        List.cons_append, bind_of_upTo conditionRead, expect_bind _ _ _ semicolon.kind_eq,
        bind_of_upTo incrementRead, expect_bind _ _ _ closing.kind_eq,
        bind_of_upTo (read depth inFunction rest avoids)]
      simp

/-- A return is noted down outside of a function, and then read. -/
theorem returnStatement_apply (depth : Nat) (inFunction : Bool) (keyword : Token)
    (tokens : List Token) :
    Grammar.returnStatement depth inFunction keyword tokens =
      ((Grammar.optional depth .semicolon >>= fun value =>
        expect .semicolon .semicolonAfterReturnValue >>= fun _ =>
          pure (Stmt.ret keyword value)) tokens).noting
        (if inFunction then [] else [⟨.topLevelReturn, keyword⟩]) := by
  cases inFunction with
  | true => exact (Reply.noting_nil _).symm
  | false => rfl

theorem read_ret (keyword : Terminal [.kwReturn]) (value : OptionalPhrase)
    (semicolon : Terminal [.semicolon]) : (ret keyword value semicolon).Read := by
  intro depth inFunction rest _
  cases depth with
  | zero => rfl
  | succ depth =>
      have valueRead := value.read semicolon (by decide) (by decide) depth rest
      rw [Grammar.statement, tokens, List.cons_append, List.append_assoc, List.singleton_append,
        accept_bind_of_mem _ _ (by simp [keyword.kind_eq])]
      simp only [keyword.kind_eq]
      rw [returnStatement_apply, bind_of_upTo valueRead, expect_bind _ _ _ semicolon.kind_eq]
      simp

/-- The rules read every phrase of a statement back. -/
theorem read {symbol : Symbol} (phrase : StmtPhrase symbol) : phrase.Read := by
  induction phrase with
  | declare phrase => exact read_declare phrase
  | function keyword head body closing ih => exact read_function keyword head closing ih
  | statement phrase ih => exact read_statement ih
  | noDeclaration => exact read_noDeclaration
  | nextDeclaration first others ihFirst ihOthers => exact read_nextDeclaration ihFirst ihOthers
  | expression value semicolon => exact read_expression value semicolon
  | print keyword value semicolon => exact read_print keyword value semicolon
  | block opening body closing ih => exact read_blockStatement opening closing ih
  | ifThen keyword opening condition closing thenBranch ih =>
      exact read_ifThen keyword opening condition closing ih
  | ifElse keyword opening condition closing thenBranch otherwise elseBranch ihThen ihElse =>
      exact read_ifElse keyword opening condition closing otherwise ihThen ihElse
  | whileDo keyword opening condition closing body ih =>
      exact read_whileDo keyword opening condition closing ih
  | forLoop keyword opening first condition semicolon increment closing body ih =>
      exact read_forLoop keyword opening first condition semicolon increment closing ih
  | ret keyword value semicolon => exact read_ret keyword value semicolon

end StmtPhrase

end Scriptlet
