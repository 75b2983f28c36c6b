import Scriptlet.Proofs.Correspondence.Grammar
import Scriptlet.Proofs.Truncation

/-!
# The end of parsing

However the tokens stand, reading them comes to an end, and the end is the first end mark: what is
behind it makes no difference. Only where there is no end mark does reading fail.
-/

namespace Scriptlet

open Scriptlet.Parser

variable {ending : Ending}

namespace Tier

/-- How many rules may have to nest below the operations of a level, without reading a token. -/
def level : Tier → Nat
  | disjunction => 9
  | conjunction => 8
  | equality => 7
  | comparison => 6
  | sum => 5
  | product => 4

theorem level_tighter {tier tighter : Tier} (isTighter : tier.tighter? = some tighter) :
    tighter.level < tier.level := by
  cases tier <;> cases isTighter <;> decide

theorem eof_not_mem_operators (tier : Tier) : .eof ∉ tier.operators := by
  cases tier <;> decide

end Tier

namespace Grammar

theorem calls_cut {depth level : Nat} {argument argument' : Parser Expr}
    (arguments : Cut ending depth level 0 argument argument') (callee : Expr) :
    Cut ending depth level 0 (bounded fun rounds => calls argument rounds callee)
      (bounded fun rounds => calls argument' rounds callee) := by
  apply Cut.loop (calls argument) (calls argument') fun _ => rfl
  intro _ _ rounds rounds' body callee endless again
  apply Reply.Cut.accept_bind (by decide) (Cut.pure callee endless)
  rintro opening rest rfl _
  have isRest := List.suffix_cons opening rest
  have endless' := endless.of_suffix isRest
  have arguments := arguments.commaList maxArguments .tooManyArguments
  apply ((arguments endless').weaken (by omega) (Nat.le_refl 0)).bind
  intro values later isLater shorter
  apply (Cut.expect (by decide) _ (endless'.of_suffix isLater)).bind
  intro paren last isLast shorterStill
  have fewer : last.length + 1 ≤ (opening :: rest).length := by
    rw [List.length_cons]
    omega
  exact (again _ (isLast.trans (isLater.trans isRest)) fewer).weaken (by omega) (by omega)

theorem assignment_cut {depth level : Nat} (target : Expr) (equals : Token) (value : Expr) :
    Cut ending depth level 0 (assignment target equals value) (assignment target equals value) := by
  unfold assignment
  split
  · exact .pure _
  · exact (Cut.note _ equals).bind fun _ => .pure target

theorem atomOr_cut {depth level : Nat} {parenthesised parenthesised' : Parser Expr}
    (inner : Cut ending depth (level + 10) 0 parenthesised parenthesised') :
    Cut ending depth level 1 (atomOr parenthesised) (atomOr parenthesised') := by
  intro body endless
  apply Reply.Cut.of_first rfl
  · intro behind isTail _
    simp only [atomOr, atom?, ending.isMark]
    exact .failed_mark isTail _
  · rintro token rest rfl
    have isRest := List.suffix_cons token rest
    rw [atomOr, atomOr]
    split
    · exact .done isRest (Nat.le_refl _)
    · split
      · exact (inner (endless.of_suffix isRest)).lift isRest (Nat.le_refl _)
      · exact .failed (List.suffix_refl (token :: rest))

mutual

theorem expression_cut {depth deeper : Nat} (isDeeper : depth ≤ deeper) :
    Cut ending depth 10 1 (expression depth) (expression deeper) := by
  match depth, deeper with
  | 0, _ =>
      rw [expression]
      exact .halt (by decide)
  | depth + 1, deeper + 1 =>
      have isDeeper := Nat.le_of_succ_le_succ isDeeper
      rw [expression, expression]
      apply ((operation_cut isDeeper .disjunction).weaken (by simp [Tier.level])
        (Nat.le_refl _)).bind
      intro target
      apply Cut.accept_bind (by decide) (.pure target)
      intro equals _
      apply ((expression_cut isDeeper).weaken (by omega) (Nat.le_refl _)).bind
      intro value
      exact (assignment_cut target equals value)

theorem operation_cut {depth deeper : Nat} (isDeeper : depth ≤ deeper) (tier : Tier) :
    Cut ending depth tier.level 1 (operation depth tier) (operation deeper tier) := by
  match depth, deeper with
  | 0, _ =>
      rw [operation]
      exact .halt (by cases tier <;> decide)
  | depth + 1, deeper + 1 =>
      have isDeeper := Nat.le_of_succ_le_succ isDeeper
      have operands :
          Cut ending (depth + 1) tier.level 1 (operand depth tier) (operand deeper tier) := by
        unfold operand
        split
        · rename_i tighter isTighter
          have tighter := Tier.level_tighter isTighter
          exact (operation_cut isDeeper _).weaken (by omega) (Nat.le_refl _)
        · exact (unary_cut isDeeper).weaken (by cases tier <;> simp [Tier.level]) (Nat.le_refl _)
      rw [operation_succ, operation_succ]
      apply operands.bind
      intro first
      exact .operations tier.eof_not_mem_operators (operands.weaken (by omega) (Nat.zero_le _))
        tier.combine first

theorem unary_cut {depth deeper : Nat} (isDeeper : depth ≤ deeper) :
    Cut ending depth 3 1 (unary depth) (unary deeper) := by
  match depth, deeper with
  | 0, _ =>
      rw [unary]
      exact .halt (by decide)
  | depth + 1, deeper + 1 =>
      have isDeeper := Nat.le_of_succ_le_succ isDeeper
      rw [unary, unary]
      apply Cut.accept_bind (by decide)
      · exact (call_cut isDeeper).weaken (by omega) (Nat.le_refl _)
      · intro operator _
        exact ((unary_cut isDeeper).weaken (by omega) (Nat.le_refl _)).bind fun _ => .pure _

theorem call_cut {depth deeper : Nat} (isDeeper : depth ≤ deeper) :
    Cut ending depth 2 1 (call depth) (call deeper) := by
  match depth, deeper with
  | 0, _ =>
      rw [call]
      exact .halt (by decide)
  | depth + 1, deeper + 1 =>
      have isDeeper := Nat.le_of_succ_le_succ isDeeper
      rw [call, call]
      apply ((primary_cut isDeeper).weaken (by omega) (Nat.le_refl _)).bind
      intro callee
      exact calls_cut ((expression_cut isDeeper).weaken (by omega) (Nat.zero_le _)) callee

theorem primary_cut {depth deeper : Nat} (isDeeper : depth ≤ deeper) :
    Cut ending depth 1 1 (primary depth) (primary deeper) := by
  match depth, deeper with
  | 0, _ =>
      rw [primary]
      exact .halt (by decide)
  | depth + 1, deeper + 1 =>
      have isDeeper := Nat.le_of_succ_le_succ isDeeper
      rw [primary, primary]
      apply atomOr_cut
      apply ((expression_cut isDeeper).weaken (by omega) (Nat.le_refl _)).bind
      intro inner
      exact (Cut.expect (by decide) _).bind fun _ => .pure _

end

section Clauses

variable {depth deeper : Nat} (isDeeper : depth ≤ deeper)

include isDeeper

theorem terminated_cut (missing : Missing) :
    Cut ending depth 10 1 (terminated depth missing) (terminated deeper missing) :=
  (expression_cut isDeeper).bind fun _ => (Cut.expect (by decide) _).bind fun _ => .pure _

theorem optional_cut (stop : Token.Kind) :
    Cut ending depth 10 0 (optional depth stop) (optional deeper stop) := by
  apply (Cut.isNext stop).bind
  intro isStop
  cases isStop with
  | true => exact .pure _
  | false => exact (expression_cut isDeeper).bind fun _ => .pure _

theorem condition_cut (before after : Missing) :
    Cut ending depth 10 1 (condition depth before after) (condition deeper before after) := by
  apply (Cut.expect (by decide) _).bind
  intro _
  apply ((expression_cut isDeeper).weaken (by omega) (Nat.le_refl _)).bind
  exact fun _ => (Cut.expect (by decide) _).bind fun _ => .pure _

theorem variableDeclaration_cut :
    Cut ending depth 10 1 (variableDeclaration depth) (variableDeclaration deeper) := by
  apply (Cut.expect (by decide) _).bind
  intro name
  apply Cut.accept_bind (by decide)
  · exact (Cut.expect (by decide) _).bind fun _ => .pure _
  · intro equals _
    exact ((terminated_cut isDeeper _).weaken (by omega) (Nat.le_refl _)).bind fun _ => .pure _

theorem expressionStatement_cut :
    Cut ending depth 10 1 (expressionStatement depth) (expressionStatement deeper) :=
  (terminated_cut isDeeper _).bind fun _ => .pure _

theorem initializer_cut :
    Cut ending depth 10 0 (initializer depth) (initializer deeper) := by
  apply Cut.accept_bind (by decide)
  · exact (expressionStatement_cut isDeeper).bind fun _ => .pure _
  · intro token _
    dsimp only
    split
    · exact .pure _
    · apply ((variableDeclaration_cut isDeeper).weaken (by omega) (Nat.le_refl _)).bind
      exact fun _ => .pure _

theorem returnStatement_cut (inFunction : Bool) (keyword : Token) :
    Cut ending depth 10 0 (returnStatement depth inFunction keyword)
      (returnStatement deeper inFunction keyword) := by
  cases inFunction with
  | true =>
      apply (optional_cut isDeeper _).bind
      exact fun _ => (Cut.expect (by decide) _).bind fun _ => .pure _
  | false =>
      apply (Cut.note _ keyword).bind
      intro _
      apply (optional_cut isDeeper _).bind
      exact fun _ => (Cut.expect (by decide) _).bind fun _ => .pure _

end Clauses

theorem functionHead_cut {depth level : Nat} :
    Cut ending depth level 0 functionHead functionHead := by
  have names : Cut ending depth level 0 (expect .identifier .parameterName) _ :=
    (Cut.expect (by decide) _).weaken (Nat.le_refl _) (Nat.zero_le 1)
  apply (Cut.expect (by decide) _).bind
  intro name
  apply (Cut.expect (by decide) _).bind
  intro _
  apply ((names.commaList _ _).weaken (by omega) (Nat.le_refl _)).bind
  intro parameters
  exact (Cut.expect (by decide) _).bind fun _ => (Cut.expect (by decide) _).bind fun _ => .pure _

mutual

theorem declared_cut {depth deeper : Nat} (isDeeper : depth ≤ deeper) (inFunction : Bool) :
    Cut ending depth 11 1 (declared depth inFunction) (declared deeper inFunction) := by
  apply Cut.accept_bind (by decide)
  · exact statement_cut isDeeper inFunction
  · intro token _
    dsimp only
    split
    · exact (variableDeclaration_cut isDeeper).weaken (by omega) (by omega)
    · apply functionHead_cut.bind
      intro head
      exact ((block_cut isDeeper true).weaken (by omega) (Nat.zero_le _)).bind fun _ => .pure _

theorem declaration_cut {depth deeper : Nat} (isDeeper : depth ≤ deeper) (inFunction : Bool)
    {body : List Token} (endless : Endless body) (isLonger : 0 < body.length) :
    (declaration depth inFunction (body ++ ending.tail)).Cut ending depth 12 1 body
      (declaration deeper inFunction (body ++ [ending.mark])) := by
  match depth, deeper with
  | 0, _ =>
      rw [declaration]
      exact Cut.halt (by decide) endless
  | depth + 1, deeper + 1 =>
      have isDeeper := Nat.le_of_succ_le_succ isDeeper
      rw [declaration_succ, declaration_succ]
      exact ((declared_cut isDeeper inFunction).recovering endless isLonger).weaken (by omega)
        (Nat.le_refl _)

theorem statement_cut {depth deeper : Nat} (isDeeper : depth ≤ deeper) (inFunction : Bool) :
    Cut ending depth 11 1 (statement depth inFunction) (statement deeper inFunction) := by
  match depth, deeper with
  | 0, _ =>
      rw [statement]
      exact .halt (by decide)
  | depth + 1, deeper + 1 =>
      have isDeeper := Nat.le_of_succ_le_succ isDeeper
      have inner {level : Nat} (isHigher : 12 ≤ level) :
          Cut ending (depth + 1) level 1 (statement depth inFunction)
            (statement deeper inFunction) :=
        (statement_cut isDeeper inFunction).weaken (by omega) (Nat.le_refl _)
      rw [statement, statement]
      apply Cut.accept_bind (by decide)
      · exact (expressionStatement_cut isDeeper).weaken (by omega) (Nat.le_refl _)
      · intro token _
        dsimp only
        split
        · apply ((terminated_cut isDeeper _).weaken (by omega) (Nat.zero_le _)).bind
          exact fun _ => .pure _
        · apply ((block_cut isDeeper inFunction).weaken (by omega) (Nat.zero_le _)).bind
          exact fun _ => .pure _
        · apply ((condition_cut isDeeper _ _).weaken (by omega) (Nat.zero_le _)).bind
          intro test
          apply (inner (by omega)).bind
          intro thenBranch
          apply Cut.accept_bind (by decide) (.pure (Stmt.ifThen test thenBranch))
          intro otherwise _
          exact (inner (by omega)).bind fun _ => .pure _
        · apply ((condition_cut isDeeper _ _).weaken (by omega) (Nat.zero_le _)).bind
          intro test
          exact (inner (by omega)).bind fun _ => .pure _
        · apply (Cut.expect (by decide) _).bind
          intro _
          apply ((initializer_cut isDeeper).weaken (by omega) (Nat.le_refl _)).bind
          intro first
          apply ((optional_cut isDeeper _).weaken (by omega) (Nat.le_refl _)).bind
          intro test
          apply (Cut.expect (by decide) _).bind
          intro _
          apply ((optional_cut isDeeper _).weaken (by omega) (Nat.le_refl _)).bind
          intro increment
          apply (Cut.expect (by decide) _).bind
          intro _
          exact (inner (by omega)).bind fun _ => .pure _
        · exact (returnStatement_cut isDeeper inFunction token).weaken (by omega) (Nat.le_refl _)

theorem block_cut {depth deeper : Nat} (isDeeper : depth ≤ deeper) (inFunction : Bool) :
    Cut ending depth 13 1 (block depth inFunction) (block deeper inFunction) := by
  match depth, deeper with
  | 0, _ =>
      rw [block]
      exact .halt (by decide)
  | depth + 1, deeper + 1 =>
      have isDeeper := Nat.le_of_succ_le_succ isDeeper
      rw [block, block]
      apply ((Cut.statements (declaration_cut isDeeper inFunction)).weaken (by omega)
        (Nat.le_refl _)).bind
      exact fun _ => (Cut.expect (by decide) _).bind fun _ => .pure _

end

end Grammar

theorem Parser.Cut.length_lt {α : Type} {parser : Parser α} {depth level : Nat}
    (cuts : ∀ ending, Cut ending depth level 1 parser parser) {tokens rest : List Token} {value : α}
    {noted : List SyntaxError} (read : parser tokens = .done value rest noted) :
    rest.length < tokens.length := by
  rcases exists_ending tokens with ⟨ending, body, endless, rfl⟩
  have cut := cuts ending endless
  rw [read] at cut
  exact cut.length_lt

theorem Grammar.expression_length_lt {depth : Nat} {tokens rest : List Token} {value : Expr}
    {noted : List SyntaxError} (read : expression depth tokens = .done value rest noted) :
    rest.length < tokens.length :=
  Cut.length_lt (fun _ => expression_cut (Nat.le_refl depth)) read

/-- Where something is left to read, a declaration reads some of it, even if it is given up. -/
theorem Grammar.declaration_length_lt {depth : Nat} {inFunction : Bool} {token : Token}
    {tokens rest : List Token} (goesOn : token.kind ≠ .eof) {result : Option Stmt}
    {noted : List SyntaxError}
    (read : declaration depth inFunction (token :: tokens) = .done result rest noted) :
    rest.length < (token :: tokens).length := by
  rcases exists_ending tokens with ⟨ending, body, endless, rfl⟩
  have endless : Endless (token :: body) := List.forall_mem_cons.2 ⟨goesOn, endless⟩
  have cut : (declaration depth inFunction _).Cut ending depth 12 1 (token :: body) _ :=
    declaration_cut (Nat.le_refl depth) inFunction endless (Nat.succ_pos _)
  rw [List.cons_append, read] at cut
  exact cut.length_lt

/-- That a reply, unless reading came to a halt, is a value, and one of the given kinds is next. -/
inductive Reply.StopsAt {α : Type} (kinds : List Token.Kind) : Reply α → Prop
  | done (value : α) {rest : List Token} (noted : List SyntaxError)
      (begins : BeginsWith kinds rest) : StopsAt kinds (.done value rest noted)
  | halted (reason : Halt) : StopsAt kinds (.halted reason)

theorem Parser.statements_stopsAt {stop : Token.Kind} {declaration : Parser (Option Stmt)}
    (recovers : ∀ tokens error rest noted, declaration tokens ≠ .failed error rest noted)
    (rounds tokens : List Token) :
    (statements stop declaration rounds tokens).StopsAt [.eof, stop] := by
  induction rounds generalizing tokens with
  | nil => exact .halted _
  | cons round rounds ih =>
      cases tokens with
      | nil => exact .halted _
      | cons token rest =>
          rw [statements, peek_bind]
          split
          · rename_i isLast
            exact .done _ _ ⟨token, rest, rfl, by simpa using isLast⟩
          · cases firstRead : declaration (token :: rest) with
            | failed error later noted => exact absurd firstRead (recovers _ _ _ _)
            | halted reason =>
                rw [bind_of_halted firstRead]
                exact .halted reason
            | done first later noted =>
                have stops := ih later
                rw [bind_of_done firstRead]
                generalize othersRead : statements stop declaration rounds later = reply at stops
                cases stops with
                | done others othersNoted begins =>
                    rw [bind_of_done othersRead]
                    exact .done _ _ begins
                | halted reason =>
                    rw [bind_of_halted othersRead]
                    exact .halted reason

theorem Grammar.declaration_recovers (depth : Nat) (inFunction : Bool) (tokens : List Token)
    (error : SyntaxError) (rest : List Token) (noted : List SyntaxError) :
    declaration depth inFunction tokens ≠ .failed error rest noted := by
  cases depth with
  | zero =>
      rw [declaration, halt]
      simp
  | succ depth =>
      rw [declaration_succ, recovering]
      split
      · simp
      · split <;> simp
      · simp

/-- The statements of a program, up to the end. -/
def Grammar.program (depth : Nat) : Parser (List Stmt) :=
  bounded (Parser.statements .eof (declaration depth false))

theorem parse_of_done {depth : Nat} {tokens rest : List Token} {statements : List Stmt}
    {noted : List SyntaxError} (read : Grammar.program depth tokens = .done statements rest noted) :
    parse depth tokens = .ok ⟨statements, noted⟩ := by
  unfold Grammar.program at read
  rw [parse, read]

theorem parse_of_halted {depth : Nat} {tokens : List Token} {reason : Halt}
    (read : Grammar.program depth tokens = .halted reason) :
    parse depth tokens = .error reason := by
  unfold Grammar.program at read
  rw [parse, read]

/-- A program is read up to its first end mark, and runs off the tokens where there is none. -/
theorem Grammar.program_cut (ending : Ending) {body : List Token} (endless : Endless body)
    {depth deeper : Nat} (isDeep : 10 * body.length + 12 ≤ depth) (isDeeper : depth ≤ deeper) :
    (∃ statements noted, ending.tail ≠ [] ∧
      program depth (body ++ ending.tail) = .done statements ending.tail noted ∧
      program deeper (body ++ [ending.mark]) = .done statements [ending.mark] noted) ∨
    (ending.tail = [] ∧ program depth (body ++ ending.tail) = .halted .missingEnd) := by
  have cut : Reply.Cut ending depth 12 0 body (program depth _) (program deeper _) :=
    Cut.statements (declaration_cut isDeeper false) endless
  have stops : (program depth (body ++ ending.tail)).StopsAt [.eof, .eof] :=
    statements_stopsAt (declaration_recovers depth false) _ _
  generalize program depth (body ++ ending.tail) = reply at cut stops
  generalize program deeper (body ++ [ending.mark]) = reply' at cut
  cases cut with
  | failed isRest => cases stops
  | tooDeep isShallow _ => exact absurd isShallow (Nat.not_lt.2 isDeep)
  | missingEnd isMissing _ => exact .inr ⟨isMissing, rfl⟩
  | @done statements rest noted isRest _ =>
      cases stops with
      | done _ _ begins =>
          rcases begins with ⟨first, others, isFirst, isEnd⟩
          cases rest with
          | nil => exact .inl ⟨statements, noted, by simp_all, rfl, rfl⟩
          | cons token rest =>
              -- The end of the program is no token before the first end mark.
              have isBody : token ∈ body := isRest.subset List.mem_cons_self
              simp_all [Endless]

end Scriptlet
