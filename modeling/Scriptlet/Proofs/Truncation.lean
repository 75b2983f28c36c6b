import Scriptlet.Proofs.ParserLaws

/-!
# Tokens after the end mark

What stands behind the first end mark is never read. To see this, a parser is compared on two lists
that begin with the same tokens. In the one list an end mark follows, and then anything; in the
other list nothing follows the end mark. In the same way a list without an end mark is compared with
the list that has one added.

The relation `Parser.Cut` also keeps count of the tokens that are read, so that it shows how deeply
rules may have to nest: ten levels for each token, and a number of levels besides.
-/

namespace Scriptlet

/-- That no token is an end mark. -/
def Endless (tokens : List Token) : Prop :=
  ∀ token ∈ tokens, token.kind ≠ .eof

theorem Endless.of_suffix {body rest : List Token} (endless : Endless body)
    (isRest : rest <:+ body) : Endless rest :=
  fun token isToken => endless token (isRest.subset isToken)

/-- What follows the tokens of a program: an end mark with anything behind it, or nothing at all. -/
structure Ending where
  mark : Token
  isMark : mark.kind = .eof
  tail : List Token
  isTail : tail = [] ∨ ∃ behind, tail = mark :: behind

/-- Any tokens are those before their first end mark and an ending. -/
theorem exists_ending (tokens : List Token) :
    ∃ (ending : Ending) (body : List Token), Endless body ∧ tokens = body ++ ending.tail := by
  induction tokens with
  | nil => exact ⟨⟨⟨.eof, "", .null, 0⟩, rfl, [], .inl rfl⟩, [], by simp [Endless]⟩
  | cons token rest ih =>
      by_cases isMark : token.kind = .eof
      · exact ⟨⟨token, isMark, token :: rest, .inr ⟨rest, rfl⟩⟩, [], by simp [Endless]⟩
      · rcases ih with ⟨ending, body, endless, rfl⟩
        exact ⟨ending, token :: body, List.forall_mem_cons.2 ⟨isMark, endless⟩, rfl⟩

variable {α β : Type} {ending : Ending} {depth level used gain : Nat} {body : List Token}

/--
That a reply on `body` and an ending agrees with a reply on `body` and an end mark only. A value
comes from reading `gain` tokens of `body` at least. The first reply may be that rules nest too
deeply, if `depth` does not suffice, or that there is no end mark, if there is none.
-/
inductive Reply.Cut (ending : Ending) (depth level gain : Nat) (body : List Token) :
    Reply α → Reply α → Prop
  | done {value : α} {rest : List Token} {noted : List SyntaxError} (isRest : rest <:+ body)
      (shorter : rest.length + gain ≤ body.length) :
      Cut ending depth level gain body (.done value (rest ++ ending.tail) noted)
        (.done value (rest ++ [ending.mark]) noted)
  | failed {error : SyntaxError} {rest : List Token} {noted : List SyntaxError}
      (isRest : rest <:+ body) :
      Cut ending depth level gain body (.failed error (rest ++ ending.tail) noted)
        (.failed error (rest ++ [ending.mark]) noted)
  | tooDeep (isShallow : depth < 10 * body.length + level) (reply : Reply α) :
      Cut ending depth level gain body (.halted .tooDeep) reply
  | missingEnd (isMissing : ending.tail = []) (reply : Reply α) :
      Cut ending depth level gain body (.halted .missingEnd) reply

namespace Reply.Cut

variable {reply reply' : Reply α}

theorem weaken {depth' level' gain' : Nat} (cut : reply.Cut ending depth level gain body reply')
    (fits : depth' + level ≤ depth + level') (fewer : gain' ≤ gain) :
    reply.Cut ending depth' level' gain' body reply' := by
  cases cut with
  | done isRest shorter => exact .done isRest (by omega)
  | failed isRest => exact .failed isRest
  | tooDeep isShallow _ => exact .tooDeep (by omega) _
  | missingEnd isMissing _ => exact .missingEnd isMissing _

theorem noting (cut : reply.Cut ending depth level gain body reply') (noted : List SyntaxError) :
    (reply.noting noted).Cut ending depth level gain body (reply'.noting noted) := by
  cases cut with
  | done isRest shorter => exact .done isRest shorter
  | failed isRest => exact .failed isRest
  | tooDeep isShallow _ => exact .tooDeep isShallow _
  | missingEnd isMissing _ => exact .missingEnd isMissing _

/-- What is said of a rest of the tokens can be said of the tokens. -/
theorem lift {rest : List Token} (isRest : rest <:+ body)
    (shorter : rest.length + used ≤ body.length)
    (cut : reply.Cut ending depth (level + 10 * used) (gain - used) rest reply') :
    reply.Cut ending depth level gain body reply' := by
  cases cut with
  | done isLater shorterStill => exact .done (isLater.trans isRest) (by omega)
  | failed isLater => exact .failed (isLater.trans isRest)
  | tooDeep isShallow _ => exact .tooDeep (by omega) _
  | missingEnd isMissing _ => exact .missingEnd isMissing _

theorem length_lt {value : α} {rest : List Token} {noted : List SyntaxError}
    (cut : (Reply.done value rest noted).Cut ending depth level 1 body reply') :
    rest.length < (body ++ ending.tail).length := by
  cases cut with
  | done isRest shorter =>
      rw [List.length_append, List.length_append]
      omega

open Scriptlet.Parser

theorem bind {parser parser' : Parser α} {next next' : α → Parser β}
    (first : (parser (body ++ ending.tail)).Cut ending depth level used body
      (parser' (body ++ [ending.mark])))
    (second : ∀ value {rest}, rest <:+ body → rest.length + used ≤ body.length →
      (next value (rest ++ ending.tail)).Cut ending depth (level + 10 * used) (gain - used) rest
        (next' value (rest ++ [ending.mark]))) :
    ((parser >>= next) (body ++ ending.tail)).Cut ending depth level gain body
      ((parser' >>= next') (body ++ [ending.mark])) := by
  generalize read : parser (body ++ ending.tail) = reply at first
  generalize read' : parser' (body ++ [ending.mark]) = reply' at first
  cases first with
  | done isRest shorter =>
      rw [bind_of_done read, bind_of_done read']
      exact ((second _ isRest shorter).lift isRest shorter).noting _
  | failed isRest =>
      rw [bind_of_failed read, bind_of_failed read']
      exact .failed isRest
  | tooDeep isShallow _ =>
      rw [bind_of_halted read]
      exact .tooDeep isShallow _
  | missingEnd isMissing _ =>
      rw [bind_of_halted read]
      exact .missingEnd isMissing _

/-- What a parser does that looks at the next token shows on a list that has one. -/
theorem of_first {parser parser' : Parser α} (halts : parser [] = .halted .missingEnd)
    (mark : ∀ {behind}, ending.tail = ending.mark :: behind → body = [] →
      (parser (ending.mark :: behind)).Cut ending depth level gain [] (parser' [ending.mark]))
    (token : ∀ token rest, body = token :: rest →
      (parser (token :: (rest ++ ending.tail))).Cut ending depth level gain (token :: rest)
        (parser' (token :: (rest ++ [ending.mark])))) :
    (parser (body ++ ending.tail)).Cut ending depth level gain body
      (parser' (body ++ [ending.mark])) := by
  cases body with
  | cons first rest => exact token first rest rfl
  | nil =>
      rcases ending.isTail with isMissing | ⟨behind, isTail⟩
      · rw [isMissing, List.nil_append, halts]
        exact .missingEnd isMissing _
      · rw [isTail]
        exact mark isTail rfl

theorem done_mark {behind : List Token} (isTail : ending.tail = ending.mark :: behind) (value : α)
    (noted : List SyntaxError) :
    (Reply.done value (ending.mark :: behind) noted).Cut ending depth level 0 []
      (.done value [ending.mark] noted) := by
  rw [← isTail]
  exact .done (List.suffix_refl []) (Nat.le_refl _)

theorem failed_mark {behind : List Token} (isTail : ending.tail = ending.mark :: behind)
    (error : SyntaxError) :
    (Reply.failed error (ending.mark :: behind) []).Cut ending depth level gain []
      (.failed error [ending.mark] [] : Reply α) := by
  rw [← isTail]
  exact .failed (List.suffix_refl [])

theorem accept_bind {kinds : List Token.Kind} (notEnd : .eof ∉ kinds)
    {next next' : Option Token → Parser α}
    (none : (next none (body ++ ending.tail)).Cut ending depth level gain body
      (next' none (body ++ [ending.mark])))
    (some : ∀ token {rest}, body = token :: rest → token.kind ∈ kinds →
      (next (some token) (rest ++ ending.tail)).Cut ending depth (level + 10) (gain - 1) rest
        (next' (some token) (rest ++ [ending.mark]))) :
    ((accept kinds >>= next) (body ++ ending.tail)).Cut ending depth level gain body
      ((accept kinds >>= next') (body ++ [ending.mark])) := by
  apply of_first (bind_of_halted rfl)
  · rintro behind isTail rfl
    have isOther : ending.mark.kind ∉ kinds := ending.isMark ▸ notEnd
    rw [accept_bind_of_not_mem _ _ isOther, accept_bind_of_not_mem _ _ isOther, ← isTail]
    exact none
  · rintro token rest rfl
    by_cases isKind : token.kind ∈ kinds
    · rw [accept_bind_of_mem _ _ isKind, accept_bind_of_mem _ _ isKind]
      exact (some token rfl isKind).lift (List.suffix_cons token rest) (Nat.le_refl _)
    · rw [accept_bind_of_not_mem _ _ isKind, accept_bind_of_not_mem _ _ isKind]
      exact none

end Reply.Cut

namespace Parser

/-- Notes down that an item is one too many. -/
def noteExcess (limit : Nat) (excess : SyntaxError.Cause) (count : Nat) : Parser Unit :=
  if limit ≤ count then peek >>= note excess else pure ()

theorem separated_round (limit : Nat) (excess : SyntaxError.Cause) (item : Parser α) (round : Token)
    (rounds : List Token) (count : Nat) :
    separated limit excess item (round :: rounds) count = do
      noteExcess limit excess count
      let first ← item
      match ← accept [.comma] with
      | none => return [first]
      | some _ => return first :: (← separated limit excess item rounds (count + 1)) := by
  rw [separated, noteExcess]
  split
  · exact (bind_assoc _ _ _).symm
  · rewrite [pure_bind]
    rfl

/-- That two parsers agree on tokens with an ending and on the same tokens with an end mark only. -/
def Cut (ending : Ending) (depth level gain : Nat) (parser parser' : Parser α) : Prop :=
  ∀ ⦃body : List Token⦄, Endless body →
    (parser (body ++ ending.tail)).Cut ending depth level gain body
      (parser' (body ++ [ending.mark]))

namespace Cut

variable {parser parser' : Parser α}

theorem weaken {depth' level' gain' : Nat} (cut : Cut ending depth level gain parser parser')
    (fits : depth' + level ≤ depth + level') (fewer : gain' ≤ gain) :
    Cut ending depth' level' gain' parser parser' :=
  fun _ endless => (cut endless).weaken fits fewer

theorem bind {next next' : α → Parser β} (first : Cut ending depth level used parser parser')
    (second : ∀ value,
      Cut ending depth (level + 10 * used) (gain - used) (next value) (next' value)) :
    Cut ending depth level gain (parser >>= next) (parser' >>= next') :=
  fun _ endless => (first endless).bind fun value _ isRest _ =>
    second value (endless.of_suffix isRest)

theorem accept_bind {kinds : List Token.Kind} (notEnd : .eof ∉ kinds)
    {next next' : Option Token → Parser α}
    (none : Cut ending depth level gain (next none) (next' none))
    (some : ∀ token, token.kind ∈ kinds →
      Cut ending depth (level + 10) (gain - 1) (next (some token)) (next' (some token))) :
    Cut ending depth level gain (accept kinds >>= next) (accept kinds >>= next') := by
  intro body endless
  refine .accept_bind notEnd (none endless) fun token rest isBody isKind => some token isKind ?_
  subst isBody
  exact endless.of_suffix (List.suffix_cons token rest)

theorem pure (value : α) : Cut ending depth level 0 (Pure.pure value) (Pure.pure value) :=
  fun _ _ => .done List.suffix_rfl (Nat.le_refl _)

theorem halt (isShallow : depth < level) :
    Cut ending depth level gain (Parser.halt .tooDeep) parser :=
  fun _ _ => .tooDeep (by omega) _

theorem note (cause : SyntaxError.Cause) (token : Token) :
    Cut ending depth level 0 (Parser.note cause token) (Parser.note cause token) :=
  fun _ _ => .done List.suffix_rfl (Nat.le_refl _)

theorem peek : Cut ending depth level 0 Parser.peek Parser.peek :=
  fun _ _ => .of_first rfl (fun isTail _ => .done_mark isTail _ _)
    fun token rest _ => .done (List.suffix_refl (token :: rest)) (Nat.le_refl _)

theorem isNext (kind : Token.Kind) :
    Cut ending depth level 0 (Parser.isNext kind) (Parser.isNext kind) :=
  peek.bind fun _ => pure _

theorem expect {kind : Token.Kind} (notEnd : kind ≠ .eof) (missing : Missing) :
    Cut ending depth level 1 (Parser.expect kind missing) (Parser.expect kind missing) := by
  intro body _
  apply Reply.Cut.of_first rfl
  · intro behind isTail _
    have isOther : ending.mark.kind ≠ kind := ending.isMark ▸ notEnd.symm
    rw [Parser.expect, Parser.expect, if_neg isOther, if_neg isOther]
    exact .failed_mark isTail _
  · intro token rest _
    rw [Parser.expect, Parser.expect]
    split
    · exact .done (List.suffix_cons token rest) (Nat.le_refl _)
    · exact .failed (List.suffix_refl (token :: rest))

end Cut

/-- That loops can go round once for each token of `body` and once more, unless there is no end. -/
structure Rounds (ending : Ending) (body rounds rounds' : List Token) : Prop where
  here : ending.tail = [] ∨ body.length < rounds.length
  there : body.length < rounds'.length

theorem Rounds.rest {rest rounds rounds' : List Token} {round round' : Token}
    (enough : Rounds ending body (round :: rounds) (round' :: rounds'))
    (shorter : rest.length + 1 ≤ body.length) : Rounds ending rest rounds rounds' where
  here := enough.here.imp_right fun fits => by
    rw [List.length_cons] at fits
    omega
  there := by
    have fits := enough.there
    rw [List.length_cons] at fits
    omega

namespace Cut

variable {parser parser' : Parser α}

/-- A loop that reads a token in each round is understood from one round. -/
theorem loop {σ : Type} (loop loop' : List Token → σ → Parser α)
    (halts : ∀ state, loop [] state = Parser.halt .missingEnd)
    (round : ∀ {round round' : Token} {rounds rounds' body : List Token} (state), Endless body →
      (∀ {rest : List Token} (state), rest <:+ body → rest.length + 1 ≤ body.length →
        (loop rounds state (rest ++ ending.tail)).Cut ending depth level gain rest
          (loop' rounds' state (rest ++ [ending.mark]))) →
      (loop (round :: rounds) state (body ++ ending.tail)).Cut ending depth level gain body
        (loop' (round' :: rounds') state (body ++ [ending.mark])))
    (state : σ) :
    Cut ending depth level gain (bounded fun rounds => loop rounds state)
      (bounded fun rounds => loop' rounds state) := by
  have turns : ∀ rounds rounds' {body} state, Endless body → Rounds ending body rounds rounds' →
      (loop rounds state (body ++ ending.tail)).Cut ending depth level gain body
        (loop' rounds' state (body ++ [ending.mark])) := by
    intro rounds
    induction rounds with
    | nil =>
        intro rounds' body state _ enough
        -- There is a round for every token and one for the end mark, so no end mark is there.
        have isMissing : ending.tail = [] := by simpa using enough.here
        rw [halts]
        exact .missingEnd isMissing _
    | cons first rounds ih =>
        intro rounds' body state endless enough
        cases rounds' with
        | nil => exact absurd enough.there (Nat.not_lt_zero _)
        | cons first' rounds' =>
            apply round state endless
            intro rest state isRest shorter
            exact ih rounds' state (endless.of_suffix isRest) (enough.rest shorter)
  intro body endless
  refine turns _ _ state endless ⟨?_, by simp⟩
  rcases ending.isTail with isMissing | ⟨behind, isTail⟩
  · exact .inl isMissing
  · exact .inr (by simp [isTail])

theorem operations {operators : List Token.Kind} (notEnd : .eof ∉ operators)
    {operand operand' : Parser Expr} (operands : Cut ending depth level 0 operand operand')
    (combine : Expr → Token → Expr → Expr) (left : Expr) :
    Cut ending depth level 0
      (bounded fun rounds => Parser.operations operators operand combine rounds left)
      (bounded fun rounds => Parser.operations operators operand' combine rounds left) := by
  apply loop (Parser.operations operators operand combine)
    (Parser.operations operators operand' combine) fun _ => rfl
  intro _ _ rounds rounds' body left endless again
  apply Reply.Cut.accept_bind notEnd (pure left endless)
  rintro operator rest rfl _
  have isRest := List.suffix_cons operator rest
  apply ((operands (endless.of_suffix isRest)).weaken (by omega) (Nat.le_refl _)).bind
  intro right later isLater shorter
  exact (again _ (isLater.trans isRest) (Nat.succ_le_succ shorter)).weaken (by omega) (by omega)

theorem noteExcess (limit : Nat) (excess : SyntaxError.Cause) (count : Nat) :
    Cut ending depth level 0 (Parser.noteExcess limit excess count)
      (Parser.noteExcess limit excess count) := by
  unfold Parser.noteExcess
  split
  · exact peek.bind fun token => note excess token
  · exact pure ()

theorem separated {item item' : Parser α} (items : Cut ending depth level 0 item item')
    (limit : Nat) (excess : SyntaxError.Cause) (count : Nat) :
    Cut ending depth level 0
      (bounded fun rounds => Parser.separated limit excess item rounds count)
      (bounded fun rounds => Parser.separated limit excess item' rounds count) := by
  apply loop (Parser.separated limit excess item) (Parser.separated limit excess item')
    fun _ => rfl
  intro _ _ rounds rounds' body count endless again
  rw [separated_round, separated_round]
  apply (noteExcess limit excess count endless).bind
  intro _ noted isNoted fewer
  apply (items (endless.of_suffix isNoted)).bind
  intro first rest isRest shorter
  apply Reply.Cut.accept_bind (by decide) (pure [first] (endless.of_suffix (isRest.trans isNoted)))
  rintro comma others rfl _
  have isOthers := (List.suffix_cons comma others).trans (isRest.trans isNoted)
  have fewer : others.length + 1 ≤ body.length := by
    rw [List.length_cons] at shorter
    omega
  apply ((again (count + 1) isOthers fewer).weaken (by omega) (Nat.le_refl _)).bind
  intro values last isLast _
  exact pure (first :: values) (endless.of_suffix (isLast.trans isOthers))

theorem commaList {item item' : Parser α} (items : Cut ending depth level 0 item item')
    (limit : Nat) (excess : SyntaxError.Cause) :
    Cut ending depth level 0 (Parser.commaList limit excess item)
      (Parser.commaList limit excess item') := by
  apply (isNext .rightParen).bind
  intro isClosing
  cases isClosing with
  | true => exact pure []
  | false => exact items.separated limit excess 0

end Cut

/-- That tokens are skipped up to a rest of `body` on both lists, unless there is no end mark. -/
inductive Skips (ending : Ending) (body : List Token) :
    Option (List Token) → Option (List Token) → Prop
  | stopped {rest : List Token} (isRest : rest <:+ body) :
      Skips ending body (some (rest ++ ending.tail)) (some (rest ++ [ending.mark]))
  | missingEnd (isMissing : ending.tail = []) (result : Option (List Token)) :
      Skips ending body none result

theorem Skips.mark {skip : List Token → Option (List Token)} (halts : skip [] = none)
    (stays : ∀ behind, skip (ending.mark :: behind) = some (ending.mark :: behind)) :
    Skips ending [] (skip ending.tail) (skip [ending.mark]) := by
  rcases ending.isTail with isMissing | ⟨behind, isTail⟩
  · rw [isMissing, halts]
    exact .missingEnd isMissing _
  · rw [isTail, stays, stays, ← isTail]
    exact .stopped (List.suffix_refl [])

theorem skipFrom_skips (previous : Token.Kind) (body : List Token) :
    Skips ending body (skipFrom previous (body ++ ending.tail))
      (skipFrom previous (body ++ [ending.mark])) := by
  induction body generalizing previous with
  | nil => exact .mark rfl (by simp [skipFrom, ending.isMark])
  | cons token rest ih =>
      rw [List.cons_append, List.cons_append, skipFrom, skipFrom]
      split
      · exact .stopped (List.suffix_refl (token :: rest))
      · have skips := ih token.kind
        generalize skipFrom token.kind (rest ++ ending.tail) = result at skips
        generalize skipFrom token.kind (rest ++ [ending.mark]) = result' at skips
        cases skips with
        | stopped isLater => exact .stopped (isLater.trans (List.suffix_cons token rest))
        | missingEnd isMissing _ => exact .missingEnd isMissing _

/-- Tokens before the end mark are skipped, one of them at least if there are any. -/
theorem resume?_skips (ending : Ending) (endless : Endless body) :
    Skips ending body.tail (resume? (body ++ ending.tail)) (resume? (body ++ [ending.mark])) := by
  cases body with
  | nil => exact .mark rfl (by simp [resume?, ending.isMark])
  | cons token rest =>
      have goesOn := endless token List.mem_cons_self
      rw [List.cons_append, List.cons_append, resume?, resume?, if_neg goesOn, if_neg goesOn]
      exact skipFrom_skips token.kind rest

namespace Cut

/-- Where something is left to read, giving up also makes it shorter. -/
theorem recovering {parser parser' : Parser α} (parsers : Cut ending depth level 1 parser parser')
    (endless : Endless body) (isLonger : 0 < body.length) :
    (Parser.recovering parser (body ++ ending.tail)).Cut ending depth level 1 body
      (Parser.recovering parser' (body ++ [ending.mark])) := by
  have replies := parsers endless
  unfold Parser.recovering
  generalize parser (body ++ ending.tail) = reply at replies
  generalize parser' (body ++ [ending.mark]) = reply' at replies
  cases replies with
  | done isRest shorter => exact .done isRest shorter
  | tooDeep isShallow _ => exact .tooDeep isShallow _
  | missingEnd isMissing _ => exact .missingEnd isMissing _
  | @failed error rest noted isRest =>
      have skips := resume?_skips ending (endless.of_suffix isRest)
      dsimp only
      generalize resume? (rest ++ ending.tail) = result at skips
      generalize resume? (rest ++ [ending.mark]) = result' at skips
      cases skips with
      | missingEnd isMissing _ => exact .missingEnd isMissing _
      | stopped isLater =>
          -- Either the parser had read a token before it failed, or one is skipped now.
          have shorter := isLater.length_le
          have shorterStill := isRest.length_le
          rw [List.length_tail] at shorter
          exact .done (isLater.trans ((List.tail_suffix rest).trans isRest)) (by omega)

theorem statements {stop : Token.Kind} {declaration declaration' : Parser (Option Stmt)}
    (declarations : ∀ {body}, Endless body → 0 < body.length →
      (declaration (body ++ ending.tail)).Cut ending depth level 1 body
        (declaration' (body ++ [ending.mark]))) :
    Cut ending depth level 0 (bounded (Parser.statements stop declaration))
      (bounded (Parser.statements stop declaration')) := by
  refine loop (fun rounds (_ : Unit) => Parser.statements stop declaration rounds)
    (fun rounds _ => Parser.statements stop declaration' rounds) (fun _ => rfl) ?_ ()
  intro _ _ rounds rounds' body _ endless again
  rw [Parser.statements, Parser.statements]
  apply Reply.Cut.of_first (bind_of_halted rfl)
  · intro behind isTail _
    rw [peek_bind, peek_bind, if_pos (.inl ending.isMark), if_pos (.inl ending.isMark)]
    exact .done_mark isTail _ _
  · rintro token rest rfl
    rw [peek_bind, peek_bind]
    split
    · exact pure [] endless
    · apply (declarations endless (Nat.succ_pos _)).bind
      intro first later isLater shorter
      apply ((again () isLater shorter).weaken (by omega) (Nat.le_refl _)).bind
      intro others last isLast _
      exact pure _ (endless.of_suffix (isLast.trans isLater))

end Cut

end Parser

end Scriptlet
