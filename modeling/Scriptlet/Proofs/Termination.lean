import Scriptlet.Proofs.Cursor.Statement

/-!
# Reading ends

Whatever tokens are given, reading them ends. If there is an end mark among them, they are read up
to the first one, and nothing behind it is looked at. If there is none, reading runs off the tokens.
This holds of the parser, if rules may nest deeply enough, and of the cursor, which nothing bounds.
-/

namespace Scriptlet

/-- That tokens are read up to the end mark at the position `last`, and to what end. -/
structure ReadsUpTo (tokens : List Token) (last : Nat) (parsed : Parsed) (final : Cursor) :
    Prop where
  parses : ∀ depth, 10 * last + 12 ≤ depth → parse depth tokens = .ok parsed
  /-- If rules may not nest deeply enough, this is noticed. -/
  tooDeep : ∀ depth, parse depth tokens = .ok parsed ∨ parse depth tokens = .error .tooDeep
  returns : Cursor.parse tokens = some (.ok parsed.statements, final)
  errors : final.errors = parsed.errors
  position : final.position = last
  /-- No token is looked up before the first one or behind the end mark. -/
  within : ∀ access ∈ final.trace, access.Within last

/-- That reading runs off the tokens. -/
structure RunsOut (tokens : List Token) (final : Cursor) : Prop where
  halts : ∀ depth, 10 * tokens.length + 12 ≤ depth → parse depth tokens = .error .missingEnd
  tooDeep : ∀ depth, parse depth tokens = .error .missingEnd ∨ parse depth tokens = .error .tooDeep
  breaksOff : Cursor.parse tokens = some (.error .outOfRange, final)

namespace Cursor

variable {tokens : List Token} {final : Cursor}

theorem parse_follows (tokens : List Token) (depth : Nat) :
    Follows tokens ⟨0, [], 0, []⟩ (Grammar.program depth tokens) (parse tokens) :=
  program_refines depth rfl

/-- The parser comes to what the cursor comes to, if rules may nest deeply enough. -/
theorem parse_eq_of_ok {statements : List Stmt}
    (ran : parse tokens = some (.ok statements, final)) (depth : Nat) :
    Scriptlet.parse depth tokens = .ok ⟨statements, final.errors⟩ ∨
      Scriptlet.parse depth tokens = .error .tooDeep := by
  have follows := parse_follows tokens depth
  rw [ran] at follows
  generalize read : Grammar.program depth tokens = reply at follows
  cases follows with
  | done moved =>
      have noted := moved.errors
      rw [List.nil_append] at noted
      rw [noted]
      exact .inl (parse_of_done read)
  | tooDeep _ => exact .inr (parse_of_halted read)

theorem parse_eq_of_outOfRange (ran : parse tokens = some (.error .outOfRange, final))
    (depth : Nat) :
    Scriptlet.parse depth tokens = .error .missingEnd ∨
      Scriptlet.parse depth tokens = .error .tooDeep := by
  have follows := parse_follows tokens depth
  rw [ran] at follows
  generalize read : Grammar.program depth tokens = reply at follows
  cases follows with
  | missingEnd _ => exact .inl (parse_of_halted read)
  | tooDeep _ => exact .inr (parse_of_halted read)

end Cursor

/-- What the parser makes of tokens with an end mark is also what the cursor makes of them. -/
theorem exists_readsUpTo {ending : Ending} (isEnded : ending.tail ≠ []) {body : List Token}
    (endless : Endless body) {statements : List Stmt} {noted : List SyntaxError}
    (read : Grammar.program (10 * body.length + 12) (body ++ ending.tail) =
      .done statements ending.tail noted) :
    ∃ final, ReadsUpTo (body ++ ending.tail) body.length ⟨statements, noted⟩ final := by
  have follows := Cursor.parse_follows (body ++ ending.tail) (10 * body.length + 12)
  generalize ran : Cursor.parse (body ++ ending.tail) = result at follows
  generalize isReply : Grammar.program _ _ = reply at follows
  rw [read] at isReply
  cases follows with
  | failed | missingEnd | tooDeep => cases isReply
  | @done _ _ final moved =>
      injection isReply with isValue isRest isNoted
      subst isValue isNoted
      have errors := moved.errors
      rw [List.nil_append] at errors
      have isLast : final.position = body.length := by
        have isShort := congrArg List.length isRest
        have isLong := List.length_pos_iff.2 isEnded
        rw [List.length_drop, List.length_append] at isShort
        omega
      have tooDeep := Cursor.parse_eq_of_ok ran
      rw [errors] at tooDeep
      refine ⟨final, ⟨fun depth isDeep => ?_, tooDeep, ran, errors, isLast, ?_⟩⟩
      · rcases Grammar.program_cut ending endless isDeep (Nat.le_refl depth) with
          ⟨_, _, _, isRead, _⟩ | ⟨isMissing, _⟩
        · apply (tooDeep depth).resolve_right
          simp [parse_of_done isRead]
        · exact absurd isMissing isEnded
      · rcases moved.trace with ⟨trace, isTrace, within⟩
        rw [isTrace, List.nil_append, ← isLast]
        exact within

theorem exists_runsOut {ending : Ending} (isMissing : ending.tail = []) {tokens : List Token}
    (endless : Endless tokens) : ∃ final, RunsOut tokens final := by
  have read {depth : Nat} (isDeep : 10 * tokens.length + 12 ≤ depth) :
      Grammar.program depth tokens = .halted .missingEnd := by
    rcases Grammar.program_cut ending endless isDeep (Nat.le_refl depth) with
      ⟨_, _, isEnded, _⟩ | ⟨_, isRead⟩
    · exact absurd isMissing isEnded
    · rwa [isMissing, List.append_nil] at isRead
  have follows := Cursor.parse_follows tokens (10 * tokens.length + 12)
  rw [read (Nat.le_refl _)] at follows
  generalize ran : Cursor.parse tokens = result at follows
  cases follows with
  | missingEnd final =>
      refine ⟨final, ⟨fun depth isDeep => ?_, Cursor.parse_eq_of_outOfRange ran, ran⟩⟩
      exact parse_of_halted (read isDeep)

/--
Reading always ends. Tokens with an end mark are read up to the first one, as they would be if they
ended there: the cursor goes no further, and looks up no token before the first one. Reading tokens
without an end mark is broken off, and only that can break it off.
-/
theorem parse_terminates (tokens : List Token) :
    (∃ body mark behind, tokens = body ++ mark :: behind ∧ Endless body ∧ mark.kind = .eof ∧
      ∃ parsed final cutFinal, ReadsUpTo tokens body.length parsed final ∧
        ReadsUpTo (body ++ [mark]) body.length parsed cutFinal) ∨
    (Endless tokens ∧ ∃ final, RunsOut tokens final) := by
  rcases exists_ending tokens with ⟨ending, body, endless, rfl⟩
  have isDeep := Nat.le_refl (10 * body.length + 12)
  rcases Grammar.program_cut ending endless isDeep isDeep with
    ⟨statements, noted, isEnded, read, cutRead⟩ | ⟨isMissing, _⟩
  · rcases exists_readsUpTo isEnded endless read with ⟨final, reads⟩
    rcases ending.isTail with isMissing | ⟨behind, isTail⟩
    · exact absurd isMissing isEnded
    · -- The tokens up to the end mark are the same body with another ending.
      let cut : Ending := ⟨ending.mark, ending.isMark, [ending.mark], .inr ⟨[], rfl⟩⟩
      have isCut : cut.tail ≠ [] := List.cons_ne_nil _ _
      rcases exists_readsUpTo isCut endless cutRead with ⟨cutFinal, cutReads⟩
      rw [isTail] at reads ⊢
      exact .inl ⟨body, ending.mark, behind, rfl, endless, ending.isMark,
        ⟨statements, noted⟩, final, cutFinal, reads, cutReads⟩
  · rw [isMissing, List.append_nil]
    exact .inr ⟨endless, exists_runsOut isMissing endless⟩

end Scriptlet
