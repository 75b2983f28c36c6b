import Scriptlet.Proofs.Correspondence
import Scriptlet.Proofs.ParserLaws

/-!
# Parsers on corresponding tokens

A parser sees of a token its kind and its constant only, so that corresponding tokens make
corresponding trees and errors. The relation of two parsers, `Parser.Correspond`, is kept by each of
the ways in which parsers are put together. It also says that a parser gives up only where something
is missing: all other errors are noted down without giving up.
-/

namespace Scriptlet

/-- That two errors have the same cause and were found at corresponding tokens. -/
structure SyntaxError.Corresponds (likeness : Likeness) (error other : SyntaxError) : Prop where
  cause : error.cause = other.cause
  token : likeness.Holds error.token other.token

variable {α β γ δ : Type}

/-- That two replies have related values, and corresponding tokens and errors. -/
inductive Reply.Corresponds (likeness : Likeness) (related : α → β → Prop) :
    Reply α → Reply β → Prop
  | done {value : α} {value' : β} {rest rest' : List Token} {noted noted' : List SyntaxError}
      (values : related value value') (rests : List.Forall₂ likeness.Holds rest rest')
      (noteds : List.Forall₂ (SyntaxError.Corresponds likeness) noted noted') :
      Corresponds likeness related (.done value rest noted) (.done value' rest' noted')
  | failed {what : Missing} {token token' : Token} {rest rest' : List Token}
      {noted noted' : List SyntaxError} (tokens : likeness.Holds token token')
      (rests : List.Forall₂ likeness.Holds rest rest')
      (noteds : List.Forall₂ (SyntaxError.Corresponds likeness) noted noted') :
      Corresponds likeness related (.failed ⟨.missing what, token⟩ rest noted)
        (.failed ⟨.missing what, token'⟩ rest' noted')
  | halted (reason : Halt) : Corresponds likeness related (.halted reason) (.halted reason)

theorem Reply.Corresponds.noting {likeness : Likeness} {related : α → β → Prop} {reply : Reply α}
    {reply' : Reply β} {noted noted' : List SyntaxError}
    (replies : reply.Corresponds likeness related reply')
    (noteds : List.Forall₂ (SyntaxError.Corresponds likeness) noted noted') :
    (reply.noting noted).Corresponds likeness related (reply'.noting noted') := by
  cases replies with
  | done values rests laters => exact .done values rests (List.rel_append noteds laters)
  | failed tokens rests laters => exact .failed tokens rests (List.rel_append noteds laters)
  | halted reason => exact .halted reason

namespace Parser

/-- That two parsers give corresponding replies on corresponding tokens. -/
def Correspond (likeness : Likeness) (related : α → β → Prop) (parser : Parser α)
    (parser' : Parser β) : Prop :=
  ∀ input input' : List Token, List.Forall₂ likeness.Holds input input' →
    (parser input).Corresponds likeness related (parser' input')

namespace Correspond

variable {likeness : Likeness} {related : α → β → Prop} {next : γ → δ → Prop}

theorem pure {value : α} {value' : β} (values : related value value') :
    Correspond likeness related (Pure.pure value) (Pure.pure value') :=
  fun _ _ inputs => .done values inputs .nil

theorem halt (reason : Halt) :
    Correspond likeness related (Parser.halt reason) (Parser.halt reason) :=
  fun _ _ _ => .halted reason

theorem bind {parser : Parser α} {parser' : Parser β} {rest : α → Parser γ} {rest' : β → Parser δ}
    (first : Correspond likeness related parser parser')
    (second : ∀ {value value'}, related value value' →
      Correspond likeness next (rest value) (rest' value')) :
    Correspond likeness next (parser >>= rest) (parser' >>= rest') := by
  intro input input' inputs
  have replies := first _ _ inputs
  generalize read : parser input = reply at replies
  generalize read' : parser' input' = reply' at replies
  cases replies with
  | done values rests noteds =>
      rw [bind_of_done read, bind_of_done read']
      exact (second values _ _ rests).noting noteds
  | failed tokens rests noteds =>
      rw [bind_of_failed read, bind_of_failed read']
      exact .failed tokens rests noteds
  | halted reason =>
      rw [bind_of_halted read, bind_of_halted read']
      exact .halted reason

theorem peek : Correspond likeness likeness.Holds Parser.peek Parser.peek := by
  intro input input' inputs
  cases inputs with
  | nil => exact .halted _
  | cons tokens rests => exact .done tokens (.cons tokens rests) .nil

theorem accept (kinds : List Token.Kind) :
    Correspond likeness (Option.Rel likeness.Holds) (Parser.accept kinds)
      (Parser.accept kinds) := by
  intro input input' inputs
  cases inputs with
  | nil => exact .halted _
  | cons tokens rests =>
      rw [Parser.accept, Parser.accept, (likeness.alike tokens).kind]
      split
      · exact .done (.some tokens) rests .nil
      · exact .done .none (.cons tokens rests) .nil

theorem fail (missing : Missing) :
    Correspond likeness related (Parser.fail missing) (Parser.fail missing) := by
  intro input input' inputs
  cases inputs with
  | nil => exact .halted _
  | cons tokens rests => exact .failed tokens (.cons tokens rests) .nil

theorem expect (kind : Token.Kind) (missing : Missing) :
    Correspond likeness likeness.Holds (Parser.expect kind missing)
      (Parser.expect kind missing) := by
  intro input input' inputs
  cases inputs with
  | nil => exact .halted _
  | cons tokens rests =>
      rw [Parser.expect, Parser.expect, (likeness.alike tokens).kind]
      split
      · exact .done tokens rests .nil
      · exact .failed tokens (.cons tokens rests) .nil

theorem note (cause : SyntaxError.Cause) {token token' : Token}
    (tokens : likeness.Holds token token') :
    Correspond likeness Eq (Parser.note cause token) (Parser.note cause token') :=
  fun _ _ inputs => .done rfl inputs (.cons ⟨rfl, tokens⟩ .nil)

theorem bounded {loop : List Token → Parser α} {loop' : List Token → Parser β}
    (loops : ∀ {rounds rounds'}, List.Forall₂ likeness.Holds rounds rounds' →
      Correspond likeness related (loop rounds) (loop' rounds')) :
    Correspond likeness related (Parser.bounded loop) (Parser.bounded loop') :=
  fun _ _ inputs => loops inputs _ _ inputs

theorem isNext (kind : Token.Kind) :
    Correspond likeness Eq (Parser.isNext kind) (Parser.isNext kind) :=
  peek.bind fun tokens => pure (by rw [(likeness.alike tokens).kind])

theorem operations {operators : List Token.Kind} {operand operand' : Parser Expr}
    {combine : Expr → Token → Expr → Expr}
    (operands : Correspond likeness (Expr.Corresponds likeness) operand operand')
    (combined : ∀ {left left' operator operator' right right'},
      Expr.Corresponds likeness left left' → likeness.Holds operator operator' →
      Expr.Corresponds likeness right right' →
      Expr.Corresponds likeness (combine left operator right) (combine left' operator' right'))
    {rounds rounds' : List Token} (allRounds : List.Forall₂ likeness.Holds rounds rounds')
    {left left' : Expr} (lefts : left.Corresponds likeness left') :
    Correspond likeness (Expr.Corresponds likeness)
      (Parser.operations operators operand combine rounds left)
      (Parser.operations operators operand' combine rounds' left') := by
  induction allRounds generalizing left left' with
  | nil => exact halt _
  | cons _ _ ih =>
      refine (accept _).bind fun operators => ?_
      cases operators with
      | none => exact pure lefts
      | some operators => exact operands.bind fun rights => ih (combined lefts operators rights)

theorem separated {limit : Nat} {excess : SyntaxError.Cause} {item : Parser α} {item' : Parser β}
    (items : Correspond likeness related item item') {rounds rounds' : List Token}
    (allRounds : List.Forall₂ likeness.Holds rounds rounds') (count : Nat) :
    Correspond likeness (List.Forall₂ related) (Parser.separated limit excess item rounds count)
      (Parser.separated limit excess item' rounds' count) := by
  induction allRounds generalizing count with
  | nil => exact halt _
  | cons _ _ ih =>
      rw [Parser.separated, Parser.separated]
      split
      -- A list that is too long has a note before its next item.
      on_goal 1 => refine peek.bind fun tokens => (note _ tokens).bind fun _ => ?_
      all_goals
        refine items.bind fun firsts => (accept _).bind fun commas => ?_
        cases commas with
        | none => exact pure (.cons firsts .nil)
        | some commas => exact (ih _).bind fun rests => pure (.cons firsts rests)

theorem commaList {limit : Nat} {excess : SyntaxError.Cause} {item : Parser α} {item' : Parser β}
    (items : Correspond likeness related item item') :
    Correspond likeness (List.Forall₂ related) (Parser.commaList limit excess item)
      (Parser.commaList limit excess item') := by
  refine (isNext _).bind fun {isClosing _} same => ?_
  subst same
  cases isClosing with
  | true => exact pure .nil
  | false =>
      change Correspond likeness _
        (Parser.bounded fun rounds => Parser.separated limit excess item rounds 0)
        (Parser.bounded fun rounds => Parser.separated limit excess item' rounds 0)
      exact bounded fun rounds => separated items rounds 0

theorem skipFrom (previous : Token.Kind) {input input' : List Token}
    (inputs : List.Forall₂ likeness.Holds input input') :
    Option.Rel (List.Forall₂ likeness.Holds) (Parser.skipFrom previous input)
      (Parser.skipFrom previous input') := by
  induction inputs generalizing previous with
  | nil => exact .none
  | cons tokens rests ih =>
      rw [Parser.skipFrom, Parser.skipFrom, (likeness.alike tokens).kind]
      split
      · exact .some (.cons tokens rests)
      · exact ih _

theorem resume? {input input' : List Token} (inputs : List.Forall₂ likeness.Holds input input') :
    Option.Rel (List.Forall₂ likeness.Holds) (Parser.resume? input) (Parser.resume? input') := by
  cases inputs with
  | nil => exact .none
  | cons tokens rests =>
      rw [Parser.resume?, Parser.resume?, (likeness.alike tokens).kind]
      split
      · exact .some (.cons tokens rests)
      · exact skipFrom _ rests

theorem recovering {parser : Parser α} {parser' : Parser β}
    (parsers : Correspond likeness related parser parser') :
    Correspond likeness (Option.Rel related) (Parser.recovering parser)
      (Parser.recovering parser') := by
  intro input input' inputs
  have replies := parsers _ _ inputs
  unfold Parser.recovering
  generalize parser input = reply at replies
  generalize parser' input' = reply' at replies
  cases replies with
  | done values rests noteds => exact .done (.some values) rests noteds
  | @failed what token token' rest rest' noted noted' tokens rests noteds =>
      have resumes := resume? rests
      dsimp only
      generalize Parser.resume? rest = resumed at resumes
      generalize Parser.resume? rest' = resumed' at resumes
      cases resumes with
      | none => exact .halted _
      | some resumes =>
          exact .done .none resumes (List.rel_append noteds (.cons ⟨rfl, tokens⟩ .nil))
  | halted reason => exact .halted reason

theorem statements {stop : Token.Kind} {declaration declaration' : Parser (Option Stmt)}
    (declarations : Correspond likeness (Option.Rel (Stmt.Corresponds likeness)) declaration
      declaration')
    {rounds rounds' : List Token} (allRounds : List.Forall₂ likeness.Holds rounds rounds') :
    Correspond likeness (List.Forall₂ (Stmt.Corresponds likeness))
      (Parser.statements stop declaration rounds)
      (Parser.statements stop declaration' rounds') := by
  induction allRounds with
  | nil => exact halt _
  | cons _ _ ih =>
      refine peek.bind fun tokens => ?_
      rw [(likeness.alike tokens).kind]
      split
      · exact pure .nil
      · refine declarations.bind fun firsts => ih.bind fun rests => pure ?_
        cases firsts with
        | none => exact rests
        | some firsts => exact .cons firsts rests

end Correspond

end Parser

end Scriptlet
