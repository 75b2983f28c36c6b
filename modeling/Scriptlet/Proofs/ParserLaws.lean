import Scriptlet.Parser

/-!
# Laws of parsers

How the elementary parsers act on a token list whose first token is known, and how a sequence of
parsers acts when the first of them is understood.

The rules of the grammar may nest to a given depth only. `Reply.upTo` is the reply of a rule that
needs rules nested to `height`: too small a depth is always noticed and never changes a reply.
-/

namespace Scriptlet

/-- The tokens begin with one of the given kinds. -/
def BeginsWith (kinds : List Token.Kind) (tokens : List Token) : Prop :=
  ∃ first rest, tokens = first :: rest ∧ first.kind ∈ kinds

/-- The tokens begin with a token of none of the given kinds. -/
def Avoids (kinds : List Token.Kind) (tokens : List Token) : Prop :=
  ∃ first rest, tokens = first :: rest ∧ first.kind ∉ kinds

namespace BeginsWith

variable {kinds others : List Token.Kind} {tokens : List Token}

theorem append (begins : BeginsWith kinds tokens) (more : List Token) :
    BeginsWith kinds (tokens ++ more) := by
  rcases begins with ⟨first, rest, rfl, mem⟩
  exact ⟨first, rest ++ more, rfl, mem⟩

theorem length_pos (begins : BeginsWith kinds tokens) : 0 < tokens.length := by
  rcases begins with ⟨first, rest, rfl, _⟩
  simp

theorem mono (begins : BeginsWith kinds tokens) (subset : kinds ⊆ others) :
    BeginsWith others tokens := by
  rcases begins with ⟨first, rest, rfl, mem⟩
  exact ⟨first, rest, rfl, subset mem⟩

/-- Tokens that begin with one of some kinds do not begin with another kind. -/
theorem avoids (begins : BeginsWith kinds tokens) (disjoint : ∀ kind ∈ kinds, kind ∉ others) :
    Avoids others tokens := by
  rcases begins with ⟨first, rest, rfl, mem⟩
  exact ⟨first, rest, rfl, disjoint _ mem⟩

end BeginsWith

namespace Avoids

variable {kinds others : List Token.Kind} {tokens : List Token}

theorem cons {first : Token} {rest : List Token} (notMem : first.kind ∉ kinds) :
    Avoids kinds (first :: rest) :=
  ⟨first, rest, rfl, notMem⟩

theorem length_lt_append (avoids : Avoids kinds tokens) (before : List Token) :
    before.length < (before ++ tokens).length := by
  rcases avoids with ⟨first, rest, rfl, _⟩
  simp

theorem anti (avoids : Avoids others tokens) (subset : kinds ⊆ others) : Avoids kinds tokens := by
  rcases avoids with ⟨first, rest, rfl, notMem⟩
  exact ⟨first, rest, rfl, fun mem => notMem (subset mem)⟩

end Avoids

namespace Reply

variable {α : Type}

@[simp]
theorem noting_done (noted later : List SyntaxError) (value : α) (rest : List Token) :
    (done value rest later).noting noted = done value rest (noted ++ later) := rfl

/-- The reply of a rule that needs rules nested to `height`, when they may nest to `depth`. -/
def upTo (height depth : Nat) (reply : Reply α) : Reply α :=
  if height ≤ depth then reply else halted .tooDeep

@[simp]
theorem upTo_zero (depth : Nat) (reply : Reply α) : reply.upTo 0 depth = reply := by
  simp [upTo]

@[simp]
theorem upTo_succ (height depth : Nat) (reply : Reply α) :
    reply.upTo (height + 1) (depth + 1) = reply.upTo height depth := by
  simp [upTo]

/-- A sequence of rules needs the greater of the depths that they need. -/
@[simp]
theorem upTo_upTo (first second depth : Nat) (reply : Reply α) :
    (reply.upTo second depth).upTo first depth = reply.upTo (max first second) depth := by
  unfold upTo
  by_cases firstFits : first ≤ depth
  · simp only [firstFits, Nat.max_le, true_and, if_true]
  · simp only [firstFits, Nat.max_le, false_and, if_false]

@[simp]
theorem noting_upTo (noted : List SyntaxError) (height depth : Nat) (reply : Reply α) :
    (reply.upTo height depth).noting noted = (reply.noting noted).upTo height depth := by
  unfold upTo
  split <;> rfl

end Reply

namespace Parser

variable {α β : Type}

@[simp]
theorem pure_apply (value : α) (tokens : List Token) :
    (pure value : Parser α) tokens = .done value tokens [] := rfl

/-- A parser goes on with what the parser before it has left. -/
theorem bind_of_done {first : Parser α} {next : α → Parser β} {tokens rest : List Token} {value : α}
    {noted : List SyntaxError} (read : first tokens = .done value rest noted) :
    (first >>= next) tokens = (next value rest).noting noted := by
  change Parser.bind first next tokens = _
  unfold Parser.bind
  rw [read]

theorem bind_of_failed {first : Parser α} {next : α → Parser β} {tokens rest : List Token}
    {error : SyntaxError} {noted : List SyntaxError}
    (read : first tokens = .failed error rest noted) :
    (first >>= next) tokens = .failed error rest noted := by
  change Parser.bind first next tokens = _
  unfold Parser.bind
  rw [read]

theorem bind_of_halted {first : Parser α} {next : α → Parser β} {tokens : List Token}
    {reason : Halt} (read : first tokens = .halted reason) :
    (first >>= next) tokens = .halted reason := by
  change Parser.bind first next tokens = _
  unfold Parser.bind
  rw [read]

/-- What follows a rule is read when the rule can nest deeply enough. -/
theorem bind_of_upTo {first : Parser α} {next : α → Parser β} {tokens rest : List Token} {value : α}
    {noted : List SyntaxError} {height depth : Nat}
    (read : first tokens = (Reply.done value rest noted).upTo height depth) :
    (first >>= next) tokens = ((next value rest).noting noted).upTo height depth := by
  unfold Reply.upTo at read ⊢
  split at read
  · rw [bind_of_done read, if_pos ‹_›]
  · rw [bind_of_halted read, if_neg ‹_›]

theorem peek_bind (next : Token → Parser β) (token : Token) (rest : List Token) :
    (peek >>= next) (token :: rest) = next token (token :: rest) := by
  rw [bind_of_done rfl, Reply.noting_nil]

theorem isNext_bind (kind : Token.Kind) (next : Bool → Parser β) (token : Token)
    (rest : List Token) :
    (isNext kind >>= next) (token :: rest) = next (token.kind = kind) (token :: rest) := by
  have read : isNext kind (token :: rest) = .done (decide (token.kind = kind)) (token :: rest) [] :=
    rfl
  rw [bind_of_done read, Reply.noting_nil]

theorem accept_bind_of_mem {kinds : List Token.Kind} (next : Option Token → Parser β)
    {token : Token} (rest : List Token) (mem : token.kind ∈ kinds) :
    (accept kinds >>= next) (token :: rest) = next (some token) rest := by
  have read : accept kinds (token :: rest) = .done (some token) rest [] := by
    simp [accept, mem]
  rw [bind_of_done read, Reply.noting_nil]

theorem accept_bind_of_not_mem {kinds : List Token.Kind} (next : Option Token → Parser β)
    {token : Token} (rest : List Token) (notMem : token.kind ∉ kinds) :
    (accept kinds >>= next) (token :: rest) = next none (token :: rest) := by
  have read : accept kinds (token :: rest) = .done none (token :: rest) [] := by
    simp [accept, notMem]
  rw [bind_of_done read, Reply.noting_nil]

/-- A parser that finds none of its kinds reads nothing. -/
theorem accept_bind_of_avoids {kinds : List Token.Kind} (next : Option Token → Parser β)
    {tokens : List Token} (avoids : Avoids kinds tokens) :
    (accept kinds >>= next) tokens = next none tokens := by
  rcases avoids with ⟨token, rest, rfl, notMem⟩
  exact accept_bind_of_not_mem next rest notMem

theorem isNext_bind_of_avoids {kind : Token.Kind} (next : Bool → Parser β) {tokens : List Token}
    (avoids : Avoids [kind] tokens) : (isNext kind >>= next) tokens = next false tokens := by
  rcases avoids with ⟨token, rest, rfl, notMem⟩
  rw [isNext_bind, decide_eq_false (by simpa using notMem)]

theorem expect_bind {kind : Token.Kind} (missing : Missing) (next : Token → Parser β)
    {token : Token} (rest : List Token) (isKind : token.kind = kind) :
    (expect kind missing >>= next) (token :: rest) = next token rest := by
  have read : expect kind missing (token :: rest) = .done token rest [] := by
    simp [expect, isKind]
  rw [bind_of_done read, Reply.noting_nil]

theorem note_bind (cause : SyntaxError.Cause) (token : Token) (next : Unit → Parser β)
    (tokens : List Token) :
    (note cause token >>= next) tokens = (next () tokens).noting [⟨cause, token⟩] :=
  bind_of_done rfl

end Parser

end Scriptlet
