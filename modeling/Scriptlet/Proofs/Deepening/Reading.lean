import Scriptlet.Proofs.ScanLines
import Scriptlet.Proofs.Truncation.Grammar

/-!
# Deeper reading

Reading a scanned text comes to an end, because the text has an end mark, unless rules nest too
deeply. If they do not, nothing changes when they may nest deeper.
-/

namespace Scriptlet

theorem parse_scan (text : String) {depth deeper : Nat} (isDeeper : depth ≤ deeper) :
    parse depth (scan text).tokens = .error .tooDeep ∨
    ∃ parsed, parse depth (scan text).tokens = .ok parsed ∧
      parse deeper (scan text).tokens = .ok parsed := by
  rcases tokens_scan text with ⟨body, isBody, endless⟩
  -- The end mark is the last token, so that both replies of the comparison are on the same list.
  let mark := Token.endOfText (lastLine text)
  let ending : Ending := ⟨mark, rfl, [mark], .inr ⟨[], rfl⟩⟩
  have cut : Reply.Cut ending depth 12 0 body (Grammar.program depth (body ++ [mark]))
      (Grammar.program deeper (body ++ [mark])) :=
    Parser.Cut.statements (Grammar.declaration_cut isDeeper false) endless
  have stops : (Grammar.program depth (body ++ [mark])).StopsAt [.eof, .eof] :=
    Parser.statements_stopsAt (Grammar.declaration_recovers depth false) _ _
  rw [isBody]
  generalize read : Grammar.program depth (body ++ [mark]) = reply at cut stops
  generalize deeperRead : Grammar.program deeper (body ++ [mark]) = deeperReply at cut
  cases cut with
  | done isRest _ => exact .inr ⟨_, parse_of_done read, parse_of_done deeperRead⟩
  | failed isRest => cases stops
  | tooDeep isShallow _ => exact .inl (parse_of_halted read)
  | missingEnd isMissing _ => exact absurd isMissing (List.cons_ne_nil _ _)

theorem parse_of_deeper {text : String} {depth deeper : Nat} {parsed : Parsed}
    (isDeeper : depth ≤ deeper) (read : parse depth (scan text).tokens = .ok parsed) :
    parse deeper (scan text).tokens = .ok parsed := by
  rcases parse_scan text isDeeper with tooDeep | ⟨parsed', read', deeperRead⟩
  · rw [tooDeep] at read
    contradiction
  · cases read.symm.trans read'
    exact deeperRead

end Scriptlet
