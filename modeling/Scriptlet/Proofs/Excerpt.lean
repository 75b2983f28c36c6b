import Mathlib.Data.List.DropRight
import Scriptlet.Proofs.LineNumbers
import Scriptlet.Report

/-!
# Excerpts

A report shows the line that an error points at. Lines of tokens are counted by newlines, while a
source is cut into lines at other characters as well. The line that is shown is therefore the one
on which the token to blame ends, as long as all lines up to it end with newlines
(`Reporter.excerpt?_of_excerptFor?`).
-/

namespace Scriptlet

/-- A text up to the end of the line that its first `length` characters end on. -/
def upToLineEnd (characters : List Char) (length : Nat) : List Char :=
  characters.take length ++ (characters.drop length).takeWhile (· != '\n')

/-- The line of a text, between newlines, that its first `length` characters end on. -/
def lineAround (characters : List Char) (length : Nat) : List Char :=
  (upToLineEnd characters length).rtakeWhile (· != '\n')

/-- That only newlines end the lines of a text, up to the one that its first characters end on. -/
def PlainUpTo (characters : List Char) (length : Nat) : Prop :=
  ∀ character ∈ upToLineEnd characters length, character ∈ Text.lineEnds → character = '\n'

section UpToLineEnd

variable {first : Char} {rest : List Char}

theorem upToLineEnd_newline (length : Nat) :
    upToLineEnd ('\n' :: rest) (length + 1) = '\n' :: upToLineEnd rest length :=
  rfl

theorem upToLineEnd_cons (noNewline : first ≠ '\n') (length : Nat) :
    upToLineEnd (first :: rest) length = first :: upToLineEnd rest (length - 1) := by
  cases length with
  | zero => simp [upToLineEnd, noNewline]
  | succ length => rfl

theorem count_take_cons (noNewline : first ≠ '\n') (length : Nat) :
    ((first :: rest).take length).count '\n' = (rest.take (length - 1)).count '\n' := by
  cases length with
  | zero => rfl
  | succ length => simp [noNewline]

theorem rtakeWhile_newline (before after : List Char) :
    (before ++ '\n' :: after).rtakeWhile (· != '\n') = after.rtakeWhile (· != '\n') := by
  simp only [List.rtakeWhile, List.reverse_append, List.reverse_cons, List.append_assoc,
    List.singleton_append]
  rw [List.takeWhile_append]
  split
  case isTrue isWhole =>
      have whole := (List.takeWhile_prefix _).eq_of_length isWhole
      simp [whole]
  case isFalse => rfl

theorem rtakeWhile_reverse {begun : List Char} (noNewline : '\n' ∉ begun) :
    begun.reverse.rtakeWhile (· != '\n') = begun.reverse := by
  rw [List.rtakeWhile_eq_self_iff]
  intro character member
  refine bne_iff_ne.2 fun same => noNewline ?_
  simpa [same] using member

end UpToLineEnd

namespace Text

variable {found : List String} {begun rest : List Char}

theorem linesOnto_newline :
    linesOnto found begun ('\n' :: rest) =
      linesOnto (String.ofList begun.reverse :: found) [] rest := by
  rw [linesOnto]
  · simp [lineEnds]
  · simp

theorem linesOnto_cons {first : Char} (noEnd : first ∉ lineEnds) :
    linesOnto found begun (first :: rest) = linesOnto found (first :: begun) rest := by
  rw [linesOnto, if_neg noEnd]
  rintro _ rfl
  exact absurd (by decide) noEnd

/-- The lines that were already found come first. -/
theorem reverse_prefix_linesOnto (found : List String) (begun rest : List Char) :
    found.reverse <+: linesOnto found begun rest := by
  fun_induction linesOnto found begun rest with
  | case1 => exact List.prefix_rfl
  | case2 found begun _ => simp
  | case3 found begun rest ih => exact (by simp : found.reverse <+: _).trans ih
  | case4 found begun first rest _ isEnd ih => exact (by simp : found.reverse <+: _).trans ih
  | case5 found begun first rest _ noEnd ih => exact ih

/-- Behind the lines already found stands the one that was begun. -/
theorem getElem?_linesOnto_newline :
    (linesOnto found begun ('\n' :: rest))[found.length]? = some (String.ofList begun.reverse) := by
  rw [linesOnto_newline]
  rcases reverse_prefix_linesOnto (String.ofList begun.reverse :: found) [] rest with ⟨more, parts⟩
  rw [← parts]
  simp

theorem getElem?_linesOnto {length : Nat} {line : String} (plain : PlainUpTo rest length)
    (noNewline : '\n' ∉ begun)
    (isLine : (linesOnto found begun rest)[found.length + (rest.take length).count '\n']? =
      some line) :
    line.toList = (begun.reverse ++ upToLineEnd rest length).rtakeWhile (· != '\n') := by
  induction rest generalizing found begun length with
  | nil =>
      have isBegun : line = String.ofList begun.reverse := by
        cases begun with
        | nil => simp [linesOnto] at isLine
        | cons first begun => simpa [linesOnto, eq_comm] using isLine
      simp [isBegun, upToLineEnd, rtakeWhile_reverse noNewline]
  | cons first rest ih =>
      by_cases isNewline : first = '\n'
      · subst isNewline
        cases length with
        | zero =>
            rw [List.take_zero, List.count_nil, Nat.add_zero, getElem?_linesOnto_newline] at isLine
            cases isLine
            simp [upToLineEnd, rtakeWhile_reverse noNewline]
        | succ length =>
            have laterLine : (linesOnto (String.ofList begun.reverse :: found) [] rest)[
                (String.ofList begun.reverse :: found).length + (rest.take length).count '\n']? =
                some line := by
              rw [← linesOnto_newline, ← isLine, List.take_succ_cons, List.count_cons_self,
                List.length_cons]
              congr 1
              omega
            have laterPlain : PlainUpTo rest length := fun character member =>
              plain character (List.mem_cons_of_mem _ member)
            rw [upToLineEnd_newline, rtakeWhile_newline]
            exact ih laterPlain (by simp) laterLine
      · have noEnd : first ∉ lineEnds := fun isEnd =>
          isNewline (plain first (by simp [upToLineEnd_cons isNewline]) isEnd)
        rw [linesOnto_cons noEnd, count_take_cons isNewline] at isLine
        have later := ih (fun character member => plain character (by
          rw [upToLineEnd_cons isNewline]
          exact List.mem_cons_of_mem _ member)) (by simp [noNewline, Ne.symm isNewline]) isLine
        rw [later, upToLineEnd_cons isNewline]
        simp

/-- The line with the number of a place is the one around it. -/
theorem getElem?_lines {text line : String} {length : Nat} (plain : PlainUpTo text.toList length)
    (isLine : (lines text)[(lineUpTo text.toList length - 1).toNat]? = some line) :
    line = String.ofList (lineAround text.toList length) := by
  have number : (lineUpTo text.toList length - 1).toNat =
      ([] : List String).length + (text.toList.take length).count '\n' := by
    simp only [lineUpTo, List.length_nil]
    omega
  rw [number] at isLine
  rw [← String.toList_inj, getElem?_linesOnto plain (by simp) isLine, String.toList_ofList]
  rfl

end Text

namespace Segment

/-- The text that an error at a segment blames. -/
def blame : Segment → List Char
  | token _ lexeme => lexeme
  | unexpected character => [character]
  | unterminated _ => ['"']
  | _ => []

end Segment

open Segment

/-- That a diagnostic blames the text of a segment, and gives the line on which it ends. -/
structure Diagnostic.PointsAt (diagnostic : Diagnostic) (text : String) (place : Place) :
    Prop where
  isPlace : place ∈ places 0 (cut text.toList)
  line : diagnostic.line = some (lineUpTo text.toList place.stop)
  lexeme : diagnostic.lexeme.toList = place.segment.blame

theorem exists_place_of_mem_tokens {text : String} {token : Token}
    (member : token ∈ (scan text).tokens) (nonempty : token.lexeme ≠ "") :
    ∃ place ∈ places 0 (cut text.toList), token.line = lineUpTo text.toList place.stop ∧
      token.lexeme.toList = place.segment.blame := by
  rcases List.mem_append.1 member with isRead | isEnd
  · rcases List.mem_filterMap.1 isRead with ⟨entry, isNumbered, isToken⟩
    rw [(cutting_cut text.toList).numbered_eq] at isNumbered
    rcases List.mem_map.1 isNumbered with ⟨⟨start, segment⟩, isPlace, rfl⟩
    rcases exists_of_token? isToken with ⟨kind, lexeme, rfl, rfl⟩
    exact ⟨_, isPlace, rfl, String.toList_ofList⟩
  · cases List.mem_singleton.1 isEnd
    contradiction

theorem ScanError.exists_pointsAt {text : String} {error : ScanError}
    (member : error ∈ (scan text).errors) : ∃ place, error.diagnostic.PointsAt text place := by
  rcases List.mem_filterMap.1 member with ⟨entry, isNumbered, isError⟩
  rw [(cutting_cut text.toList).numbered_eq] at isNumbered
  rcases List.mem_map.1 isNumbered with ⟨⟨start, segment⟩, isPlace, rfl⟩
  refine ⟨⟨start, segment⟩, ?_⟩
  cases segment with
  | unexpected character =>
      cases isError
      exact ⟨isPlace, rfl, String.toList_singleton _⟩
  | unterminated body =>
      cases isError
      exact ⟨isPlace, rfl, (by decide : "\"".toList = ['"'])⟩
  | _ => cases isError

namespace Reporter

variable {reporter : Reporter} {diagnostic : Diagnostic} {path text excerpt : String}

/-- A report has an excerpt only if there is a line and a text to blame. -/
theorem exists_line_of_excerptFor? (isSource : reporter.source = some ⟨path, Text.lines text⟩)
    (isExcerpt : reporter.excerptFor? diagnostic = some excerpt) :
    diagnostic.lexeme ≠ "" ∧ ∃ number line, diagnostic.line = some number ∧
      (Text.lines text)[(number - 1).toNat]? = some line ∧
      excerpt? reporter.style diagnostic.lexeme line = some excerpt := by
  rcases Option.bind_eq_some_iff.1 isExcerpt with ⟨number, isNumber, found⟩
  rcases Option.bind_eq_some_iff.1 found with ⟨line, isLine, shown⟩
  rcases Option.bind_eq_some_iff.1 shown with ⟨_, allowed, isShown⟩
  have isAllowed : line ≠ "" ∧ diagnostic.lexeme ≠ "" := by
    by_contra absent
    rw [guard, if_neg absent] at allowed
    cases allowed
  rcases Option.bind_eq_some_iff.1 isLine with ⟨source, isThis, counted⟩
  cases isThis.symm.trans isSource
  rcases Option.bind_eq_some_iff.1 counted with ⟨_, _, isCounted⟩
  exact ⟨isAllowed.2, number, line, isNumber, isCounted, isShown⟩

/-- The line that is shown is the one around the place to blame, if its number is that line's. -/
theorem excerpt?_of_excerptFor? (isSource : reporter.source = some ⟨path, Text.lines text⟩)
    {place : Place} (points : diagnostic.PointsAt text place)
    (plain : PlainUpTo text.toList place.stop)
    (isExcerpt : reporter.excerptFor? diagnostic = some excerpt) :
    excerpt? reporter.style diagnostic.lexeme
      (String.ofList (lineAround text.toList place.stop)) = some excerpt := by
  rcases exists_line_of_excerptFor? isSource isExcerpt with
    ⟨_, number, line, isNumber, isLine, isShown⟩
  cases isNumber.symm.trans points.line
  rw [Text.getElem?_lines plain isLine] at isShown
  exact isShown

end Reporter

end Scriptlet
