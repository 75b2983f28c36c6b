import Scriptlet.Continuation
import Scriptlet.Proofs.Respelling
import Scriptlet.Proofs.ScanLines

/-!
# Line continuation and scanning

Whether a text goes on with the next line is found out without cutting it into segments: strings
are emptied wherever two quotes are, and then lines are cut at two slashes. Where no quote is left
open and none stands in a comment, both ways of reading agree segment by segment. What is left of
the text is then what is left of each segment by itself (`Segment.code_cut`), so that the brackets
that are left are the brackets among the tokens (`count_code`, `continuation_agrees_with_scan`).
-/

namespace Scriptlet

namespace Continuation

section EmptyStrings

theorem emptyStrings_append {plain : List Char} (noQuote : '"' ∉ plain) (rest : List Char) :
    emptyStrings none (plain ++ rest) = plain ++ emptyStrings none rest := by
  induction plain with
  | nil => rfl
  | cons first plain ih =>
      simp only [List.mem_cons, not_or] at noQuote
      simp [emptyStrings, Ne.symm noQuote.1, ih noQuote.2]

theorem emptyStrings_closed {body : List Char} (noQuote : '"' ∉ body) (begun rest : List Char) :
    emptyStrings (some begun) (body ++ '"' :: rest) = '"' :: '"' :: emptyStrings none rest := by
  induction body generalizing begun with
  | nil => simp [emptyStrings]
  | cons first body ih =>
      simp only [List.mem_cons, not_or] at noQuote
      simp [emptyStrings, Ne.symm noQuote.1, ih noQuote.2]

theorem emptyStrings_string {body : List Char} (noQuote : '"' ∉ body) (rest : List Char) :
    emptyStrings none ('"' :: body ++ ['"'] ++ rest) = '"' :: '"' :: emptyStrings none rest := by
  simpa [emptyStrings] using emptyStrings_closed noQuote [] rest

end EmptyStrings

section DropComments

theorem dropComments_newline (inComment : Bool) (rest : List Char) :
    dropComments inComment ('\n' :: rest) = '\n' :: dropComments false rest := by
  cases inComment <;> rfl

/-- A character that begins no comment stays. -/
theorem dropComments_cons {first : Char} {rest : List Char}
    (beginsNone : first ≠ '/' ∨ rest.head? ≠ some '/') :
    dropComments false (first :: rest) = first :: dropComments false rest := by
  by_cases isNewline : first = '\n'
  · subst isNewline
    exact dropComments_newline false rest
  · cases rest with
    | nil => simp [dropComments]
    | cons next rest =>
        rw [dropComments]
        · exact isNewline
        · rintro later rfl parts
          simp [(List.cons.inj parts).1] at beginsNone

theorem dropComments_append {plain : List Char} (noSlash : '/' ∉ plain) (rest : List Char) :
    dropComments false (plain ++ rest) = plain ++ dropComments false rest := by
  induction plain with
  | nil => rfl
  | cons first plain ih =>
      simp only [List.mem_cons, not_or] at noSlash
      rw [List.cons_append, dropComments_cons (.inl (Ne.symm noSlash.1)), ih noSlash.2,
        List.cons_append]

/-- A comment goes as far as the end of its line. -/
theorem dropComments_body {body rest : List Char} (onLine : '\n' ∉ body)
    (ends : ∀ next ∈ rest.head?, next = '\n') :
    dropComments true (body ++ rest) = dropComments false rest := by
  induction body with
  | nil =>
      cases rest with
      | nil => rfl
      | cons next rest =>
          obtain rfl : next = '\n' := ends next rfl
          rfl
  | cons first body ih =>
      simp only [List.mem_cons, not_or] at onLine
      rw [List.cons_append, dropComments]
      · exact ih onLine.2
      · exact Ne.symm onLine.1

end DropComments

end Continuation

/-- The brackets that must be closed on some line, with the kinds of their tokens. -/
def Token.Kind.brackets : List (Char × Token.Kind) :=
  [('(', leftParen), (')', rightParen), ('{', leftBrace), ('}', rightBrace)]

namespace Lexeme

open Segment

variable {kind : Token.Kind} {lexeme : List Char}

/-- A lexeme with a character that is in no word and in no number is a sign or a string. -/
theorem listed_of_mem (isLexeme : Lexeme kind lexeme) (notString : kind ≠ .string)
    {character : Char} (member : character ∈ lexeme) (noPart : isWordPart character = false)
    (noPoint : character ≠ '.') : (lexeme, kind) ∈ Token.Kind.signs := by
  have inNoWord {word : List Char} (word_isWord : isWord word) : character ∉ word := by
    intro member
    rcases exists_cons_of_isWord word_isWord with ⟨first, more, rfl, starts, goesOn⟩
    rcases List.mem_cons.1 member with rfl | isLater
    · simp [isWordPart, starts] at noPart
    · simp [goesOn _ isLater] at noPart
  have inNoNumber {digits : List Char} (areDigits : AreDigits digits) : character ∉ digits := by
    intro member
    simp [isWordPart, areDigits.isDigit _ member] at noPart
  cases isLexeme with
  | sign listed => exact listed
  | keyword listed => exact absurd member (inNoWord (isWord_of_mem listed))
  | identifier word_isWord => exact absurd member (inNoWord word_isWord)
  | whole areDigits => exact absurd member (inNoNumber areDigits)
  | fraction areDigits areDecimals =>
      simp only [List.mem_append, List.mem_cons] at member
      rcases member with inDigits | isPoint | inDecimals
      · exact absurd inDigits (inNoNumber areDigits)
      · exact absurd isPoint noPoint
      · exact absurd inDecimals (inNoNumber areDecimals)
  | string => contradiction

theorem quote_not_mem (isLexeme : Lexeme kind lexeme) (notString : kind ≠ .string) :
    '"' ∉ lexeme := by
  intro member
  have noQuote : ∀ entry ∈ Token.Kind.signs, '"' ∉ entry.1 := by decide
  exact noQuote _ (isLexeme.listed_of_mem notString member (by decide) (by decide)) member

theorem eq_slash_of_mem (isLexeme : Lexeme kind lexeme) (notString : kind ≠ .string)
    (member : '/' ∈ lexeme) : lexeme = ['/'] := by
  have onlySlash : ∀ entry ∈ Token.Kind.signs, '/' ∈ entry.1 → entry.1 = ['/'] := by decide
  exact onlySlash _ (isLexeme.listed_of_mem notString member (by decide) (by decide)) member

theorem listed_of_bracket (isLexeme : Lexeme kind lexeme) {bracket : Char}
    (isBracket : (bracket, kind) ∈ Token.Kind.brackets) : (lexeme, kind) ∈ Token.Kind.signs := by
  have noOther : ∀ entry ∈ Token.Kind.brackets,
      entry.2 ∉ Token.Kind.keywords.map Prod.snd ∧ entry.2 ≠ .identifier ∧ entry.2 ≠ .number ∧
      entry.2 ≠ .string := by decide
  rcases noOther _ isBracket with ⟨noKeyword, noIdentifier, noNumber, noString⟩
  cases isLexeme with
  | sign listed => exact listed
  | keyword listed => exact absurd (List.mem_map_of_mem listed) noKeyword
  | identifier => contradiction
  | whole => contradiction
  | fraction => contradiction
  | string => contradiction

/-- A lexeme is a bracket, or the bracket is not in it, unless it is a string. -/
theorem count_bracket (isLexeme : Lexeme kind lexeme) (notString : kind ≠ .string)
    {bracket : Char} {bracketKind : Token.Kind}
    (isBracket : (bracket, bracketKind) ∈ Token.Kind.brackets) :
    lexeme.count bracket = if kind = bracketKind then 1 else 0 := by
  by_cases listed : (lexeme, kind) ∈ Token.Kind.signs
  · have counts : ∀ entry ∈ Token.Kind.signs, ∀ pair ∈ Token.Kind.brackets,
        entry.1.count pair.1 = if entry.2 = pair.2 then 1 else 0 := by decide
    exact counts _ listed _ isBracket
  · have noWord : ∀ pair ∈ Token.Kind.brackets,
        isWordPart pair.1 = false ∧ pair.1 ≠ '.' := by decide
    have notMember : bracket ∉ lexeme := fun member => listed
      (isLexeme.listed_of_mem notString member (noWord _ isBracket).1 (noWord _ isBracket).2)
    have otherKind : kind ≠ bracketKind := by
      rintro rfl
      exact listed (isLexeme.listed_of_bracket isBracket)
    rw [List.count_eq_zero.2 notMember, if_neg otherKind]

end Lexeme

namespace Segment

open Continuation

/-- What is left of a segment when strings are emptied. -/
def emptied : Segment → List Char
  | token .string _ => ['"', '"']
  | segment => segment.text

/-- What is left of a segment when strings are emptied and comments are dropped. -/
def code : Segment → List Char
  | comment _ => []
  | segment => segment.emptied

/-- That a segment leaves no string open and is no comment with a quote. -/
structure Clear (segment : Segment) : Prop where
  terminated : segment.isUnterminated = false
  unquoted : ∀ body, segment = comment body → '"' ∉ body

variable {segment : Segment} {segments : List Segment} {characters : List Char}

theorem emptied_token {kind : Token.Kind} (notString : kind ≠ .string) (lexeme : List Char) :
    (token kind lexeme).emptied = lexeme := by
  cases kind <;> first | contradiction | rfl

/-- A character with which some segment begins is not one with which none begins. -/
theorem ne_of_begins {character first : Char} {more : List Char}
    (beginsNone : ∀ segment : Segment, segment.Recognised → segment.text.head? ≠ some character)
    (begins : segment.Recognised) (parts : segment.text = first :: more) : character ≠ first := by
  rintro rfl
  exact beginsNone segment begins (by simp [parts])

/-- Quotes are found around strings only. -/
theorem Lawful.string_or_unquoted (lawful : segment.Lawful) (clear : segment.Clear) :
    (∃ body, segment = token .string ('"' :: body ++ ['"']) ∧ '"' ∉ body) ∨
    (segment.emptied = segment.text ∧ '"' ∉ segment.text) := by
  cases lawful with
  | unexpected beginsNone =>
      have differs := ne_of_begins beginsNone recognised_quote rfl
      exact .inr ⟨rfl, by simpa [text] using Ne.symm differs⟩
  | recognised isRecognised =>
      cases isRecognised with
      | @token kind lexeme isLexeme =>
          by_cases isString : kind = .string
          · subst isString
            cases isLexeme with
            | sign listed => simp [Token.Kind.signs] at listed
            | keyword listed => simp [Token.Kind.keywords] at listed
            | string closed => exact .inl ⟨_, rfl, closed⟩
          · exact .inr ⟨emptied_token isString lexeme, isLexeme.quote_not_mem isString⟩
      | blank isBlank =>
          refine .inr ⟨rfl, ?_⟩
          simp only [List.mem_cons, List.not_mem_nil, or_false] at isBlank
          rcases isBlank with rfl | rfl | rfl <;> simp [text]
      | newline => exact .inr ⟨rfl, by simp [text]⟩
      | @comment body _ => exact .inr ⟨rfl, by simpa [text] using clear.unquoted body rfl⟩
      | unterminated => exact absurd clear.terminated (by simp [isUnterminated])

/-- Emptying the strings of a text empties the strings among its segments. -/
theorem emptyStrings_flatMap (lawful : ∀ segment ∈ segments, segment.Lawful)
    (clear : ∀ segment ∈ segments, segment.Clear) :
    emptyStrings none (segments.flatMap text) = segments.flatMap emptied := by
  induction segments with
  | nil => rfl
  | cons segment segments ih =>
      rw [List.forall_mem_cons] at lawful clear
      rw [List.flatMap_cons, List.flatMap_cons, ← ih lawful.2 clear.2]
      rcases lawful.1.string_or_unquoted clear.1 with ⟨body, rfl, closed⟩ | ⟨same, unquoted⟩
      · exact emptyStrings_string closed _
      · rw [same, emptyStrings_append unquoted]

/-- Emptied strings still begin with a quote. -/
theorem head?_emptied (lawful : ∀ segment ∈ segments, segment.Lawful)
    (clear : ∀ segment ∈ segments, segment.Clear) :
    (segments.flatMap emptied).head? = (segments.flatMap text).head? := by
  cases segments with
  | nil => rfl
  | cons segment segments =>
      rw [List.forall_mem_cons] at lawful clear
      rcases lawful.1.string_or_unquoted clear.1 with ⟨body, rfl, _⟩ | ⟨same, _⟩
      · rfl
      · rcases lawful.1.exists_cons with ⟨first, more, parts⟩
        simp [same, parts]

/-- Dropping comments keeps a segment that is none, whatever follows it. -/
theorem Lawful.dropComments_emptied (lawful : segment.Lawful) (clear : segment.Clear)
    {rest later : List Char} (ends : segment.Ends later) (sameHead : rest.head? = later.head?) :
    dropComments false (segment.emptied ++ rest) = segment.code ++ dropComments false rest := by
  have isSlash : Recognised (token .slash ['/']) := .token (.sign (by decide))
  cases lawful with
  | unexpected beginsNone =>
      have differs := ne_of_begins beginsNone isSlash rfl
      exact dropComments_cons (.inl differs)
  | recognised isRecognised =>
      cases isRecognised with
      | @token kind lexeme isLexeme =>
          by_cases isString : kind = .string
          · subst isString
            exact dropComments_append (by simp [emptied]) rest
          · change dropComments false ((token kind lexeme).emptied ++ rest) =
              (token kind lexeme).emptied ++ dropComments false rest
            rw [emptied_token isString]
            by_cases member : '/' ∈ lexeme
            · obtain rfl := isLexeme.eq_slash_of_mem isString member
              exact dropComments_cons (.inr (sameHead ▸ ends.slash rfl))
            · exact dropComments_append member rest
      | blank isBlank =>
          simp only [List.mem_cons, List.not_mem_nil, or_false] at isBlank
          rcases isBlank with rfl | rfl | rfl <;> exact dropComments_cons (.inl (by decide))
      | newline => rfl
      | comment onLine => exact dropComments_body onLine (sameHead ▸ ends)
      | unterminated => exact absurd clear.terminated (by simp [isUnterminated])

/-- Dropping the comments of a text drops the comments among its segments. -/
theorem Cutting.dropComments_flatMap (cutting : Cutting characters segments)
    (clear : ∀ segment ∈ segments, segment.Clear) :
    dropComments false (segments.flatMap emptied) = segments.flatMap code := by
  induction segments generalizing characters with
  | nil => rfl
  | cons segment segments ih =>
      rw [List.forall_mem_cons] at clear
      have lawful := List.forall_mem_cons.1 cutting.lawful
      rw [List.flatMap_cons, List.flatMap_cons, ← ih cutting.tail clear.2]
      exact lawful.1.dropComments_emptied clear.1 (cutting.ends [] segment segments rfl)
        (head?_emptied lawful.2 clear.2)

/-- What is left of a text is what is left of its segments. -/
theorem code_cut (clear : ∀ segment ∈ cut characters, segment.Clear) :
    Continuation.code characters = (cut characters).flatMap code := by
  have cutting := cutting_cut characters
  rw [Continuation.code, ← cutting.dropComments_flatMap clear,
    ← emptyStrings_flatMap cutting.lawful clear, cutting.covers]

/-- The kind of token that a segment is read as, if it is a lexeme. -/
def kind? (segment : Segment) : Option Token.Kind :=
  (segment.token? 0).map Token.kind

section Brackets

variable {bracket : Char} {kind : Token.Kind} (isBracket : (bracket, kind) ∈ Token.Kind.brackets)

include isBracket

/-- A bracket is left of a segment only if the segment is that bracket. -/
theorem Lawful.count_code (lawful : segment.Lawful)
    (terminated : segment.isUnterminated = false) :
    segment.code.count bracket = if segment.kind? = some kind then 1 else 0 := by
  have isSign : ∀ pair ∈ Token.Kind.brackets, ([pair.1], pair.2) ∈ Token.Kind.signs := by decide
  have begins : Recognised (token kind [bracket]) := .token (.sign (isSign _ isBracket))
  have isOther : ∀ pair ∈ Token.Kind.brackets,
      pair.1 ≠ '"' ∧ pair.1 ≠ ' ' ∧ pair.1 ≠ '\r' ∧ pair.1 ≠ '\t' ∧ pair.1 ≠ '\n' ∧
      pair.2 ≠ .string := by decide
  rcases isOther _ isBracket with ⟨notQuote, notSpace, notReturn, notTab, notNewline, notString⟩
  cases lawful with
  | unexpected beginsNone =>
      have differs := ne_of_begins beginsNone begins rfl
      simp [code, emptied, text, kind?, token?, differs]
  | recognised isRecognised =>
      cases isRecognised with
      | @token other lexeme isLexeme =>
          by_cases isString : other = .string
          · subst isString
            simp [code, emptied, kind?, token?, Ne.symm notQuote, Ne.symm notString]
          · change (token other lexeme).emptied.count bracket = _
            rw [emptied_token isString, isLexeme.count_bracket isString isBracket]
            simp [kind?, token?]
      | @blank character isBlank =>
          have differs : character ≠ bracket := by
            rintro rfl
            simp [notSpace, notReturn, notTab] at isBlank
          simp [code, emptied, text, kind?, token?, differs]
      | newline => simp [code, emptied, text, kind?, token?, Ne.symm notNewline]
      | comment => simp [code, kind?, token?]
      | unterminated => exact absurd terminated (by simp [isUnterminated])

theorem count_flatMap_code (lawful : ∀ segment ∈ segments, segment.Lawful)
    (terminated : ∀ segment ∈ segments, segment.isUnterminated = false) :
    (segments.flatMap code).count bracket = (segments.filterMap kind?).count kind := by
  induction segments with
  | nil => rfl
  | cons segment segments ih =>
      rw [List.forall_mem_cons] at lawful terminated
      rw [List.flatMap_cons, List.count_append, lawful.1.count_code isBracket terminated.1,
        ih lawful.2 terminated.2, List.filterMap_cons]
      cases segment.kind? with
      | none => simp
      | some other => simp [List.count_cons, Nat.add_comm]

end Brackets

end Segment

open Segment

/-- The kinds of the tokens of a text are those of its segments, and that of the mark at its end. -/
theorem map_kind_scan (text : String) :
    (scan text).tokens.map Token.kind = (cut text.toList).filterMap kind? ++ [.eof] := by
  simp only [scan, List.map_append]
  rw [map_numbered]
  · rfl
  · intro line segment
    cases segment <;> rfl

/-- That no string of a text is left open, and that no comment of it contains a quote. -/
structure Unambiguous (text : String) : Prop where
  terminated : ∀ error ∈ (scan text).errors, error.cause ≠ .unterminatedString
  unquoted : ∀ body, .comment body ∈ cut text.toList → '"' ∉ body

/-- The brackets that are left of the segments of a text are those among its tokens. -/
theorem count_flatMap_code_cut {text : String}
    (terminated : ∀ error ∈ (scan text).errors, error.cause ≠ .unterminatedString)
    {bracket : Char} {kind : Token.Kind} (isBracket : (bracket, kind) ∈ Token.Kind.brackets) :
    ((cut text.toList).flatMap code).count bracket =
      ((scan text).tokens.map Token.kind).count kind := by
  have notEnd : ∀ pair ∈ Token.Kind.brackets, pair.2 ≠ .eof := by decide
  rw [count_flatMap_code isBracket (cutting_cut _).lawful (cut_terminated terminated),
    map_kind_scan, List.count_append, List.count_singleton]
  simp [Ne.symm (notEnd _ isBracket)]

/-- The brackets that are left of a text are those among its tokens. -/
theorem count_code {text : String} (unambiguous : Unambiguous text) {bracket : Char}
    {kind : Token.Kind} (isBracket : (bracket, kind) ∈ Token.Kind.brackets) :
    (Continuation.code text.toList).count bracket =
      ((scan text).tokens.map Token.kind).count kind := by
  have clear : ∀ segment ∈ cut text.toList, segment.Clear := by
    intro segment member
    refine ⟨cut_terminated unambiguous.terminated segment member, ?_⟩
    rintro body rfl
    exact unambiguous.unquoted body member
  rw [code_cut clear, count_flatMap_code_cut unambiguous.terminated isBracket]

/--
The shell and the scanner agree on whether a text goes on with the next line. If no string of the
text so far is left open, and no comment of it contains a quote, then the text goes on if and only
if its tokens have more opening than closing parentheses, or more opening than closing braces.
-/
theorem continuation_agrees_with_scan {pending line : String}
    (unambiguous : Unambiguous (pending ++ line ++ "\n")) :
    let text := pending ++ line ++ "\n"
    let kinds := (scan text).tokens.map Token.kind
    Continuation.join pending line = text ∧
    (Continuation.isNeeded (Continuation.join pending line) = true ↔
      kinds.count .leftParen > kinds.count .rightParen ∨
      kinds.count .leftBrace > kinds.count .rightBrace) := by
  intro text kinds
  have counts {bracket : Char} {kind : Token.Kind}
      (isBracket : (bracket, kind) ∈ Token.Kind.brackets) :
      (Continuation.code text.toList).count bracket = kinds.count kind :=
    count_code unambiguous isBracket
  have leftParens := counts (by decide : ('(', .leftParen) ∈ Token.Kind.brackets)
  have rightParens := counts (by decide : (')', .rightParen) ∈ Token.Kind.brackets)
  have leftBraces := counts (by decide : ('{', .leftBrace) ∈ Token.Kind.brackets)
  have rightBraces := counts (by decide : ('}', .rightBrace) ∈ Token.Kind.brackets)
  refine ⟨rfl, ?_⟩
  change Continuation.isNeeded text = true ↔ _
  simp only [Continuation.isNeeded, leftParens, rightParens, leftBraces, rightBraces,
    Bool.or_eq_true, decide_eq_true_eq]

/--
A string that spans two lines hides a brace and two slashes, and a comment hides a parenthesis. The
text goes on because of the brace that is left.
-/
theorem continuation_agrees_with_scan_hidden :
    let pending := "\x7b print \"\x7d //\n"
    let line := "\"; // (x)"
    Unambiguous (pending ++ line ++ "\n") ∧
    Continuation.isNeeded (Continuation.join pending line) = true := by
  intro pending line
  have unambiguous : Unambiguous (pending ++ line ++ "\n") := by
    have onlyTokens : ∀ segment ∈ cut (pending ++ line ++ "\n").toList,
        '"' ∈ segment.text → segment.isToken = true := by decide
    constructor
    · decide
    · intro body member isQuoted
      have isToken := onlyTokens _ member (by simp [text, isQuoted])
      contradiction
  exact ⟨unambiguous, (continuation_agrees_with_scan unambiguous).2.2 (.inr (by decide))⟩

end Scriptlet
