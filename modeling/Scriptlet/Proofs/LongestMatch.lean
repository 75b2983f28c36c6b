import Mathlib.Data.List.Forall2
import Scriptlet.Proofs.Lexicon.Reading
import Scriptlet.Scan

/-!
# Longest match

The segments of a text are the only way to cut it by the lexical grammar
(`Segment.cutting_cut`, `Segment.Cutting.eq_cut`), and each of them is the longest segment with
which the text can go on (`Segment.Ends.longest`).

The tokens of a text are the lexemes among its segments, and its errors are the segments that are
neither lexemes nor skipped (`scan_longest_match`).
-/

namespace Scriptlet

/-- What is made of some items of a list is related to these items, one by one. -/
theorem forall₂_filterMap {α β : Type} {make : α → Option β} {isKept : α → Bool}
    {related : α → β → Prop} (kept : ∀ item, isKept item = (make item).isSome) {items : List α}
    (relates : ∀ item ∈ items, ∀ made, make item = some made → related item made) :
    List.Forall₂ related (items.filter isKept) (items.filterMap make) := by
  induction items with
  | nil => exact .nil
  | cons item items ih =>
      rw [List.forall_mem_cons] at relates
      cases made : make item with
      | none =>
          rw [List.filterMap_cons_none made, List.filter_cons_of_neg (by simp [kept, made])]
          exact ih relates.2
      | some value =>
          rw [List.filterMap_cons_some made, List.filter_cons_of_pos (by simp [kept, made])]
          exact .cons (relates.1 value made) (ih relates.2)

namespace Segment

variable {segment : Segment} {rest : List Char}

/-- Segments that begin the same text, and are not drawn out by what follows them, are the same. -/
theorem Ends.unique {other : Segment} {later : List Char} (ends : segment.Ends rest)
    (lawful : segment.Lawful) (otherEnds : other.Ends later) (otherLawful : other.Lawful)
    (same : segment.text ++ rest = other.text ++ later) : segment = other := by
  rcases lawful.exists_cons with ⟨first, more, parts⟩
  rcases otherLawful.exists_cons with ⟨otherFirst, otherMore, otherParts⟩
  have reads := read_eq lawful ends parts
  rw [parts, otherParts, List.cons_append, List.cons_append] at same
  obtain ⟨rfl, sameRest⟩ := List.cons.inj same
  rw [sameRest, read_eq otherLawful otherEnds otherParts] at reads
  exact (congrArg Prod.fst reads).symm

/-- A segment that the text behind it does not draw out is the longest. -/
theorem Ends.longest (ends : segment.Ends rest) (lawful : segment.Lawful) :
    segment.Longest rest := by
  rintro other otherLawful ⟨later, whole⟩
  rcases exists_longest otherLawful later with
    ⟨longest, last, longestLawful, isLongest, same, covers⟩
  obtain rfl : segment = longest := ends.unique lawful (isLongest.ends longestLawful) longestLawful
    (same.trans whole).symm
  exact covers

/-- A lexeme has only one kind. -/
theorem kind_unique {kind other : Token.Kind} {lexeme : List Char}
    (isLexeme : Lexeme kind lexeme) (isOther : Lexeme other lexeme) : kind = other := by
  have ends (kind : Token.Kind) : (token kind lexeme).Ends [] := Lexeme.Ends.nil
  have same := (ends kind).unique (.recognised (.token isLexeme)) (ends other)
    (.recognised (.token isOther)) rfl
  exact (token.inj same).1

/--
A way to cut a text: segments of the grammar that cover the text, none of which is drawn out by the
segments behind it.
-/
structure Cutting (characters : List Char) (segments : List Segment) : Prop where
  covers : segments.flatMap text = characters
  lawful : ∀ segment ∈ segments, segment.Lawful
  ends : ∀ before segment after, segments = before ++ segment :: after →
    segment.Ends (after.flatMap text)

theorem Cutting.nil : Cutting [] [] where
  covers := rfl
  lawful := by simp
  ends := by simp

theorem Cutting.cons {segments : List Segment} (cutting : Cutting rest segments)
    (lawful : segment.Lawful) (ends : segment.Ends rest) :
    Cutting (segment.text ++ rest) (segment :: segments) where
  covers := by rw [List.flatMap_cons, cutting.covers]
  lawful := List.forall_mem_cons.2 ⟨lawful, cutting.lawful⟩
  ends := by
    intro before other after parts
    cases before with
    | nil =>
        cases parts
        rw [cutting.covers]
        exact ends
    | cons first before =>
        cases parts
        exact cutting.ends before other after rfl

theorem Cutting.tail {characters : List Char} {segments : List Segment}
    (cutting : Cutting characters (segment :: segments)) :
    Cutting (segments.flatMap text) segments where
  covers := rfl
  lawful := (List.forall_mem_cons.1 cutting.lawful).2
  ends before other after parts := cutting.ends (segment :: before) other after (by simp [parts])

/-- The segments of a text are a way to cut it. -/
theorem cutting_cut (characters : List Char) : Cutting characters (cut characters) := by
  induction characters using cut_induction with
  | nil => exact .nil
  | cons first rest ih =>
      rw [cut_cons, ← text_read]
      exact ih.cons (read_lawful first rest).1 (read_lawful first rest).2

/-- There is no other way to cut a text. -/
theorem Cutting.eq_cut {characters : List Char} {segments : List Segment}
    (cutting : Cutting characters segments) : segments = cut characters := by
  induction segments generalizing characters with
  | nil =>
      rw [← cutting.covers]
      rfl
  | cons segment segments ih =>
      have lawful := cutting.lawful segment (by simp)
      have ends := cutting.ends [] segment segments rfl
      rcases lawful.exists_cons with ⟨first, more, parts⟩
      rw [← cutting.covers, List.flatMap_cons, parts, List.cons_append, cut_cons,
        read_eq lawful ends parts, ← ih cutting.tail]

/-- Whether a segment is a lexeme. -/
def isToken : Segment → Bool
  | token _ _ => true
  | _ => false

/-- Whether a segment is an error. -/
def isError : Segment → Bool
  | unexpected _ => true
  | unterminated _ => true
  | _ => false

/--
A lexeme and a token that it is read as, on whatever line. The literal of a string is the text
between its quotes, and that of a number is the number. No other token has a literal.
-/
inductive ReadAs : Segment → Token → Prop
  | string {body : List Char} {line : Int} :
      ReadAs (token .string ('"' :: body ++ ['"']))
        { kind := .string
          lexeme := String.ofList ('"' :: body ++ ['"'])
          literal := .string (String.ofList body)
          line := line }
  | number {lexeme : List Char} {line : Int} :
      ReadAs (token .number lexeme)
        { kind := .number
          lexeme := String.ofList lexeme
          literal := .number (Number.ofLexeme lexeme)
          line := line }
  | plain {kind : Token.Kind} {lexeme : List Char} {line : Int} (notString : kind ≠ .string)
      (notNumber : kind ≠ .number) :
      ReadAs (token kind lexeme)
        { kind := kind
          lexeme := String.ofList lexeme
          literal := .null
          line := line }

/-- An error and the segment that it blames, on whatever line. -/
inductive BlamedBy : Segment → ScanError → Prop
  | unexpected {character : Char} {line : Int} :
      BlamedBy (unexpected character) ⟨.unexpectedCharacter character, line⟩
  | unterminated {body : List Char} {line : Int} :
      BlamedBy (unterminated body) ⟨.unterminatedString, line⟩

theorem ReadAs.text_eq {token : Token} (reads : segment.ReadAs token) :
    segment.text = token.lexeme.toList := by
  cases reads <;> exact String.toList_ofList.symm

theorem exists_of_token? {line : Int} {token : Token}
    (isToken : segment.token? line = some token) :
    ∃ kind lexeme, segment = .token kind lexeme ∧
      token = ⟨kind, String.ofList lexeme, literal kind lexeme, line⟩ := by
  cases segment with
  | token kind lexeme =>
      cases isToken
      exact ⟨kind, lexeme, rfl, rfl⟩
  | _ => cases isToken

theorem line_of_token? {line : Int} {token : Token}
    (isToken : segment.token? line = some token) : token.line = line := by
  rcases exists_of_token? isToken with ⟨_, _, _, rfl⟩
  rfl

theorem line_of_error? {line : Int} {error : ScanError}
    (isError : segment.error? line = some error) : error.line = line := by
  cases segment with
  | unexpected =>
      cases isError
      rfl
  | unterminated =>
      cases isError
      rfl
  | _ => contradiction

theorem readAs_of_token? {line : Int} {token : Token} (lawful : segment.Lawful)
    (isToken : segment.token? line = some token) : segment.ReadAs token := by
  cases lawful with
  | unexpected => contradiction
  | recognised isRecognised =>
      cases isRecognised with
      | @token kind lexeme isLexeme =>
          cases isToken
          by_cases isString : kind = .string
          · subst isString
            cases isLexeme with
            | sign listed => simp [Token.Kind.signs] at listed
            | keyword listed => simp [Token.Kind.keywords] at listed
            | @string body closed =>
                have between : (('"' :: body ++ ['"']).drop 1).dropLast = body := by simp
                simp only [literal, between]
                exact .string
          · by_cases isNumber : kind = .number
            · subst isNumber
              exact .number
            · have noLiteral : literal kind lexeme = .null := by
                unfold literal
                split <;> simp_all
              rw [noLiteral]
              exact .plain isString isNumber
      | _ => contradiction

theorem blamedBy_of_error? {line : Int} {error : ScanError}
    (isError : segment.error? line = some error) : segment.BlamedBy error := by
  cases segment with
  | unexpected =>
      cases isError
      exact .unexpected
  | unterminated =>
      cases isError
      exact .unterminated
  | _ => contradiction

theorem map_snd_numbered (line : Int) (segments : List Segment) :
    (numbered line segments).map Prod.snd = segments := by
  induction segments generalizing line with
  | nil => rfl
  | cons segment segments ih => simp [ih]

theorem snd_mem_of_mem_numbered {line : Int} {segments : List Segment} {entry : Int × Segment}
    (member : entry ∈ numbered line segments) : entry.2 ∈ segments := by
  rw [← map_snd_numbered line segments]
  exact List.mem_map_of_mem member

variable (line : Int) {segments : List Segment}

/-- The tokens of segments, wherever these begin, are the lexemes among them, in order. -/
theorem forall₂_readAs (lawful : ∀ segment ∈ segments, segment.Lawful) :
    List.Forall₂ (fun entry token => entry.2.ReadAs token ∧ token.line = entry.1)
      ((numbered line segments).filter (·.2.isToken))
      ((numbered line segments).filterMap fun (last, segment) => segment.token? last) := by
  apply forall₂_filterMap
  · rintro ⟨last, segment⟩
    cases segment <;> rfl
  · rintro ⟨last, segment⟩ member token isToken
    have reads := readAs_of_token? (lawful segment (snd_mem_of_mem_numbered member)) isToken
    exact ⟨reads, line_of_token? isToken⟩

/-- The errors of segments, wherever these begin, are the faulty ones among them, in order. -/
theorem forall₂_blamedBy (segments : List Segment) :
    List.Forall₂ (fun entry error => entry.2.BlamedBy error ∧ error.line = entry.1)
      ((numbered line segments).filter (·.2.isError))
      ((numbered line segments).filterMap fun (last, segment) => segment.error? last) := by
  apply forall₂_filterMap
  · rintro ⟨last, segment⟩
    cases segment <;> rfl
  · rintro ⟨last, segment⟩ _ error isError
    exact ⟨blamedBy_of_error? isError, line_of_error? isError⟩

theorem lexeme_of_mem (lawful : ∀ segment ∈ segments, segment.Lawful) {token : Token}
    (member : token ∈
      (numbered line segments).filterMap fun (last, segment) => segment.token? last) :
    Lexeme token.kind token.lexeme.toList := by
  rcases List.mem_filterMap.1 member with ⟨⟨last, segment⟩, isNumbered, isToken⟩
  have isSegment := snd_mem_of_mem_numbered isNumbered
  cases lawful segment isSegment with
  | unexpected => contradiction
  | recognised isRecognised =>
      cases isRecognised with
      | token isLexeme =>
          cases isToken
          rw [String.toList_ofList]
          exact isLexeme
      | _ => contradiction

theorem filter_numbered (isKept : Segment → Bool) :
    segments.filter isKept =
      ((numbered line segments).filter (isKept ·.2)).map Prod.snd := by
  conv_lhs => rw [← map_snd_numbered line segments, List.filter_map]
  rfl

theorem forall₂_filter_readAs (lawful : ∀ segment ∈ segments, segment.Lawful) :
    List.Forall₂ ReadAs (segments.filter isToken)
      ((numbered line segments).filterMap fun (last, segment) => segment.token? last) := by
  rw [filter_numbered line, List.forall₂_map_left_iff]
  exact (forall₂_readAs line lawful).imp fun entry token reads => reads.1

end Segment

open Segment

/--
The segments of a text are the only way to cut it by the lexical grammar, and each of them is the
longest segment with which the text can go on. The tokens are the lexemes in their order, each with
the only kind that its lexeme has, and one mark at the end; the errors are the unexpected characters
and the unterminated string.
-/
theorem scan_longest_match (text : String) :
    ∃ segments,
      (Cutting text.toList segments ∧
        ∀ others, Cutting text.toList others → others = segments) ∧
      (∀ before segment after, segments = before ++ segment :: after →
        segment.Longest (after.flatMap Segment.text)) ∧
      (∃ tokens, (scan text).tokens = tokens ++ [.endOfText (lastLine text)] ∧
        List.Forall₂ ReadAs (segments.filter isToken) tokens ∧
        ∀ token ∈ tokens, token.kind ≠ .eof ∧
          ∀ kind, Lexeme kind token.lexeme.toList ↔ kind = token.kind) ∧
      List.Forall₂ BlamedBy (segments.filter isError) (scan text).errors := by
  have cutting := cutting_cut text.toList
  refine ⟨cut text.toList, ⟨cutting, fun others isCutting => isCutting.eq_cut⟩, ?_,
    ⟨_, rfl, ?_, ?_⟩, ?_⟩
  · intro before segment after parts
    have lawful := cutting.lawful segment (by simp [parts])
    exact (cutting.ends before segment after parts).longest lawful
  · exact forall₂_filter_readAs 1 cutting.lawful
  · intro token member
    have isLexeme := lexeme_of_mem 1 cutting.lawful member
    refine ⟨isLexeme.kind_ne_eof, fun kind => ⟨fun isOther => kind_unique isOther isLexeme, ?_⟩⟩
    rintro rfl
    exact isLexeme
  · rw [filter_numbered 1, List.forall₂_map_left_iff]
    exact (forall₂_blamedBy 1 _).imp fun entry error blames => blames.1

end Scriptlet
