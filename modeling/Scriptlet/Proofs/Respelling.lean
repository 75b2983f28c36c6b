import Scriptlet.Proofs.LongestMatch

/-!
# Spelling tokens out again

A space draws no lexeme out. Lexemes with a space between each two of them are therefore a way to
cut the text that they make up, and as there is no other way, scanning this text gives the same
tokens again (`scan_respelled`).
-/

namespace Scriptlet

/-- What a token is, apart from the line that it stands on. -/
def Token.content (token : Token) : Token.Kind × String × Constant :=
  (token.kind, token.lexeme, token.literal)

/-- The lexemes of tokens, but for marks of an end, with a space between each two of them. -/
def respelled (tokens : List Token) : String :=
  " ".intercalate ((tokens.filter (·.kind ≠ .eof)).map Token.lexeme)

namespace Segment

section Views

variable {α β : Type} {make : Int → Segment → Option α} {view : α → β}

/-- What can be seen without the lines is the same on whatever line segments begin. -/
theorem map_numbered
    (anyLine : ∀ line segment, (make line segment).map view = (make 0 segment).map view)
    (line : Int) (segments : List Segment) :
    ((numbered line segments).filterMap fun (last, segment) => make last segment).map view =
      segments.filterMap fun segment => (make 0 segment).map view := by
  rw [List.map_filterMap]
  simp only [anyLine]
  conv_rhs => rw [← map_snd_numbered line segments, List.filterMap_map]
  rfl

end Views

/-- What the token of a segment is, if it has one. -/
def content? (segment : Segment) : Option (Token.Kind × String × Constant) :=
  (segment.token? 0).map Token.content

theorem filterMap_content (segments : List Segment) :
    (segments.filter isToken).filterMap content? = segments.filterMap content? := by
  rw [List.filterMap_filter]
  apply List.filterMap_congr
  intro segment _
  cases segment <;> rfl

theorem map_content_numbered (line : Int) (segments : List Segment) :
    ((numbered line segments).filterMap fun (last, segment) => segment.token? last).map
      Token.content = segments.filterMap content? := by
  apply map_numbered
  intro last segment
  cases segment <;> rfl

/-- What is wrong with a segment, if something is. -/
def cause? (segment : Segment) : Option ScanError.Cause :=
  (segment.error? 0).map ScanError.cause

theorem map_cause_numbered (line : Int) (segments : List Segment) :
    ((numbered line segments).filterMap fun (last, segment) => segment.error? last).map
      ScanError.cause = segments.filterMap cause? := by
  apply map_numbered
  intro last segment
  cases segment <;> rfl

theorem map_text_of_forall₂ {segments : List Segment} {tokens : List Token}
    (reads : List.Forall₂ ReadAs segments tokens) :
    segments.map text = tokens.map (String.toList ∘ Token.lexeme) := by
  induction reads with
  | nil => rfl
  | cons reads _ ih => rw [List.map_cons, List.map_cons, ih, reads.text_eq, Function.comp_apply]

/-- Segments with a space between each two of them. -/
def spaced (segments : List Segment) : List Segment :=
  segments.intersperse (blank ' ')

theorem filterMap_spaced {α : Type} {make : Segment → Option α} (skips : make (blank ' ') = none)
    (segments : List Segment) : (spaced segments).filterMap make = segments.filterMap make := by
  induction segments with
  | nil => rfl
  | cons segment segments ih =>
      cases segments with
      | nil => rfl
      | cons next segments =>
          rw [spaced, List.intersperse_cons_cons]
          simp only [List.filterMap_cons (a := segment), List.filterMap_cons_none skips]
          rw [← ih]
          rfl

theorem cutting_spaced {segments : List Segment} (lawful : ∀ segment ∈ segments, segment.Lawful)
    (areTokens : ∀ segment ∈ segments, segment.isToken) :
    Cutting ([' '].intercalate (segments.map text)) (spaced segments) := by
  induction segments with
  | nil => exact .nil
  | cons segment segments ih =>
      rw [List.forall_mem_cons] at lawful areTokens
      obtain ⟨kind, lexeme, rfl⟩ : ∃ kind lexeme, segment = token kind lexeme := by
        cases segment with
        | token kind lexeme => exact ⟨kind, lexeme, rfl⟩
        | _ => simp [isToken] at areTokens
      cases segments with
      | nil =>
          rw [List.map_singleton, List.intercalate_singleton, ← List.append_nil (text _)]
          exact Cutting.nil.cons lawful.1 Lexeme.Ends.nil
      | cons next segments =>
          have isSpace : Lawful (blank ' ') := .recognised (.blank (by simp))
          have later := (ih lawful.2 areTokens.2).cons isSpace trivial
          rw [List.map_cons, List.map_cons, List.intercalate_cons_cons, List.append_assoc]
          exact later.cons lawful.1 (Lexeme.Ends.nil.append (by simp) _)

end Segment

open Segment

theorem filter_tokens_scan (text : String) :
    (scan text).tokens.filter (·.kind ≠ .eof) =
      (numbered 1 (cut text.toList)).filterMap fun (last, segment) => segment.token? last := by
  have kinds : ∀ token ∈ (numbered 1 (cut text.toList)).filterMap
      fun (last, segment) => segment.token? last, decide (token.kind ≠ .eof) = true := by
    intro token member
    exact decide_eq_true (lexeme_of_mem 1 (cutting_cut text.toList).lawful member).kind_ne_eof
  have mark : [Token.endOfText (lastLine text)].filter (·.kind ≠ .eof) = [] := rfl
  simp only [scan]
  rw [List.filter_append, List.filter_eq_self.2 kinds, mark, List.append_nil]

theorem toList_respelled (text : String) :
    (respelled (scan text).tokens).toList =
      [' '].intercalate (((cut text.toList).filter isToken).map Segment.text) := by
  have lexemes := map_text_of_forall₂ (forall₂_filter_readAs 1 (cutting_cut text.toList).lawful)
  rw [respelled, filter_tokens_scan, String.toList_intercalate, List.map_map, lexemes]
  rfl

theorem map_content_scan (text : String) :
    (scan text).tokens.map Token.content =
      (cut text.toList).filterMap content? ++ [(.eof, "", .null)] := by
  simp only [scan, List.map_append, map_content_numbered]
  rfl

theorem map_cause_scan (text : String) :
    (scan text).errors.map ScanError.cause = (cut text.toList).filterMap cause? := by
  simp only [scan, map_cause_numbered]

/--
The lexemes of any text, with a space between each two of them, are scanned without errors, and as
tokens of the same kinds, with the same lexemes and literals.
-/
theorem scan_respelled (text : String) :
    (scan (respelled (scan text).tokens)).errors = [] ∧
      (scan (respelled (scan text).tokens)).tokens.map Token.content =
        (scan text).tokens.map Token.content := by
  have lawful : ∀ segment ∈ (cut text.toList).filter isToken, segment.Lawful :=
    fun segment member => (cutting_cut text.toList).lawful segment (List.mem_filter.1 member).1
  have areTokens : ∀ segment ∈ (cut text.toList).filter isToken, segment.isToken :=
    fun segment member => (List.mem_filter.1 member).2
  have again : cut (respelled (scan text).tokens).toList =
      spaced ((cut text.toList).filter isToken) := by
    rw [toList_respelled]
    exact (cutting_spaced lawful areTokens).eq_cut.symm
  constructor
  · rw [← List.map_eq_nil_iff, map_cause_scan, again, filterMap_spaced rfl,
      List.filterMap_eq_nil_iff]
    intro segment member
    cases segment with
    | token => rfl
    | _ => simp [isToken] at member
  · rw [map_content_scan, map_content_scan, again, filterMap_spaced rfl, filterMap_content]

end Scriptlet
