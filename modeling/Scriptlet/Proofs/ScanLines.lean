import Scriptlet.Proofs.LongestMatch

/-!
# Scanning text line by line

A newline draws no segment out but a string that is never closed, so that a text without one can be
followed by a newline and another text: the segments, tokens and errors of the whole are those of
the parts, with the lines of the second part counted on (`tokens_scan_lines`,
`errors_scan_lines`, `scan_line_by_line`).
-/

namespace Scriptlet

namespace Segment

/-- Whether a segment is a string that is never closed. -/
def isUnterminated : Segment → Bool
  | unterminated _ => true
  | _ => false

variable {segment : Segment} {rest characters more : List Char} {segments others : List Segment}

/-- A newline draws no segment out, unless it is a string that is never closed. -/
theorem Ends.append_newline (ends : segment.Ends rest)
    (terminated : segment.isUnterminated = false) (more : List Char) :
    segment.Ends (rest ++ '\n' :: more) := by
  cases segment with
  | token => exact Lexeme.Ends.append ends (by simp) more
  | comment =>
      intro next isNext
      rcases head?_append_cons isNext with isNext | isNewline
      · exact ends next isNext
      · exact isNewline
  | unterminated => contradiction
  | _ => trivial

/-- Two texts on lines of their own can be cut one after the other. -/
theorem Cutting.append_newline (cutting : Cutting characters segments)
    (terminated : ∀ segment ∈ segments, segment.isUnterminated = false)
    (later : Cutting more others) :
    Cutting (characters ++ '\n' :: more) (segments ++ newline :: others) := by
  induction segments generalizing characters with
  | nil =>
      rw [← cutting.covers]
      exact later.cons (.recognised .newline) trivial
  | cons segment segments ih =>
      rw [List.forall_mem_cons] at terminated
      have ends := cutting.ends [] segment segments rfl
      rw [← cutting.covers, List.flatMap_cons, List.append_assoc]
      exact (ih cutting.tail terminated.2).cons (cutting.lawful segment (by simp))
        (ends.append_newline terminated.1 more)

/-- A text whose strings are all closed is cut into the same segments whatever lines follow. -/
theorem cut_append (terminated : ∀ segment ∈ cut characters, segment.isUnterminated = false)
    (more : List Char) :
    cut (characters ++ '\n' :: more) = cut characters ++ newline :: cut more :=
  ((cutting_cut characters).append_newline terminated (cutting_cut more)).eq_cut.symm

theorem numbered_append (line : Int) (segments others : List Segment) :
    numbered line (segments ++ others) =
      numbered line segments ++ numbered (line + (segments.flatMap text).count '\n') others := by
  induction segments generalizing line with
  | nil => simp
  | cons segment segments ih => simp [ih, newlines, Int.add_assoc]

theorem numbered_add (line lines : Int) (segments : List Segment) :
    numbered (line + lines) segments =
      (numbered line segments).map fun (last, segment) => (last + lines, segment) := by
  induction segments generalizing line with
  | nil => rfl
  | cons segment segments ih =>
      simp only [numbered_cons, List.map_cons]
      rw [show line + lines + (segment.newlines : Int) = line + segment.newlines + lines by omega,
        ih]

end Segment

/-- The same token, a number of lines further down. -/
def Token.later (lines : Int) (token : Token) : Token :=
  { token with line := token.line + lines }

/-- The same error, a number of lines further down. -/
def ScanError.later (lines : Int) (error : ScanError) : ScanError :=
  { error with line := error.line + lines }

theorem Segment.token?_add (line lines : Int) (segment : Segment) :
    segment.token? (line + lines) = (segment.token? line).map (Token.later lines) := by
  cases segment <;> rfl

theorem Segment.error?_add (line lines : Int) (segment : Segment) :
    segment.error? (line + lines) = (segment.error? line).map (ScanError.later lines) := by
  cases segment <;> rfl

/-- The tokens of a text before the mark at its end. -/
theorem tokens_scan (text : String) :
    ∃ body, (scan text).tokens = body ++ [Token.endOfText (lastLine text)] ∧
      ∀ token ∈ body, token.kind ≠ .eof := by
  refine ⟨_, rfl, fun token member => ?_⟩
  exact (Segment.lexeme_of_mem 1 (Segment.cutting_cut text.toList).lawful member).kind_ne_eof

section

variable (first second : String)

theorem toList_lines :
    (first ++ "\n" ++ second).toList = first.toList ++ '\n' :: second.toList := by
  simp

theorem lastLine_lines : lastLine (first ++ "\n" ++ second) = lastLine second + lastLine first := by
  simp only [lastLine, toList_lines, List.count_append, List.count_cons_self]
  omega

theorem cut_terminated {text : String}
    (terminated : ∀ error ∈ (scan text).errors, error.cause ≠ .unterminatedString) :
    ∀ segment ∈ Segment.cut text.toList, segment.isUnterminated = false := by
  intro segment member
  rw [← Segment.map_snd_numbered 1 (Segment.cut text.toList)] at member
  rcases List.mem_map.1 member with ⟨⟨line, found⟩, numbered, same⟩
  subst same
  cases found with
  | unterminated body =>
      have reported : ⟨.unterminatedString, line⟩ ∈ (scan text).errors :=
        List.mem_filterMap.2 ⟨_, numbered, rfl⟩
      exact absurd rfl (terminated _ reported)
  | _ => rfl

/-- The segments of two texts on lines of their own, with the lines that they end on. -/
theorem numbered_lines
    (terminated : ∀ error ∈ (scan first).errors, error.cause ≠ .unterminatedString) :
    Segment.numbered 1 (Segment.cut (first ++ "\n" ++ second).toList) =
      Segment.numbered 1 (Segment.cut first.toList) ++ (1 + lastLine first, .newline) ::
        (Segment.numbered 1 (Segment.cut second.toList)).map
          fun (last, segment) => (last + lastLine first, segment) := by
  rw [toList_lines, Segment.cut_append (cut_terminated terminated), Segment.numbered_append,
    Segment.numbered_cons, Segment.flatMap_text_cut, ← Segment.numbered_add]
  have ends :
      1 + (first.toList.count '\n' : Int) + Segment.newline.newlines = 1 + lastLine first := by
    simp only [lastLine, show Segment.newline.newlines = 1 from rfl]
    omega
  rw [ends]

/-- The tokens of two texts on lines of their own are those of the first text, without the mark at
its end, and those of the second, further down. -/
theorem tokens_scan_lines
    (terminated : ∀ error ∈ (scan first).errors, error.cause ≠ .unterminatedString) :
    (scan (first ++ "\n" ++ second)).tokens =
      (scan first).tokens.dropLast ++ (scan second).tokens.map (.later (lastLine first)) := by
  have noToken (line : Int) : Segment.newline.token? line = none := rfl
  simp only [scan, numbered_lines first second terminated, lastLine_lines, List.filterMap_append,
    List.dropLast_concat, List.map_append, List.append_assoc, List.filterMap_cons, noToken,
    List.filterMap_map, List.map_filterMap, Function.comp_def, Segment.token?_add]
  rfl

/-- The errors of two texts on lines of their own are those of the first text and those of the
second, further down. -/
theorem errors_scan_lines
    (terminated : ∀ error ∈ (scan first).errors, error.cause ≠ .unterminatedString) :
    (scan (first ++ "\n" ++ second)).errors =
      (scan first).errors ++ (scan second).errors.map (.later (lastLine first)) := by
  have noError (line : Int) : Segment.newline.error? line = none := rfl
  simp only [scan, numbered_lines first second terminated, List.filterMap_append, noError,
    List.filterMap_cons, List.filterMap_map, List.map_filterMap, Function.comp_def,
    Segment.error?_add]

end

/--
Scanning goes line by line. If no string is left open in a text, the tokens and errors of the text
and of another one below it are those of the first, without the mark at its end, and those of the
second, as many lines further down as the first text has.
-/
theorem scan_line_by_line {first : String}
    (terminated : ∀ error ∈ (scan first).errors, error.cause ≠ .unterminatedString)
    (second : String) :
    (∃ tokens, (scan first).tokens = tokens ++ [.endOfText (1 + first.toList.count '\n')] ∧
      (scan (first ++ "\n" ++ second)).tokens =
        tokens ++ (scan second).tokens.map (.later (1 + first.toList.count '\n'))) ∧
    (scan (first ++ "\n" ++ second)).errors =
      (scan first).errors ++ (scan second).errors.map (.later (1 + first.toList.count '\n')) := by
  have tokens := tokens_scan_lines first second terminated
  have errors := errors_scan_lines first second terminated
  rw [lastLine] at tokens errors
  refine ⟨⟨(scan first).tokens.dropLast, ?_, tokens⟩, errors⟩
  simp only [scan, lastLine, List.dropLast_concat]

/-- A number before a point and a quote in a comment end the first line, and a string is left open
in the second. -/
theorem scan_line_by_line_open :
    (∀ error ∈ (scan "1. // \"").errors, error.cause ≠ .unterminatedString) ∧
    (∃ tokens, (scan "1. // \"").tokens = tokens ++ [.endOfText 1] ∧
      (scan ("1. // \"" ++ "\n" ++ "a \"b")).tokens =
        tokens ++ (scan "a \"b").tokens.map (.later 1)) ∧
    (scan ("1. // \"" ++ "\n" ++ "a \"b")).errors =
      [⟨.unexpectedCharacter '.', 1⟩, ⟨.unterminatedString, 2⟩] := by
  have terminated : ∀ error ∈ (scan "1. // \"").errors, error.cause ≠ .unterminatedString := by
    decide
  exact ⟨terminated, scan_line_by_line terminated "a \"b"⟩

end Scriptlet
