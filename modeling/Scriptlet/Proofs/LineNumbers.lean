import Scriptlet.Proofs.LongestMatch

/-!
# Line numbers

The line of a token or an error is found by adding up the newlines of the segments before it. It is
a line of the text: one more than the number of newlines among the characters up to the place where
the segment ends (`Segment.Cutting.numbered_eq`). As segments follow one another, lines never
decrease from one token, or one error, to the next (`scan_lines_exact`).
-/

namespace Scriptlet

/-- The line of a text on which its first `length` characters end. -/
def lineUpTo (characters : List Char) (length : Nat) : Int :=
  1 + (characters.take length).count '\n'

theorem lineUpTo_append (before after : List Char) :
    lineUpTo (before ++ after) before.length = 1 + before.count '\n' := by
  rw [lineUpTo, List.take_left]

section

variable {characters : List Char} {length longer : Nat}

theorem lineUpTo_mono (le : length ≤ longer) :
    lineUpTo characters length ≤ lineUpTo characters longer := by
  have counts := (List.take_sublist_take_left (l := characters) le).count_le '\n'
  simp only [lineUpTo]
  omega

theorem lineUpTo_le (characters : List Char) (length : Nat) :
    lineUpTo characters length ≤ 1 + characters.count '\n' := by
  have counts := (List.take_sublist length characters).count_le '\n'
  simp only [lineUpTo]
  omega

end

namespace Segment

/-- A segment and the number of characters that stand before it in a text. -/
structure Place where
  start : Nat
  segment : Segment

/-- The number of characters of a text up to the end of a segment. -/
def Place.stop (place : Place) : Nat :=
  place.start + place.segment.text.length

/-- The places of segments that follow one another, the first of which begins at `start`. -/
def places (start : Nat) : List Segment → List Place
  | [] => []
  | segment :: rest => ⟨start, segment⟩ :: places (start + segment.text.length) rest

theorem numbered_eq_places (before : List Char) (segments : List Segment) :
    numbered (1 + before.count '\n') segments =
      (places before.length segments).map fun place =>
        (lineUpTo (before ++ segments.flatMap text) place.stop, place.segment) := by
  induction segments generalizing before with
  | nil => rfl
  | cons segment segments ih =>
      have whole : before ++ (segment :: segments).flatMap text =
          before ++ segment.text ++ segments.flatMap text := by
        simp
      have added : 1 + (before.count '\n' : Int) + segment.newlines =
          1 + (before ++ segment.text).count '\n' := by
        simp only [newlines, List.count_append]
        omega
      have counted : lineUpTo (before ++ segment.text ++ segments.flatMap text)
          (Place.stop ⟨before.length, segment⟩) = 1 + (before ++ segment.text).count '\n' := by
        rw [Place.stop, ← List.length_append, lineUpTo_append]
      rw [numbered_cons, added, ih, whole, places, List.map_cons, counted, List.length_append]

theorem exists_of_mem_places {start : Nat} {segments : List Segment} {place : Place}
    (member : place ∈ places start segments) :
    ∃ before after, segments = before ++ place.segment :: after ∧
      place.start = start + (before.flatMap text).length := by
  induction segments generalizing start with
  | nil => simp [places] at member
  | cons segment segments ih =>
      simp only [places, List.mem_cons] at member
      rcases member with rfl | later
      · exact ⟨[], segments, rfl, by simp⟩
      · rcases ih later with ⟨before, after, parts, starts⟩
        refine ⟨segment :: before, after, by simp [parts], ?_⟩
        simp only [starts, List.flatMap_cons, List.length_append]
        omega

theorem pairwise_places (start : Nat) (segments : List Segment) :
    (places start segments).Pairwise fun earlier later => earlier.stop ≤ later.stop := by
  induction segments generalizing start with
  | nil => exact .nil
  | cons segment segments ih =>
      refine List.pairwise_cons.2 ⟨fun later member => ?_, ih _⟩
      rcases exists_of_mem_places member with ⟨before, after, _, starts⟩
      simp only [Place.stop]
      omega

namespace Cutting

variable {characters : List Char} {segments : List Segment} (cutting : Cutting characters segments)

include cutting

/-- The line that a segment is given is the line of the text on which it ends. -/
theorem numbered_eq :
    numbered 1 segments =
      (places 0 segments).map fun place => (lineUpTo characters place.stop, place.segment) := by
  rw [← cutting.covers]
  exact numbered_eq_places [] segments

theorem filter_numbered_eq (isKept : Segment → Bool) :
    (numbered 1 segments).filter (isKept ·.2) =
      ((places 0 segments).filter (isKept ·.segment)).map fun place =>
        (lineUpTo characters place.stop, place.segment) := by
  rw [cutting.numbered_eq, List.filter_map]
  rfl

theorem pairwise_numbered :
    (numbered 1 segments).Pairwise fun earlier later => earlier.1 ≤ later.1 := by
  rw [cutting.numbered_eq]
  exact (pairwise_places 0 segments).map _ fun earlier later le => lineUpTo_mono le

theorem le_last {entry : Int × Segment} (member : entry ∈ numbered 1 segments) :
    entry.1 ≤ 1 + characters.count '\n' := by
  rw [cutting.numbered_eq] at member
  rcases List.mem_map.1 member with ⟨place, _, rfl⟩
  exact lineUpTo_le characters place.stop

/-- A place of a segment splits the text into what is before it, the segment and what follows. -/
theorem exists_parts {place : Place} (member : place ∈ places 0 segments) :
    place.segment.Lawful ∧ ∃ before after, place.segment.Ends after ∧
      place.start = before.length ∧ characters = before ++ (place.segment.text ++ after) := by
  rcases exists_of_mem_places member with ⟨before, after, parts, starts⟩
  refine ⟨cutting.lawful _ (by simp [parts]), before.flatMap text, after.flatMap text,
    cutting.ends before _ after parts, by simpa using starts, ?_⟩
  rw [← cutting.covers, parts, List.flatMap_append, List.flatMap_cons]

/-- An unexpected character is no newline, so that it ends on the line on which it begins. -/
theorem lineUpTo_unexpected {place : Place} (member : place ∈ places 0 segments) {character : Char}
    (isUnexpected : place.segment = unexpected character) :
    lineUpTo characters place.stop = lineUpTo characters place.start := by
  rcases cutting.exists_parts member with ⟨lawful, before, after, _, starts, rfl⟩
  have notNewline : character ≠ '\n' := by
    rintro rfl
    rw [isUnexpected] at lawful
    cases lawful with
    | recognised isRecognised => cases isRecognised
    | unexpected beginsNone => exact beginsNone newline .newline rfl
  rw [Place.stop, starts, isUnexpected, ← List.length_append, ← List.append_assoc, lineUpTo_append,
    List.append_assoc, lineUpTo_append]
  simp [text, notNewline]

/-- A string that is never closed ends on the last line. -/
theorem lineUpTo_unterminated {place : Place} (member : place ∈ places 0 segments)
    {body : List Char} (isUnterminated : place.segment = unterminated body) :
    lineUpTo characters place.stop = 1 + characters.count '\n' := by
  rcases cutting.exists_parts member with ⟨_, before, after, ends, starts, rfl⟩
  obtain rfl : after = [] := by
    rw [isUnterminated] at ends
    exact ends
  rw [Place.stop, starts, ← List.length_append, ← List.append_assoc, lineUpTo_append,
    List.append_nil]

end Cutting

end Segment

open Segment

/--
The line of a token is the line of the text on which its lexeme ends, and the mark at the end is on
the last line. An unexpected character is reported on its own line, and a string that is never
closed on the last one. From each token to the next, and from each error to the next, the line does
not decrease.
-/
theorem scan_lines_exact (text : String) :
    ∃ segments, Cutting text.toList segments ∧
      (∃ tokens, (scan text).tokens = tokens ++ [.endOfText (1 + text.toList.count '\n')] ∧
        List.Forall₂
          (fun (place : Place) (token : Token) => place.segment.ReadAs token ∧
            token.line = lineUpTo text.toList place.stop)
          ((places 0 segments).filter (·.segment.isToken)) tokens) ∧
      List.Forall₂
        (fun (place : Place) (error : ScanError) => place.segment.BlamedBy error ∧
          (error.cause ≠ .unterminatedString → error.line = lineUpTo text.toList place.start) ∧
          (error.cause = .unterminatedString → error.line = 1 + text.toList.count '\n'))
        ((places 0 segments).filter (·.segment.isError)) (scan text).errors ∧
      (scan text).tokens.Pairwise (fun earlier later => earlier.line ≤ later.line) ∧
      (scan text).errors.Pairwise (fun earlier later => earlier.line ≤ later.line) := by
  have cutting := cutting_cut text.toList
  refine ⟨cut text.toList, cutting, ⟨_, rfl, ?_⟩, ?_, ?_, ?_⟩
  · have reads := forall₂_readAs 1 cutting.lawful
    rwa [cutting.filter_numbered_eq, List.forall₂_map_left_iff] at reads
  · have blames := forall₂_blamedBy 1 (cut text.toList)
    rw [cutting.filter_numbered_eq, List.forall₂_map_left_iff] at blames
    have placed : ∀ place ∈ (places 0 (cut text.toList)).filter (·.segment.isError),
        place ∈ places 0 (cut text.toList) := fun place member => (List.mem_filter.1 member).1
    refine ((List.forall₂_and_left _ _).2 ⟨placed, blames⟩).imp ?_
    rintro ⟨start, segment⟩ error ⟨member, blames, line⟩
    refine ⟨blames, ?_⟩
    cases blames with
    | unexpected =>
        refine ⟨fun _ => ?_, fun isUnterminated => by simp at isUnterminated⟩
        exact line.trans (cutting.lineUpTo_unexpected member rfl)
    | unterminated =>
        refine ⟨fun isOther => absurd rfl isOther, fun _ => ?_⟩
        exact line.trans (cutting.lineUpTo_unterminated member rfl)
  · refine List.pairwise_append.2 ⟨?_, List.pairwise_singleton _ _, ?_⟩
    · refine cutting.pairwise_numbered.filterMap _ ?_
      intro earlier later le token isToken other isOther
      rwa [line_of_token? isToken, line_of_token? isOther]
    · intro token member mark isMark
      rcases List.mem_filterMap.1 member with ⟨entry, isNumbered, isToken⟩
      rw [line_of_token? isToken, List.mem_singleton.1 isMark]
      exact cutting.le_last isNumbered
  · refine cutting.pairwise_numbered.filterMap _ ?_
    intro earlier later le error isError other isOther
    rwa [line_of_error? isError, line_of_error? isOther]

end Scriptlet
