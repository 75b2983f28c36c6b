import Scriptlet.Proofs.Continuation
import Scriptlet.Text.Lines

/-!
# Scanning a text without the blanks around its lines

A text of which some characters are dropped is written with a mark at every character. Where only
blanks are dropped, and behind a character that stays only those before the end of its line
(`Mark.Trimmed`), what is left of the text is cut into what is left of its segments
(`Segment.cut_left`). Scanning then finds the same tokens and errors, on the same lines, if and only
if no newline is dropped, and nothing of a token or of an unexpected character (`scan_left_iff`).
-/

namespace Scriptlet

/-- A character of a text, and whether it stays in the text. -/
structure Mark where
  character : Char
  stays : Bool
  deriving DecidableEq, Repr

namespace Mark

/-- A text with all of its characters. -/
def whole (marks : List Mark) : List Char :=
  marks.map character

/-- What is left of a text. -/
def left (marks : List Mark) : List Char :=
  (marks.filter stays).map character

/-- Whether the first character of a text is dropped. -/
def dropsFirst : List Mark → Bool
  | [] => false
  | mark :: _ => !mark.stays

/--
That only blanks are dropped, and behind a character that stays only those before the end of its
line.
-/
def Trimmed : List Mark → Prop
  | [] => True
  | mark :: marks =>
    (mark.stays = false → Text.isBlank mark.character = true) ∧
    (mark.stays = true → mark.character ≠ '\n' → dropsFirst marks = true →
      (left marks).head? = some '\n') ∧
    Trimmed marks

variable {mark : Mark} {marks others : List Mark}

@[simp]
theorem whole_nil : whole [] = [] := rfl

@[simp]
theorem whole_cons (mark : Mark) (marks : List Mark) :
    whole (mark :: marks) = mark.character :: whole marks := rfl

@[simp]
theorem whole_append (marks others : List Mark) :
    whole (marks ++ others) = whole marks ++ whole others :=
  List.map_append

@[simp]
theorem left_nil : left [] = [] := rfl

theorem left_cons_of_stays (stays : mark.stays = true) (marks : List Mark) :
    left (mark :: marks) = mark.character :: left marks := by
  simp [left, stays]

theorem left_cons_of_dropped (dropped : mark.stays = false) (marks : List Mark) :
    left (mark :: marks) = left marks := by
  simp [left, dropped]

@[simp]
theorem left_append (marks others : List Mark) :
    left (marks ++ others) = left marks ++ left others := by
  simp [left]

theorem left_sublist (marks : List Mark) : (left marks).Sublist (whole marks) :=
  List.filter_sublist.map character

theorem left_eq_whole (stay : ∀ mark ∈ marks, mark.stays = true) : left marks = whole marks := by
  rw [left, List.filter_eq_self.2 stay, whole]

/-- A text of which as much is left as there was has lost nothing. -/
theorem stays_of_left_eq (same : left marks = whole marks) : ∀ mark ∈ marks, mark.stays = true := by
  have lengths := congrArg List.length same
  rw [left, whole, List.length_map, List.length_map] at lengths
  exact List.length_filter_eq_length_iff.1 lengths

/-- As many newlines are left as there were if and only if none is dropped. -/
theorem count_left_iff :
    (left marks).count '\n' = (whole marks).count '\n' ↔
      ∀ mark ∈ marks, mark.character = '\n' → mark.stays = true := by
  induction marks with
  | nil => simp
  | cons mark marks ih =>
      have fewer := (left_sublist marks).count_le '\n'
      rw [List.forall_mem_cons, ← ih, whole_cons, List.count_cons]
      cases stays : mark.stays with
      | true =>
          rw [left_cons_of_stays stays, List.count_cons]
          simp
      | false =>
          rw [left_cons_of_dropped stays]
          by_cases isNewline : mark.character = '\n'
          · simp only [isNewline, beq_self_eq_true, if_true, Bool.false_eq_true, forall_const,
              false_and, iff_false]
            omega
          · simp [isNewline]

namespace Trimmed

theorem append_right (trimmed : Trimmed (marks ++ others)) : Trimmed others := by
  induction marks with
  | nil => exact trimmed
  | cons mark marks ih => exact ih trimmed.2.2

theorem stays (trimmed : Trimmed marks) (member : mark ∈ marks)
    (notBlank : Text.isBlank mark.character = false) : mark.stays = true := by
  induction marks with
  | nil => simp at member
  | cons first marks ih =>
      rcases List.mem_cons.1 member with rfl | isLater
      · by_contra dropped
        simp [trimmed.1 (by simpa using dropped)] at notBlank
      · exact ih trimmed.2.2 isLater

/-- A text without blanks loses nothing. -/
theorem left_eq_whole (trimmed : Trimmed (marks ++ others))
    (noBlank : ∀ character ∈ whole marks, Text.isBlank character = false) :
    left marks = whole marks := by
  refine Mark.left_eq_whole fun mark member => trimmed.stays (List.mem_append_left _ member) ?_
  exact noBlank _ (List.mem_map_of_mem member)

/--
Behind a text on one line, of which something is left, either nothing is dropped at once, or a
newline comes next.
-/
theorem next (trimmed : Trimmed (marks ++ others)) (onLine : '\n' ∉ whole marks)
    (notEmpty : left marks ≠ []) :
    (left others).head? = some '\n' ∨ dropsFirst others = false := by
  -- The last character that stays decides; the induction is on what stands before it.
  induction marks with
  | nil => simp at notEmpty
  | cons mark marks ih =>
      simp only [whole_cons, List.mem_cons, not_or] at onLine
      by_cases isLast : left marks = []
      · have stays : mark.stays = true := by
          by_contra dropped
          rw [left_cons_of_dropped (by simpa using dropped)] at notEmpty
          exact notEmpty isLast
        have ending : dropsFirst (marks ++ others) = true → (left others).head? = some '\n' := by
          simpa [isLast] using trimmed.2.1 stays (Ne.symm onLine.1)
        cases marks with
        | nil =>
            by_cases drops : dropsFirst others = true
            · exact .inl (ending drops)
            · exact .inr (by simpa using drops)
        | cons first marks =>
            have drops : dropsFirst (first :: marks) = true := by
              cases firstStays : first.stays with
              | true => simp [left_cons_of_stays firstStays] at isLast
              | false => simp [dropsFirst, firstStays]
            exact .inl (ending drops)
      · exact ih trimmed.2.2 onLine.2 isLast

end Trimmed

end Mark

open Mark

theorem isWordPart_of_isBlank {character : Char} (isBlank : Text.isBlank character = true) :
    Segment.isWordPart character = false := by
  refine Bool.eq_false_iff.2 fun isPart => ?_
  have ranges : ((decide (character.val ≥ 'A'.val ∧ character.val ≤ 'Z'.val) ||
      (decide (character.val ≥ 'a'.val) && decide (character.val ≤ 'z'.val)) ||
      character == '_') ||
      (decide (character.val ≥ '0'.val) && decide (character.val ≤ '9'.val))) = true := isPart
  have code : character.toNat = character.val.toNat := rfl
  simp only [Bool.or_eq_true, Bool.and_eq_true, decide_eq_true_eq, beq_iff_eq, ge_iff_le,
    UInt32.le_iff_toNat_le] at ranges
  simp only [Text.isBlank, Text.blankRanges, List.any_cons, List.any_nil, Bool.or_false,
    Bool.or_eq_true, Bool.and_eq_true, decide_eq_true_eq] at isBlank
  rcases ranges with (letter | rfl) | digit
  · simp only [Char.reduceVal, UInt32.reduceToNat] at letter
    omega
  · simp at isBlank
  · simp only [Char.reduceVal, UInt32.reduceToNat] at digit
    omega

/-- A blank is in no word, and it is no sign. -/
theorem Lexeme.not_isBlank {kind : Token.Kind} {lexeme : List Char} (isLexeme : Lexeme kind lexeme)
    (notString : kind ≠ .string) : ∀ character ∈ lexeme, Text.isBlank character = false := by
  intro character member
  refine Bool.eq_false_iff.2 fun isBlank => ?_
  have noSign : ∀ entry ∈ Token.Kind.signs, entry.1.all (!Text.isBlank ·) = true := by decide
  have noPoint : character ≠ '.' := by
    rintro rfl
    exact absurd isBlank (by decide)
  have listed :=
    isLexeme.listed_of_mem notString member (isWordPart_of_isBlank isBlank) noPoint
  have noBlank := List.all_eq_true.1 (noSign _ listed) character member
  simp [isBlank] at noBlank

theorem Lexeme.exists_body {lexeme : List Char} (isLexeme : Lexeme .string lexeme) :
    ∃ body, lexeme = '"' :: body ++ ['"'] ∧ '"' ∉ body := by
  cases isLexeme with
  | sign listed => simp [Token.Kind.signs] at listed
  | keyword listed => simp [Token.Kind.keywords] at listed
  | string closed => exact ⟨_, rfl, closed⟩

/-- What is left of the text behind a lexeme does not draw it out either. -/
theorem Lexeme.Ends.trimmed {kind : Token.Kind} {lexeme : List Char} {marks : List Mark}
    (ends : Ends kind lexeme (Mark.whole marks)) (trimmed : Trimmed marks)
    (next : (left marks).head? = some '\n' ∨ dropsFirst marks = false) :
    Ends kind lexeme (left marks) := by
  rcases next with isNewline | goesOn
  · rcases List.head?_eq_some_iff.1 isNewline with ⟨later, parts⟩
    rw [parts]
    exact Ends.nil.append (by simp) later
  · cases marks with
    | nil => exact .nil
    | cons mark marks =>
        have stays : mark.stays = true := by simpa [dropsFirst] using goesOn
        rw [left_cons_of_stays stays]
        refine ⟨ends.number, ?_, ends.word, ends.alone, ends.slash⟩
        -- A digit behind a point stood there before, as a newline would have come instead.
        intro isNumber isWhole digit later parts
        obtain ⟨isPoint, parts⟩ := List.cons.inj parts
        cases marks with
        | nil => simp at parts
        | cons second marks =>
            cases secondStays : second.stays with
            | true =>
                rw [left_cons_of_stays secondStays] at parts
                obtain ⟨rfl, -⟩ := List.cons.inj parts
                exact ends.whole isNumber isWhole _ (Mark.whole marks) (by simp [isPoint])
            | false =>
                have isNewline := trimmed.2.1 stays (by simp [isPoint])
                  (by simp [dropsFirst, secondStays])
                obtain rfl : digit = '\n' := by simpa [parts] using isNewline
                decide

namespace Segment

/-- What is left of a segment, if anything is. -/
def thin (marks : List Mark) : Segment → Option Segment
  | token kind _ => some (token kind (left marks))
  | comment _ => some (comment ((left marks).drop 2))
  | unterminated _ => some (unterminated ((left marks).drop 1))
  | segment => if left marks = [] then none else some segment

/-- Segments, each with the marks of its characters. -/
def divide : List Segment → List Mark → List (Segment × List Mark)
  | [], _ => []
  | segment :: segments, marks =>
    (segment, marks.take segment.text.length) ::
      divide segments (marks.drop segment.text.length)

/-- What is left of segments. -/
def thinned (entries : List (Segment × List Mark)) : List Segment :=
  entries.filterMap fun (segment, marks) => segment.thin marks

variable {segment : Segment} {segments : List Segment} {marks others : List Mark}

/-- That what is left of a segment is one that the text behind leaves as it is, or nothing. -/
structure Thins (segment : Segment) (marks others : List Mark) : Prop where
  covers : whole marks = segment.text
  left_eq : (segment.thin marks).toList.flatMap text = left marks
  lawful : ∀ thinned ∈ segment.thin marks, thinned.Lawful
  ends : ∀ thinned ∈ segment.thin marks, thinned.Ends (left others)

theorem thins_some {thinned : Segment} (covers : whole marks = segment.text)
    (isThinned : segment.thin marks = some thinned) (same : thinned.text = left marks)
    (lawful : thinned.Lawful) (ends : thinned.Ends (left others)) :
    segment.Thins marks others where
  covers := covers
  left_eq := by simp [isThinned, same]
  lawful := by simpa [isThinned] using lawful
  ends := by simpa [isThinned] using ends

/-- A segment of one character is left or it is not. -/
theorem thins_single {character : Char} (single : segment.text = [character])
    (covers : whole marks = segment.text)
    (thin_eq : segment.thin marks = if left marks = [] then none else some segment)
    (lawful : segment.Lawful) (ends : ∀ rest, segment.Ends rest) : segment.Thins marks others := by
  have sublist := left_sublist marks
  rw [covers, single] at sublist
  rcases List.sublist_singleton.1 sublist with isEmpty | isSame
  · rw [if_pos isEmpty] at thin_eq
    exact ⟨covers, by simp [thin_eq, isEmpty], by simp [thin_eq], by simp [thin_eq]⟩
  · rw [if_neg (by simp [isSame])] at thin_eq
    exact thins_some covers thin_eq (by rw [single, isSame]) lawful (ends _)

/-- A lexeme that is no string loses nothing. -/
theorem thins_lexeme {kind : Token.Kind} {lexeme : List Char} (isLexeme : Lexeme kind lexeme)
    (notString : kind ≠ .string) (covers : whole marks = lexeme)
    (trimmed : Trimmed (marks ++ others)) (ends : Lexeme.Ends kind lexeme (whole others)) :
    (token kind lexeme).Thins marks others := by
  have noBlank : ∀ character ∈ whole marks, Text.isBlank character = false :=
    covers ▸ isLexeme.not_isBlank notString
  have leftover : left marks = lexeme := (trimmed.left_eq_whole noBlank).trans covers
  have onLine : '\n' ∉ whole marks := fun member => absurd (noBlank _ member) (by decide)
  have notEmpty : left marks ≠ [] := by
    rcases exists_recognised_of_lexeme isLexeme with ⟨first, more, _, parts, _⟩
    simp [leftover, parts]
  have next := trimmed.next onLine notEmpty
  refine thins_some covers rfl rfl ?_ ?_
  · rw [leftover]
    exact .recognised (.token isLexeme)
  · rw [leftover]
    exact ends.trimmed trimmed.append_right next

/-- A string is left with both of its quotes. -/
theorem thins_string {body : List Char} (closed : '"' ∉ body)
    (covers : whole marks = '"' :: body ++ ['"']) (trimmed : Trimmed (marks ++ others)) :
    (token .string ('"' :: body ++ ['"'])).Thins marks others := by
  obtain ⟨first, inner, last, rfl, isFirst, rfl, isLast⟩ : ∃ first inner last,
      marks = first :: inner ++ [last] ∧ first.character = '"' ∧ whole inner = body ∧
      last.character = '"' := by
    simpa [whole, List.map_eq_append_iff, List.map_eq_cons_iff] using covers
  have leftover : left (first :: inner ++ [last]) = '"' :: left inner ++ ['"'] := by
    rw [left_append, left_cons_of_stays (trimmed.stays (by simp) (by rw [isFirst]; decide)),
      left_cons_of_stays (trimmed.stays (by simp) (by rw [isLast]; decide)), isFirst, isLast,
      left_nil]
  have stillClosed : '"' ∉ left inner := fun member => closed ((left_sublist inner).subset member)
  refine thins_some covers rfl rfl ?_ ?_
  · rw [leftover]
    exact .recognised (.token (.string stillClosed))
  · rw [leftover]
    exact ⟨nofun, nofun, nofun, by simp, by simp⟩

/-- A comment is left with both of its slashes, and still goes as far as the end of its line. -/
theorem thins_comment {body : List Char} (onLine : '\n' ∉ body)
    (covers : whole marks = '/' :: '/' :: body) (trimmed : Trimmed (marks ++ others))
    (ends : ∀ next ∈ (whole others).head?, next = '\n') : (comment body).Thins marks others := by
  obtain ⟨first, second, inner, rfl, isFirst, isSecond, rfl⟩ : ∃ first second inner,
      marks = first :: second :: inner ∧ first.character = '/' ∧ second.character = '/' ∧
      whole inner = body := by
    simpa [whole, List.map_eq_cons_iff] using covers
  have leftover : left (first :: second :: inner) = '/' :: '/' :: left inner := by
    rw [left_cons_of_stays (trimmed.stays (by simp) (by rw [isFirst]; decide)),
      left_cons_of_stays (trimmed.stays (by simp) (by rw [isSecond]; decide)), isFirst, isSecond]
  have stillOnLine : '\n' ∉ left inner := fun member => onLine ((left_sublist inner).subset member)
  refine thins_some covers rfl (by rw [leftover]; rfl) ?_ ?_
  · rw [leftover]
    exact .recognised (.comment stillOnLine)
  · intro character isNext
    rcases trimmed.next (by simpa [isFirst, isSecond] using onLine) (by simp [leftover]) with
      isNewline | goesOn
    · exact Option.some.inj (isNext.symm.trans isNewline)
    · cases others with
      | nil => simp at isNext
      | cons mark others =>
          have stays : mark.stays = true := by simpa [dropsFirst] using goesOn
          rw [left_cons_of_stays stays] at isNext
          exact ends character isNext

/-- A string that is never closed is left with its quote. -/
theorem thins_unterminated {body : List Char} (unclosed : '"' ∉ body)
    (covers : whole marks = '"' :: body) (trimmed : Trimmed marks) :
    (unterminated body).Thins marks [] := by
  obtain ⟨first, inner, rfl, isFirst, rfl⟩ : ∃ first inner,
      marks = first :: inner ∧ first.character = '"' ∧ whole inner = body := by
    simpa [whole, List.map_eq_cons_iff] using covers
  have leftover : left (first :: inner) = '"' :: left inner := by
    rw [left_cons_of_stays (trimmed.stays (by simp) (by rw [isFirst]; decide)), isFirst]
  have stillUnclosed : '"' ∉ left inner :=
    fun member => unclosed ((left_sublist inner).subset member)
  refine thins_some covers rfl (by rw [leftover]; rfl) ?_ rfl
  rw [leftover]
  exact .recognised (.unterminated stillUnclosed)

/-- Of a segment of the grammar a segment of the grammar is left, or nothing. -/
theorem Lawful.thins (lawful : segment.Lawful) (covers : whole marks = segment.text)
    (trimmed : Trimmed (marks ++ others)) (ends : segment.Ends (whole others)) :
    segment.Thins marks others := by
  cases lawful with
  | unexpected beginsNone =>
      exact thins_single rfl covers rfl (.unexpected beginsNone) fun _ => trivial
  | recognised isRecognised =>
      cases isRecognised with
      | @token kind lexeme isLexeme =>
          by_cases isString : kind = .string
          · subst isString
            rcases isLexeme.exists_body with ⟨body, rfl, closed⟩
            exact thins_string closed covers trimmed
          · exact thins_lexeme isLexeme isString covers trimmed ends
      | blank isBlank =>
          exact thins_single rfl covers rfl (.recognised (.blank isBlank)) fun _ => trivial
      | newline => exact thins_single rfl covers rfl (.recognised .newline) fun _ => trivial
      | comment onLine => exact thins_comment onLine covers trimmed ends
      | unterminated unclosed =>
          obtain rfl : others = [] := List.map_eq_nil_iff.1 ends
          exact thins_unterminated unclosed covers (by simpa using trimmed)

theorem divide_append (covers : whole marks = segment.text) (segments : List Segment)
    (others : List Mark) :
    divide (segment :: segments) (marks ++ others) =
      (segment, marks) :: divide segments others := by
  have length : marks.length = segment.text.length := by rw [← covers, whole, List.length_map]
  rw [divide, ← length, List.take_left, List.drop_left]

theorem map_fst_divide (segments : List Segment) (marks : List Mark) :
    (divide segments marks).map Prod.fst = segments := by
  induction segments generalizing marks with
  | nil => rfl
  | cons segment segments ih => rw [divide, List.map_cons, ih]

/-- The marks of a text are those of its first segment and those of the others. -/
theorem exists_marks (covers : whole marks = (segment :: segments).flatMap text) :
    ∃ first later, marks = first ++ later ∧ whole first = segment.text ∧
      whole later = segments.flatMap text := by
  rw [List.flatMap_cons] at covers
  exact List.map_eq_append_iff.1 covers

theorem flatMap_divide (covers : whole marks = segments.flatMap text) :
    (divide segments marks).flatMap Prod.snd = marks := by
  induction segments generalizing marks with
  | nil => exact (List.map_eq_nil_iff.1 covers).symm
  | cons segment segments ih =>
      rcases exists_marks covers with ⟨first, later, rfl, isFirst, isLater⟩
      rw [divide_append isFirst, List.flatMap_cons, ih isLater]

/-- What is left of a text is cut into what is left of its segments. -/
theorem Cutting.thinned (cutting : Cutting (whole marks) segments) (trimmed : Trimmed marks) :
    Cutting (left marks) (thinned (divide segments marks)) ∧
      ∀ entry ∈ divide segments marks, ∃ others, entry.1.Thins entry.2 others := by
  induction segments generalizing marks with
  | nil =>
      obtain rfl : marks = [] := List.map_eq_nil_iff.1 cutting.covers.symm
      exact ⟨.nil, by simp [divide]⟩
  | cons segment segments ih =>
      rcases exists_marks cutting.covers.symm with ⟨first, later, rfl, covers, rest⟩
      have ends : segment.Ends (whole later) := rest ▸ cutting.ends [] segment segments rfl
      have thins := (cutting.lawful segment (by simp)).thins covers trimmed ends
      rcases ih (rest ▸ cutting.tail) trimmed.append_right with ⟨others, allThin⟩
      rw [divide_append covers]
      refine ⟨?_, List.forall_mem_cons.2 ⟨⟨later, thins⟩, allThin⟩⟩
      rw [left_append, ← thins.left_eq]
      cases isThin : segment.thin first with
      | none => simpa [Segment.thinned, isThin] using others
      | some thinned =>
          simpa [Segment.thinned, isThin] using
            others.cons (thins.lawful thinned isThin) (thins.ends thinned isThin)

/-- Whether dropping a character of a segment, if it is no newline, makes no difference. -/
def isLoose : Segment → Bool
  | blank _ => true
  | comment _ => true
  | unterminated _ => true
  | _ => false

/-- That no character of a segment is dropped that makes a difference. -/
def Spared (entry : Segment × List Mark) : Prop :=
  ∀ mark ∈ entry.2, mark.stays = false → mark.character ≠ '\n' ∧ entry.1.isLoose = true

/-- That the scanner makes the same of what is left of a segment as of the segment. -/
structure Same (segment : Segment) (leftover : Option Segment) : Prop where
  newlines : leftover.elim 0 newlines = segment.newlines
  token : ∀ line, leftover.bind (token? line) = segment.token? line
  error : ∀ line, leftover.bind (error? line) = segment.error? line

section Spared

variable {entry : Segment × List Mark} {entries : List (Segment × List Mark)}

/-- What is left of a segment that loses nothing is the segment. -/
theorem Thins.thin_eq (thins : segment.Thins marks others) (isTight : segment.isLoose = false)
    (stay : ∀ mark ∈ marks, mark.stays = true) : segment.thin marks = some segment := by
  have leftover : left marks = segment.text := (left_eq_whole stay).trans thins.covers
  cases segment with
  | token => rw [thin, leftover, text]
  | newline => simp [thin, leftover, text]
  | unexpected => simp [thin, leftover, text]
  | _ => contradiction

theorem Spared.same (spared : Spared entry) (thins : entry.1.Thins entry.2 others) :
    entry.1.Same (entry.1.thin entry.2) := by
  rcases entry with ⟨segment, marks⟩
  have lines : ((segment.thin marks).toList.flatMap text).count '\n' = segment.newlines := by
    rw [thins.left_eq, newlines, ← thins.covers]
    refine count_left_iff.2 fun mark member isNewline => ?_
    by_contra dropped
    exact (spared mark member (by simpa using dropped)).1 isNewline
  have newlines : (segment.thin marks).elim 0 Segment.newlines = segment.newlines := by
    rw [← lines]
    cases segment.thin marks <;> simp [Segment.newlines]
  cases isLoose : segment.isLoose with
  | false =>
      have stay : ∀ mark ∈ marks, mark.stays = true := by
        intro mark member
        by_contra dropped
        simp [(spared mark member (by simpa using dropped)).2] at isLoose
      rw [thins.thin_eq isLoose stay]
      exact ⟨rfl, fun _ => rfl, fun _ => rfl⟩
  | true =>
      refine ⟨newlines, fun line => ?_, fun line => ?_⟩
      all_goals
        cases segment with
        | blank => by_cases isEmpty : left marks = [] <;> simp [thin, isEmpty, token?, error?]
        | comment => rfl
        | unterminated => rfl
        | _ => contradiction

/-- What the scanner makes of segments, it makes of what is left of them. -/
theorem filterMap_thinned {α : Type} {make : Int → Segment → Option α}
    (lines : ∀ entry ∈ entries, (entry.1.thin entry.2).elim 0 newlines = entry.1.newlines)
    (same : ∀ entry ∈ entries, ∀ line, (entry.1.thin entry.2).bind (make line) = make line entry.1)
    (line : Int) :
    ((numbered line (thinned entries)).filterMap fun (last, segment) => make last segment) =
      (numbered line (entries.map Prod.fst)).filterMap
        fun (last, segment) => make last segment := by
  induction entries generalizing line with
  | nil => rfl
  | cons entry entries ih =>
      rcases entry with ⟨segment, marks⟩
      rw [List.forall_mem_cons] at lines same
      have later := ih lines.2 same.2
      cases isThin : segment.thin marks with
      | none =>
          have made (line : Int) : make line segment = none := by
            simpa [isThin] using (same.1 line).symm
          have noLines : segment.newlines = 0 := by simpa [isThin] using lines.1.symm
          simpa [thinned, isThin, made, noLines] using later line
      | some leftover =>
          have made (line : Int) : make line leftover = make line segment := by
            simpa [isThin] using same.1 line
          have sameLines : leftover.newlines = segment.newlines := by simpa [isThin] using lines.1
          have both : thinned ((segment, marks) :: entries) = leftover :: thinned entries := by
            simp [thinned, isThin]
          simp only [both, List.map_cons, numbered_cons, List.filterMap_cons, made, sameLines,
            later]

end Spared

section Converse

variable {entry : Segment × List Mark} {entries : List (Segment × List Mark)}

theorem filterMap_thinned_cons {α : Type} (view : Segment → Option α)
    (entry : Segment × List Mark) (entries : List (Segment × List Mark)) :
    (thinned (entry :: entries)).filterMap view =
      ((entry.1.thin entry.2).bind view).toList ++ (thinned entries).filterMap view := by
  cases isThin : entry.1.thin entry.2 with
  | none => simp [thinned, isThin]
  | some leftover => cases isSeen : view leftover <;> simp [thinned, isThin, isSeen]

theorem filterMap_fst_cons {α : Type} (view : Segment → Option α)
    (entry : Segment × List Mark) (entries : List (Segment × List Mark)) :
    ((entry :: entries).map Prod.fst).filterMap view =
      (view entry.1).toList ++ (entries.map Prod.fst).filterMap view := by
  cases isSeen : view entry.1 <;> simp [isSeen]

/-- A token is left of a token only. -/
theorem content?_thin (noToken : segment.isToken = false) (marks : List Mark) :
    (segment.thin marks).bind content? = none ∧ segment.content? = none := by
  refine ⟨?_, by cases segment <;> first | contradiction | rfl⟩
  cases segment with
  | token => contradiction
  | comment => rfl
  | unterminated => rfl
  | _ => by_cases isEmpty : left marks = [] <;> simp [thin, isEmpty, content?, token?]

/-- If the same tokens are left, no token has lost anything. -/
theorem stays_of_content_eq (covers : ∀ entry ∈ entries, whole entry.2 = entry.1.text)
    (same : (thinned entries).filterMap content? = (entries.map Prod.fst).filterMap content?) :
    ∀ entry ∈ entries, entry.1.isToken = true → ∀ mark ∈ entry.2, mark.stays = true := by
  induction entries with
  | nil => simp
  | cons entry entries ih =>
      rcases entry with ⟨segment, marks⟩
      rw [List.forall_mem_cons] at covers
      rw [filterMap_thinned_cons, filterMap_fst_cons] at same
      cases isToken : segment.isToken with
      | false =>
          rw [(content?_thin isToken marks).1, (content?_thin isToken marks).2] at same
          exact List.forall_mem_cons.2 ⟨by simp [isToken], ih covers.2 same⟩
      | true =>
          cases segment with
          | token kind lexeme =>
              obtain ⟨first, others⟩ := List.cons.inj same
              have sameLexeme : String.ofList (left marks) = String.ofList lexeme :=
                congrArg (·.2.1) first
              have nothingLost : left marks = whole marks :=
                (String.ofList_injective sameLexeme).trans covers.1.symm
              exact List.forall_mem_cons.2
                ⟨fun _ => stays_of_left_eq nothingLost, ih covers.2 others⟩
          | _ => contradiction

/-- The error in a segment is left, unless it is a character that is dropped. -/
theorem cause?_thin (segment : Segment) (marks : List Mark) :
    (segment.thin marks).bind cause? = segment.cause? ∨
      (segment.thin marks).bind cause? = none ∧ left marks = [] := by
  cases segment with
  | token => exact .inl rfl
  | comment => exact .inl rfl
  | unterminated => exact .inl rfl
  | _ => by_cases isEmpty : left marks = [] <;> simp [thin, isEmpty]

/-- What is left of segments has no more errors than they have. -/
theorem length_causes_le (entries : List (Segment × List Mark)) :
    ((thinned entries).filterMap cause?).length ≤
      ((entries.map Prod.fst).filterMap cause?).length := by
  induction entries with
  | nil => exact Nat.le_refl _
  | cons entry entries ih =>
      rw [filterMap_thinned_cons, filterMap_fst_cons, List.length_append, List.length_append]
      rcases cause?_thin entry.1 entry.2 with same | ⟨dropped, _⟩
      · rw [same]
        omega
      · rw [dropped, Option.toList_none, List.length_nil]
        omega

/-- If the same errors are left, no unexpected character is dropped. -/
theorem stays_of_cause_eq (covers : ∀ entry ∈ entries, whole entry.2 = entry.1.text)
    (same : (thinned entries).filterMap cause? = (entries.map Prod.fst).filterMap cause?) :
    ∀ entry ∈ entries, ∀ character, entry.1 = unexpected character →
      ∀ mark ∈ entry.2, mark.stays = true := by
  induction entries with
  | nil => simp
  | cons entry entries ih =>
      rcases entry with ⟨segment, marks⟩
      rw [List.forall_mem_cons] at covers
      rw [filterMap_thinned_cons, filterMap_fst_cons] at same
      have fewer := length_causes_le entries
      have kept : (segment.thin marks).bind cause? = segment.cause? := by
        rcases cause?_thin segment marks with kept | ⟨dropped, _⟩
        · exact kept
        · cases isCause : segment.cause? with
          | none => exact dropped
          | some cause =>
              have lengths := congrArg List.length same
              simp only [dropped, isCause, Option.toList_none, Option.toList_some,
                List.length_append, List.length_nil, List.length_singleton] at lengths
              omega
      rw [kept] at same
      refine List.forall_mem_cons.2 ⟨?_, ih covers.2 (List.append_cancel_left same)⟩
      rintro character rfl
      have notEmpty : left marks ≠ [] := by
        intro isEmpty
        simp [thin, isEmpty, cause?, error?] at kept
      have sublist := left_sublist marks
      rw [covers.1] at sublist
      refine stays_of_left_eq ?_
      rw [covers.1]
      exact (List.sublist_singleton.1 sublist).resolve_left notEmpty

end Converse

end Segment

open Segment

theorem getLast?_tokens_scan (text : String) :
    (scan text).tokens.getLast? = some (Token.endOfText (lastLine text)) := by
  simp only [scan, List.getLast?_concat]

/--
Scanning does not notice what is dropped, if it is no newline, and part of no token and no
unexpected character; otherwise it does.
-/
theorem scan_left_iff {marks : List Mark} (trimmed : Trimmed marks) :
    scan (String.ofList (left marks)) = scan (String.ofList (whole marks)) ↔
      ∀ entry ∈ divide (cut (whole marks)) marks, Spared entry := by
  rcases (cutting_cut (whole marks)).thinned trimmed with ⟨cutting, thins⟩
  have segments := map_fst_divide (cut (whole marks)) marks
  have marked := flatMap_divide (cutting_cut (whole marks)).covers.symm
  generalize divide (cut (whole marks)) marks = entries at *
  have covers : ∀ entry ∈ entries, whole entry.2 = entry.1.text := by
    intro entry member
    rcases thins entry member with ⟨others, thins⟩
    exact thins.covers
  constructor
  · intro same entry member mark isMark dropped
    have sameLast : lastLine (String.ofList (left marks)) =
        lastLine (String.ofList (whole marks)) := by
      have last := getLast?_tokens_scan (String.ofList (left marks))
      rw [same, getLast?_tokens_scan] at last
      exact congrArg Token.line (Option.some.inj last).symm
    have contents := congrArg (List.map Token.content ∘ Scanned.tokens) same
    have causes := congrArg (List.map ScanError.cause ∘ Scanned.errors) same
    simp only [Function.comp_apply, map_content_scan, map_cause_scan, String.toList_ofList,
      ← cutting.eq_cut] at contents causes
    rw [← segments] at contents causes
    have notNewline : mark.character ≠ '\n' := by
      intro isNewline
      simp only [lastLine, String.toList_ofList] at sameLast
      have isMarked : mark ∈ marks := marked ▸ List.mem_flatMap.2 ⟨entry, member, isMark⟩
      have stays := count_left_iff.1 (by omega) mark isMarked isNewline
      simp [stays] at dropped
    refine ⟨notNewline, ?_⟩
    cases isSegment : entry.1 with
    | token =>
        have stays := stays_of_content_eq covers (List.append_cancel_right contents) entry member
          (by rw [isSegment, isToken]) mark isMark
        simp [stays] at dropped
    | unexpected =>
        have stays := stays_of_cause_eq covers causes entry member _ isSegment mark isMark
        simp [stays] at dropped
    | newline =>
        have isNewline : mark.character ∈ whole entry.2 := List.mem_map_of_mem isMark
        rw [covers entry member, isSegment] at isNewline
        exact absurd (List.mem_singleton.1 isNewline) notNewline
    | _ => rfl
  · intro spared
    have same : ∀ entry ∈ entries, entry.1.Same (entry.1.thin entry.2) := by
      intro entry member
      rcases thins entry member with ⟨others, thins⟩
      exact (spared entry member).same thins
    have sameLast : lastLine (String.ofList (left marks)) =
        lastLine (String.ofList (whole marks)) := by
      simp only [lastLine, String.toList_ofList]
      rw [count_left_iff.2 fun mark isMark isNewline => ?_]
      rw [← marked] at isMark
      rcases List.mem_flatMap.1 isMark with ⟨entry, member, isMark⟩
      by_contra dropped
      exact (spared entry member mark isMark (by simpa using dropped)).1 isNewline
    have newlines := fun entry member => (same entry member).newlines
    simp only [scan, String.toList_ofList, sameLast, ← cutting.eq_cut]
    rw [filterMap_thinned newlines fun entry member => (same entry member).token,
      filterMap_thinned newlines fun entry member => (same entry member).error, segments]

end Scriptlet
