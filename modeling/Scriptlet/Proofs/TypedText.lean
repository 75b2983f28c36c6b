import Scriptlet.Proofs.Continuation.Quotes
import Scriptlet.Proofs.Trimming

/-!
# The text that was typed

The shell drops the blanks at both ends of a line before it keeps or runs it. While a text goes on,
the lines are kept one behind the other (`Shell.eq_of_takes`), and what is run in the end is the
typed text without these blanks. Whether this makes a difference to the scanner is found out from
the segments that the blanks belong to (`typed_text_scanned_iff`).
-/

namespace Scriptlet

/-- The text that lines make up. -/
def typedText (lines : List String) : String :=
  String.join (lines.map (· ++ "\n"))

/-- A line without the blanks at its ends. -/
def stripped (line : String) : String :=
  String.ofList (Text.strip line.toList)

namespace Mark

/-- A line and the newline behind it. The blanks at the ends of the line are to be dropped. -/
def ofLine (line : List Char) : List Mark :=
  (line.takeWhile Text.isBlank).map (⟨·, false⟩) ++ ((Text.strip line).map (⟨·, true⟩) ++
    (((line.dropWhile Text.isBlank).reverse.takeWhile Text.isBlank).reverse.map (⟨·, false⟩) ++
      [⟨'\n', true⟩]))

/-- Lines, and the newlines behind them. -/
def ofLines (lines : List String) : List Mark :=
  lines.flatMap fun line => ofLine line.toList

section Map

variable (characters : List Char)

theorem whole_map (stays : Bool) : whole (characters.map (⟨·, stays⟩)) = characters := by
  simp [whole, Function.comp_def]

theorem left_map_stays : left (characters.map (⟨·, true⟩)) = characters := by
  simp [left, List.filter_map, Function.comp_def]

theorem left_map_dropped : left (characters.map (⟨·, false⟩)) = [] := by
  simp [left, List.filter_map, Function.comp_def]

end Map

theorem whole_ofLine (line : List Char) : whole (ofLine line) = line ++ ['\n'] := by
  have inner : Text.strip line ++
      ((line.dropWhile Text.isBlank).reverse.takeWhile Text.isBlank).reverse =
        line.dropWhile Text.isBlank := by
    rw [Text.strip, ← List.reverse_append, List.takeWhile_append_dropWhile, List.reverse_reverse]
  rw [ofLine, whole_append, whole_append, whole_append, whole_map, whole_map, whole_map,
    ← List.append_assoc (Text.strip line), inner, ← List.append_assoc,
    List.takeWhile_append_dropWhile]
  rfl

theorem left_ofLine (line : List Char) : left (ofLine line) = Text.strip line ++ ['\n'] := by
  rw [ofLine, left_append, left_append, left_append, left_map_dropped, left_map_dropped,
    left_map_stays]
  rfl

variable {characters : List Char} {others : List Mark}

theorem trimmed_dropped (areBlank : ∀ character ∈ characters, Text.isBlank character = true)
    (trimmed : Trimmed others) : Trimmed (characters.map (⟨·, false⟩) ++ others) := by
  induction characters with
  | nil => exact trimmed
  | cons first characters ih =>
      rw [List.forall_mem_cons] at areBlank
      exact ⟨fun _ => areBlank.1, nofun, ih areBlank.2⟩

theorem trimmed_stays (ending : dropsFirst others = true → (left others).head? = some '\n')
    (trimmed : Trimmed others) : Trimmed (characters.map (⟨·, true⟩) ++ others) := by
  induction characters with
  | nil => exact trimmed
  | cons first characters ih =>
      refine ⟨nofun, fun _ _ drops => ?_, ih⟩
      cases characters with
      | nil => exact ending drops
      | cons next characters => simp [dropsFirst] at drops

theorem trimmed_ofLine (line : List Char) (trimmed : Trimmed others) :
    Trimmed (ofLine line ++ others) := by
  have areBlank (characters : List Char) :
      ∀ character ∈ characters.takeWhile Text.isBlank, Text.isBlank character = true :=
    List.all_eq_true.1 List.all_takeWhile
  rw [ofLine, List.append_assoc, List.append_assoc, List.append_assoc]
  refine trimmed_dropped (areBlank line) (trimmed_stays ?_ (trimmed_dropped ?_ ?_))
  · intro
    rw [left_append, left_map_dropped]
    rfl
  · exact fun character member => areBlank _ _ (List.mem_reverse.1 member)
  · exact ⟨nofun, fun _ notNewline => absurd rfl notNewline, trimmed⟩

theorem trimmed_ofLines (lines : List String) : Trimmed (ofLines lines) := by
  induction lines with
  | nil => trivial
  | cons line lines ih => exact trimmed_ofLine line.toList ih

theorem toList_typedText (lines : List String) :
    (typedText lines).toList = whole (ofLines lines) := by
  induction lines with
  | nil => rfl
  | cons line lines ih =>
      have later : ofLines (line :: lines) = ofLine line.toList ++ ofLines lines := rfl
      rw [later, whole_append, whole_ofLine, ← ih, typedText, List.map_cons, String.join_cons,
        String.toList_append, String.toList_append]
      rfl

theorem toList_typedText_stripped (lines : List String) :
    (typedText (lines.map stripped)).toList = left (ofLines lines) := by
  induction lines with
  | nil => rfl
  | cons line lines ih =>
      have later : ofLines (line :: lines) = ofLine line.toList ++ ofLines lines := rfl
      rw [later, left_append, left_ofLine, ← ih, typedText, List.map_cons, List.map_cons,
        String.join_cons, String.toList_append, String.toList_append, stripped,
        String.toList_ofList]
      rfl

end Mark

theorem typedText_concat (lines : List String) (line : String) :
    typedText (lines ++ [line]) = Continuation.join (typedText lines) line := by
  simp [typedText, Continuation.join, String.append_assoc]

theorem typedText_ne_empty {lines : List String} (notEmpty : lines ≠ []) :
    typedText lines ≠ "" := by
  rcases List.eq_nil_or_concat lines with isEmpty | ⟨earlier, line, rfl⟩
  · exact absurd isEmpty notEmpty
  · rw [List.concat_eq_append, typedText_concat, Continuation.join]
    simp

/-- That a line calls for no help and begins with no command. -/
structure IsCode (line : String) : Prop where
  asksNothing : (Text.strip line.toList).head? ≠ some '?'
  commandsNothing : (ShellStep.commandOf line).word ∉ ["help", "exit", "EOF"]

namespace ShellStep

variable {shell : Shell} {line : String}

theorem programLine_of_code (isCode : IsCode line) :
    programLine (commandOf line) = stripped line := by
  have commandsNothing := isCode.commandsNothing
  simp only [List.mem_cons, List.not_mem_nil, or_false, not_or] at commandsNothing
  rw [programLine, if_neg (not_or.2 ⟨commandsNothing.1, commandsNothing.2.1⟩), commandOf, stripped]
  simp only [Command.ofLine]
  split
  · rename_i isLine
    exact absurd (by rw [isLine]; rfl) isCode.asksNothing
  · rfl

/-- A line of a program is submitted without the blanks at its ends. -/
theorem take_of_code (isCode : IsCode line)
    (matters : Text.strip line.toList ≠ [] ∨ shell.pending ≠ "") :
    ∃ answer, take line shell =
      (submit (stripped line) >>= fun _ => pure answer : ShellStep Answer) shell := by
  have commandsNothing := isCode.commandsNothing
  simp only [List.mem_cons, List.not_mem_nil, or_false, not_or] at commandsNothing
  by_cases isBlank : Text.strip line.toList = []
  · have isPending : shell.pending ≠ "" := matters.resolve_left (not_not_intro isBlank)
    rw [take_of_blank isBlank, if_neg isPending, stripped, isBlank]
    exact ⟨.skipped, rfl⟩
  · have stays : ¬shell.Leaves (commandOf line) := by
      rintro (isEnd | ⟨isExit, _⟩)
      · exact commandsNothing.2.2 isEnd
      · exact commandsNothing.2.1 isExit
    rw [take_of_command isBlank, ← programLine_of_code isCode]
    exact ⟨.done, obey_of_program stays fun isHelp => commandsNothing.1 isHelp.1⟩

/-- A line that leaves the text open is kept. -/
theorem take_of_needed (isCode : IsCode line)
    (matters : Text.strip line.toList ≠ [] ∨ shell.pending ≠ "")
    (isNeeded : Continuation.isNeeded (Continuation.join shell.pending (stripped line)) = true) :
    ∃ answer, take line shell =
      .ok answer
        { shell with
          pending := Continuation.join shell.pending (stripped line)
          prompt := .continued } := by
  rcases take_of_code isCode matters with ⟨answer, took⟩
  exact ⟨answer, took.trans (Eval.bind_of_ok (submit_of_needed isNeeded))⟩

/-- A line that completes the text is run with it, and the shell is ready for another. -/
theorem take_of_complete (isCode : IsCode line)
    (matters : Text.strip line.toList ≠ [] ∨ shell.pending ≠ "")
    (isComplete : Continuation.isNeeded (Continuation.join shell.pending (stripped line)) = false) :
    (∃ answer, take line shell =
      (session (SessionStep.guarded
          (SessionStep.perform (Continuation.join shell.pending (stripped line)))) >>=
        fun _ => pure answer : ShellStep Answer) { shell with pending := "", prompt := .ready }) ∧
    (final (take line shell)).prompt = .ready := by
  rcases take_of_code isCode matters with ⟨answer, took⟩
  have submits := submit_of_complete isComplete
  -- The session is all that a run changes, whether or not it comes to an end.
  rcases final_session
    (SessionStep.guarded (SessionStep.perform (Continuation.join shell.pending (stripped line))))
    { shell with pending := "", prompt := .ready } with ⟨after, isFinal⟩
  rw [← submits] at isFinal
  cases done : submit (stripped line) shell with
  | ok value ended =>
      have ends := took.trans (Eval.bind_of_ok done)
      rw [done] at isFinal
      rw [ends]
      refine ⟨⟨answer, ?_⟩, congrArg Shell.prompt isFinal⟩
      rw [Eval.bind_of_ok (submits.symm.trans done)]
  | error failure ended =>
      have ends := took.trans (Eval.bind_of_error done)
      rw [done] at isFinal
      rw [ends]
      refine ⟨⟨answer, ?_⟩, congrArg Shell.prompt isFinal⟩
      rw [Eval.bind_of_error (submits.symm.trans done)]

end ShellStep

open ShellStep

/-- A line matters to a shell that keeps lines already, or if the line is not blank. -/
theorem Shell.matters {shell : Shell} {kept : List String} {line : String}
    (isPending : shell.pending = typedText kept)
    (notBlank : kept = [] → Text.strip line.toList ≠ []) :
    Text.strip line.toList ≠ [] ∨ shell.pending ≠ "" := by
  by_cases isEmpty : kept = []
  · exact .inl (notBlank isEmpty)
  · exact .inr (isPending ▸ typedText_ne_empty isEmpty)

/-- While a text goes on, the shell does nothing but keep its lines. -/
theorem Shell.eq_of_takes {session : Session} {turns : List (Turn String Answer Shell)}
    {last : Shell} (takes : Takes take (start session) turns last)
    (areCode : ∀ turn ∈ turns, IsCode turn.input)
    (notBlank : ∀ turn ∈ turns.head?, Text.strip turn.input.toList ≠ [])
    (goesOn : ∀ turn ∈ turns, turn.after.prompt = .continued) :
    last =
      { start session with
        pending := typedText (turns.map (stripped ∘ Turn.input))
        prompt := if turns = [] then .ready else .continued } := by
  induction takes with
  | nil => rfl
  | @snoc turns last after line answer earlier took ih =>
      simp only [List.forall_mem_append, List.forall_mem_singleton] at areCode goesOn
      have earlierNotBlank : ∀ turn ∈ turns.head?, Text.strip turn.input.toList ≠ [] := by
        intro turn isFirst
        refine notBlank turn ?_
        rw [List.head?_append, Option.mem_def.1 isFirst]
        rfl
      have isLast := ih areCode.1 earlierNotBlank goesOn.1
      have isPending : last.pending = typedText (turns.map (stripped ∘ Turn.input)) :=
        congrArg Shell.pending isLast
      have matters := Shell.matters isPending fun isFirst =>
        notBlank ⟨line, last, answer, after⟩ (by
          rw [List.map_eq_nil_iff.1 isFirst]
          rfl)
      cases isNeeded : Continuation.isNeeded (Continuation.join last.pending (stripped line)) with
      | true =>
          rcases take_of_needed areCode.2 matters isNeeded with ⟨answer', took'⟩
          cases took.symm.trans took'
          rw [isPending, isLast, List.map_append, List.map_singleton, typedText_concat]
          simp
      | false =>
          have isReady := (take_of_complete areCode.2 matters isNeeded).2
          rw [took] at isReady
          exact absurd (goesOn.2.symm.trans isReady) (by decide)

/-- A first line that leaves the text open is kept, and run with a second that does not. -/
theorem exists_takes_two (session : Session) {first second : String} (firstIsCode : IsCode first)
    (secondIsCode : IsCode second) (notBlank : Text.strip first.toList ≠ [])
    (isNeeded : Continuation.isNeeded (typedText [stripped first]) = true)
    (isComplete : Continuation.isNeeded (typedText [stripped first, stripped second]) = false) :
    ∃ turns last, Takes take (.start session) turns last ∧ turns.map Turn.input = [first] ∧
      (∀ turn ∈ turns, turn.after.prompt = .continued) ∧
      (final (take second last)).prompt = .ready ∧
      ∃ answer, take second last =
        (ShellStep.session (SessionStep.guarded
            (SessionStep.perform (typedText [stripped first, stripped second]))) >>=
          fun _ => pure answer : ShellStep Answer)
          { last with pending := "", prompt := .ready } := by
  have kept : typedText [stripped first] = Continuation.join "" (stripped first) :=
    typedText_concat [] _
  have joined : typedText [stripped first, stripped second] =
      Continuation.join (Continuation.join "" (stripped first)) (stripped second) := by
    rw [← kept]
    exact typedText_concat [stripped first] _
  rw [kept] at isNeeded
  rw [joined] at isComplete ⊢
  rcases @take_of_needed (.start session) first firstIsCode (.inl notBlank) isNeeded with
    ⟨answer, took⟩
  refine ⟨_, _, Takes.nil.snoc took, rfl, ?_, And.symm ?_⟩
  · intro turn isTurn
    rw [List.mem_singleton.1 isTurn]
  · apply take_of_complete secondIsCode
    · exact .inr (kept ▸ typedText_ne_empty (List.cons_ne_nil _ _))
    · exact isComplete

/--
The shell runs the typed lines without the blanks at their ends. If lines of a program are given to
a fresh shell, of which the first is not blank and only the last completes the text, then this text
is taken in and run. Scanning it gives the same tokens and errors, on the same lines, as scanning
the text that was typed, if and only if no blank that is dropped is a newline, an unexpected
character, or part of a token.
-/
theorem typed_text_scanned_iff (reporter : Reporter) (showTrees : Bool) (limits : Limits)
    {turns : List (Turn String Answer Shell)} {last : Shell} {line : String}
    (takes : Takes take (.start (.start reporter Session.typedPath true showTrees limits))
      turns last)
    (areCode : ∀ typed ∈ turns.map Turn.input ++ [line], IsCode typed)
    (notBlank : ∀ first ∈ (turns.map Turn.input ++ [line]).head?,
      Text.strip first.toList ≠ [])
    (goesOn : ∀ turn ∈ turns, turn.after.prompt = .continued)
    (isComplete : (final (take line last)).prompt ≠ .continued) :
    let lines := turns.map Turn.input ++ [line]
    let source := typedText (lines.map stripped)
    last.session = .start reporter Session.typedPath true showTrees limits ∧
    (∃ answer, take line last =
      (session (SessionStep.guarded do if ← SessionStep.add source then SessionStep.run) >>=
        fun _ => pure answer : ShellStep Answer) { last with pending := "", prompt := .ready }) ∧
    (scan source = scan (typedText lines) ↔
      ∀ entry ∈ Segment.divide (Segment.cut (typedText lines).toList) (Mark.ofLines lines),
        ∀ mark ∈ entry.2, mark.stays = false →
          mark.character ≠ '\n' ∧ entry.1.isLoose = true) := by
  intro lines source
  have isLast : last = _ := Shell.eq_of_takes takes
    (fun turn isTurn => areCode _ (List.mem_append_left _ (List.mem_map_of_mem isTurn)))
    (fun turn isFirst => notBlank _ (by
      rw [List.head?_append, List.head?_map, Option.mem_def.1 isFirst]
      rfl))
    goesOn
  have isPending : last.pending = typedText (turns.map (stripped ∘ Turn.input)) :=
    congrArg Shell.pending isLast
  have isCode : IsCode line := areCode line (by simp)
  have matters := Shell.matters isPending fun isFirst => notBlank line (by
    rw [List.map_eq_nil_iff.1 isFirst]
    rfl)
  have isSource : Continuation.join last.pending (stripped line) = source := by
    rw [isPending, ← typedText_concat]
    simp [source, lines]
  refine ⟨congrArg Shell.session isLast, ?_, ?_⟩
  · cases isNeeded : Continuation.isNeeded (Continuation.join last.pending (stripped line)) with
    | true =>
        rcases take_of_needed isCode matters isNeeded with ⟨answer, took⟩
        rw [took] at isComplete
        exact absurd rfl isComplete
    | false =>
        have ran := (take_of_complete isCode matters isNeeded).1
        rwa [isSource] at ran
  · have scanned := scan_left_iff (Mark.trimmed_ofLines lines)
    rwa [← Mark.toList_typedText, ← Mark.toList_typedText_stripped, String.ofList_toList,
      String.ofList_toList] at scanned

/-- Blanks are dropped at the ends of two lines, in a comment among others. -/
theorem typed_text_scanned_iff_comment :
    let shell := Shell.start (.start {} Session.typedPath true false (.ofDepth 20))
    let lines := ["  print ( // x  ", "\t1 );\t"]
    ∃ turns last, Takes take shell turns last ∧ turns.map Turn.input ++ ["\t1 );\t"] = lines ∧
      (∀ line ∈ lines, IsCode line) ∧ (∀ turn ∈ turns, turn.after.prompt = .continued) ∧
      (final (take "\t1 );\t" last)).prompt = .ready ∧
      scan (typedText (lines.map stripped)) = scan (typedText lines) := by
  intro shell lines
  have first : IsCode "  print ( // x  " := ⟨by decide, by decide⟩
  have second : IsCode "\t1 );\t" := ⟨by decide, by decide⟩
  have areCode : ∀ line ∈ lines, IsCode line := by simp [lines, first, second]
  rcases exists_takes_two (.start {} Session.typedPath true false (.ofDepth 20)) first second
    (by decide) (by decide) (by decide) with ⟨turns, last, takes, isFirst, goesOn, isReady, _⟩
  have isLines : turns.map Turn.input ++ ["\t1 );\t"] = lines := by rw [isFirst]; rfl
  refine ⟨turns, last, takes, isLines, areCode, goesOn, isReady, ?_⟩
  have scanned := (typed_text_scanned_iff {} false (.ofDepth 20) takes (isLines ▸ areCode)
    (by rw [isLines]; decide) goesOn (by rw [isReady]; decide)).2.2
  rw [isLines] at scanned
  exact scanned.2 (by decide)

/--
The blanks at the end of the first line belong to a string that goes on in the second. They are not
in the text that is run.
-/
theorem typed_blanks_dropped_from_string :
    let shell := Shell.start (.start {} Session.typedPath true false (.ofDepth 20))
    let lines := ["\x7b print \"a  ", "b\"; \x7d"]
    ∃ turns last, Takes take shell turns last ∧ turns.map Turn.input ++ ["b\"; \x7d"] = lines ∧
      (∀ line ∈ lines, IsCode line) ∧ (∀ turn ∈ turns, turn.after.prompt = .continued) ∧
      (final (take "b\"; \x7d" last)).prompt = .ready ∧
      (∃ answer, take "b\"; \x7d" last =
        (session (SessionStep.guarded do
            if ← SessionStep.add (typedText (lines.map stripped)) then SessionStep.run) >>=
          fun _ => pure answer : ShellStep Answer) { last with pending := "", prompt := .ready }) ∧
      scan (typedText (lines.map stripped)) ≠ scan (typedText lines) := by
  intro shell lines
  have first : IsCode "\x7b print \"a  " := ⟨by decide, by decide⟩
  have second : IsCode "b\"; \x7d" := ⟨by decide, by decide⟩
  rcases exists_takes_two (.start {} Session.typedPath true false (.ofDepth 20)) first second
    (by decide) (by decide) (by decide) with ⟨turns, last, takes, isFirst, goesOn, isReady, ran⟩
  refine ⟨turns, last, takes, by rw [isFirst]; rfl, by simp [lines, first, second], goesOn,
    isReady, ran, fun same => ?_⟩
  have lexemes : (scan (typedText (lines.map stripped))).tokens.map Token.lexeme ≠
      (scan (typedText lines)).tokens.map Token.lexeme := by decide
  exact lexemes (congrArg (List.map Token.lexeme ∘ Scanned.tokens) same)

end Scriptlet
