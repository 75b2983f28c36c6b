import Mathlib.Algebra.Group.Nat.Even
import Scriptlet.Proofs.Continuation
import Scriptlet.Proofs.Shell

/-!
# Quotes in comments

Strings are emptied wherever two quotes are, and it does not matter that a quote stands in a
comment. If the quotes of a comment do not come in pairs, the last of them is paired with a quote
behind the comment, and what stands between the two is lost. A shell can then wait for a bracket
that is already there (`complete_text_withheld`).

This is the only way in which it can. Where the quotes of every comment come in pairs, or no quote
follows them, strings are emptied segment by segment (`Segment.Cutting.code_of_paired`), and a text
without errors whose brackets are closed is run at once (`complete_text_is_run`).
-/

namespace Scriptlet

namespace Continuation

/-- Parts of a text are emptied one by one, if the first ends outside of strings or all quotes stand
in it. -/
theorem emptyStrings_append_of_paired {begun : Option (List Char)} {first rest : List Char}
    (paired : Even (first.count '"' + begun.elim 0 fun _ => 1) ∨ '"' ∉ rest) :
    emptyStrings begun (first ++ rest) = emptyStrings begun first ++ emptyStrings none rest := by
  induction first generalizing begun with
  | nil =>
      cases begun with
      | none => rfl
      | some begun =>
          -- No quote follows, so that the string is never closed and stays as it is.
          have noQuote : '"' ∉ rest := by simpa using paired
          have unclosed (begun : List Char) :
              emptyStrings (some begun) rest = '"' :: (begun.reverse ++ rest) := by
            clear paired
            induction rest generalizing begun with
            | nil => simp [emptyStrings]
            | cons character rest ih =>
                simp only [List.mem_cons, not_or] at noQuote
                simp [emptyStrings, Ne.symm noQuote.1, ih noQuote.2]
          have kept : emptyStrings none rest = rest := by
            simpa [emptyStrings] using emptyStrings_append noQuote []
          simp [unclosed, kept, emptyStrings]
  | cons character first ih =>
      by_cases isQuote : character = '"'
      · subst isQuote
        cases begun with
        | none => simpa [emptyStrings] using @ih (some []) (by simpa using paired)
        | some begun =>
            have paired' : Even (first.count '"') ∨ '"' ∉ rest := by
              refine paired.imp_left fun isEven => ?_
              simp only [List.count_cons_self, Option.elim_some, Nat.even_iff] at isEven ⊢
              omega
            simpa [emptyStrings] using @ih none (by simpa using paired')
      · have paired' : Even (first.count '"' + begun.elim 0 fun _ => 1) ∨ '"' ∉ rest := by
          simpa [List.count_cons_of_ne isQuote] using paired
        cases begun with
        | none => simpa [emptyStrings, isQuote] using ih paired'
        | some begun => simpa [emptyStrings, isQuote] using @ih (some (character :: begun)) paired'

theorem mem_emptyStrings {begun : Option (List Char)} {characters : List Char} {character : Char}
    (member : character ∈ emptyStrings begun characters) :
    character ∈ characters ∨ character = '"' ∨ ∃ earlier ∈ begun, character ∈ earlier := by
  fun_induction emptyStrings begun characters with
  | case1 => simp at member
  | case2 rest ih => grind
  | case3 first rest differs ih => grind
  | case4 begun => grind
  | case5 rest begun ih => grind
  | case6 begun first rest differs ih => grind

/-- Emptied strings still begin with a quote. -/
theorem head?_emptyStrings (characters : List Char) :
    (emptyStrings none characters).head? = characters.head? := by
  cases characters with
  | nil => rfl
  | cons first rest =>
      by_cases isQuote : first = '"'
      · subst isQuote
        have begins (begun : List Char) (characters : List Char) :
            (emptyStrings (some begun) characters).head? = some '"' := by
          induction characters generalizing begun with
          | nil => rfl
          | cons first rest ih =>
              rw [emptyStrings]
              split
              · rfl
              · exact ih _
        simpa [emptyStrings] using begins [] rest
      · simp [emptyStrings, isQuote]

end Continuation

namespace Segment

open Continuation

/-- That the quotes of every segment come in pairs, unless no quote follows it. -/
def Paired (segments : List Segment) : Prop :=
  ∀ before segment after, segments = before ++ segment :: after →
    Even (segment.text.count '"') ∨ '"' ∉ after.flatMap text

variable {segment : Segment} {segments : List Segment} {characters : List Char}

theorem Paired.tail (paired : Paired (segment :: segments)) : Paired segments :=
  fun before other after parts => paired (segment :: before) other after (by simp [parts])

/-- A segment that is no comment and leaves no string open has no quotes, or two. -/
theorem Lawful.even_quotes (lawful : segment.Lawful) (clear : segment.Clear) :
    Even (segment.text.count '"') := by
  rcases lawful.string_or_unquoted clear with ⟨body, rfl, closed⟩ | ⟨_, unquoted⟩
  · have count : (token .string ('"' :: body ++ ['"'])).text.count '"' = 2 := by
      simp [text, List.count_eq_zero.2 closed]
    exact ⟨1, count⟩
  · exact ⟨0, List.count_eq_zero.2 unquoted⟩

/-- Emptying the strings of a segment by itself does what is needed, or takes place in a comment. -/
theorem Lawful.emptyStrings_text (lawful : segment.Lawful) (clear : segment.Clear) :
    emptyStrings none segment.text = segment.emptied := by
  rcases lawful.string_or_unquoted clear with ⟨body, rfl, closed⟩ | ⟨same, unquoted⟩
  · simpa [text, emptied, emptyStrings] using emptyStrings_string closed []
  · simpa [same, emptyStrings] using emptyStrings_append unquoted []

/-- Where quotes come in pairs, strings are emptied segment by segment. -/
theorem Paired.emptyStrings_flatMap (paired : Paired segments) :
    emptyStrings none (segments.flatMap text) =
      segments.flatMap fun segment => emptyStrings none segment.text := by
  induction segments with
  | nil => rfl
  | cons segment segments ih =>
      have pairs := paired [] segment segments rfl
      rw [List.flatMap_cons, List.flatMap_cons,
        emptyStrings_append_of_paired (by simpa using pairs), ih paired.tail]

/-- Dropping comments keeps a segment that is none, with its strings emptied. -/
theorem Lawful.dropComments_emptyStrings (lawful : segment.Lawful)
    (terminated : segment.isUnterminated = false) {rest later : List Char}
    (ends : segment.Ends later) (sameHead : rest.head? = later.head?) :
    dropComments false (emptyStrings none segment.text ++ rest) =
      segment.code ++ dropComments false rest := by
  by_cases isComment : ∃ body, segment = comment body
  · rcases isComment with ⟨body, rfl⟩
    have onLine : '\n' ∉ body := by
      cases lawful with
      | recognised isRecognised =>
          cases isRecognised with
          | comment onLine => exact onLine
    have emptiedOnLine : '\n' ∉ emptyStrings none body := by
      intro member
      simpa [onLine] using mem_emptyStrings member
    have begins : emptyStrings none (comment body).text =
        '/' :: '/' :: emptyStrings none body := by
      simp [text, emptyStrings]
    rw [begins]
    exact dropComments_body emptiedOnLine (sameHead ▸ ends)
  · have clear : segment.Clear := ⟨terminated, fun body same => absurd ⟨body, same⟩ isComment⟩
    rw [lawful.emptyStrings_text clear]
    exact lawful.dropComments_emptied clear ends sameHead

theorem head?_flatMap_emptyStrings (lawful : ∀ segment ∈ segments, segment.Lawful) :
    (segments.flatMap fun segment => emptyStrings none segment.text).head? =
      (segments.flatMap text).head? := by
  cases segments with
  | nil => rfl
  | cons segment segments =>
      rcases (lawful segment (by simp)).exists_cons with ⟨first, more, parts⟩
      have begins : (emptyStrings none segment.text).head? = some first := by
        rw [head?_emptyStrings, parts, List.head?_cons]
      rcases List.head?_eq_some_iff.1 begins with ⟨rest, isRest⟩
      rw [List.flatMap_cons, List.flatMap_cons, isRest, parts]
      rfl

theorem Cutting.dropComments_of_terminated (cutting : Cutting characters segments)
    (terminated : ∀ segment ∈ segments, segment.isUnterminated = false) :
    dropComments false (segments.flatMap fun segment => emptyStrings none segment.text) =
      segments.flatMap code := by
  induction segments generalizing characters with
  | nil => rfl
  | cons segment segments ih =>
      rw [List.forall_mem_cons] at terminated
      have lawful := List.forall_mem_cons.1 cutting.lawful
      rw [List.flatMap_cons, List.flatMap_cons, ← ih cutting.tail terminated.2]
      exact lawful.1.dropComments_emptyStrings terminated.1
        (cutting.ends [] segment segments rfl) (head?_flatMap_emptyStrings lawful.2)

/-- What is left of a text whose quotes come in pairs is what is left of its segments. -/
theorem Cutting.code_of_paired (cutting : Cutting characters segments)
    (terminated : ∀ segment ∈ segments, segment.isUnterminated = false)
    (paired : Paired segments) : Continuation.code characters = segments.flatMap code := by
  rw [Continuation.code, ← cutting.covers, paired.emptyStrings_flatMap,
    cutting.dropComments_of_terminated terminated]

/-- Whether the quotes of every comment come in pairs, unless no quote follows it. -/
def commentsPaired : List Segment → Bool
  | [] => true
  | comment body :: rest =>
    (body.count '"' % 2 == 0 || '"' ∉ rest.flatMap text) && commentsPaired rest
  | _ :: rest => commentsPaired rest

/-- Quotes that come in pairs in comments do so everywhere, if no string is left open. -/
theorem paired_of_commentsPaired (lawful : ∀ segment ∈ segments, segment.Lawful)
    (terminated : ∀ segment ∈ segments, segment.isUnterminated = false)
    (paired : commentsPaired segments = true) : Paired segments := by
  induction segments with
  | nil => simp [Paired]
  | cons segment segments ih =>
      rw [List.forall_mem_cons] at lawful terminated
      have first : Even (segment.text.count '"') ∨ '"' ∉ segments.flatMap text := by
        by_cases isComment : ∃ body, segment = comment body
        · rcases isComment with ⟨body, rfl⟩
          simp only [commentsPaired, Bool.and_eq_true, Bool.or_eq_true, beq_iff_eq,
            decide_eq_true_eq] at paired
          refine paired.1.imp_left fun isEven => Nat.even_iff.2 ?_
          simpa [text] using isEven
        · exact .inl (lawful.1.even_quotes
            ⟨terminated.1, fun body same => absurd ⟨body, same⟩ isComment⟩)
      have others : commentsPaired segments = true := by
        cases segment <;> simp_all [commentsPaired]
      intro before other after parts
      cases before with
      | nil =>
          cases parts
          exact first
      | cons _ before =>
          cases parts
          exact ih lawful.2 terminated.2 others before other after rfl

end Segment

open Segment

/-- Where quotes come in pairs, the brackets that are left of a text are those among its tokens. -/
theorem count_code_of_paired {text : String} (paired : commentsPaired (cut text.toList) = true)
    (terminated : ∀ error ∈ (scan text).errors, error.cause ≠ .unterminatedString) {bracket : Char}
    {kind : Token.Kind} (isBracket : (bracket, kind) ∈ Token.Kind.brackets) :
    (Continuation.code text.toList).count bracket =
      ((scan text).tokens.map Token.kind).count kind := by
  have cutting := cutting_cut text.toList
  have isTerminated := cut_terminated terminated
  rw [cutting.code_of_paired isTerminated
    (paired_of_commentsPaired cutting.lawful isTerminated paired),
    count_flatMap_code_cut terminated isBracket]

/-- That no bracket of a text waits for another one that closes it. -/
structure BracketsClosed (text : String) : Prop where
  parens : ((scan text).tokens.map Token.kind).count .leftParen ≤
    ((scan text).tokens.map Token.kind).count .rightParen
  braces : ((scan text).tokens.map Token.kind).count .leftBrace ≤
    ((scan text).tokens.map Token.kind).count .rightBrace

/-- The shell that a step leaves, whether it succeeds or fails. -/
def ShellStep.final {α : Type} : EStateM.Result Failure Shell α → Shell
  | .ok _ shell => shell
  | .error _ shell => shell

/-- What a session does is not seen in the shell around it. -/
theorem ShellStep.final_session {α : Type} (step : SessionStep α) (shell : Shell) :
    ∃ after, final (session step shell) = { shell with session := after } := by
  unfold session
  cases step shell.session with
  | ok value after => exact ⟨after, rfl⟩
  | error failure after => exact ⟨after, rfl⟩

/--
A text that is complete is not withheld. If the text so far is scanned without errors, none of its
brackets waits to be closed, and the quotes of its comments come in pairs or are followed by none,
then the shell does not ask for more: it takes in the text and runs it, and is ready for another.
-/
theorem complete_text_is_run {shell : Shell} {line : String}
    (noErrors : (scan (shell.pending ++ line ++ "\n")).errors = [])
    (closed : BracketsClosed (shell.pending ++ line ++ "\n"))
    (paired : commentsPaired (cut (shell.pending ++ line ++ "\n").toList) = true) :
    let text := shell.pending ++ line ++ "\n"
    Continuation.join shell.pending line = text ∧ Continuation.isNeeded text = false ∧
    ShellStep.submit line shell =
      ShellStep.session
        (SessionStep.guarded do if ← SessionStep.add text then SessionStep.run)
        { shell with pending := "", prompt := .ready } ∧
    (ShellStep.final (ShellStep.submit line shell)).pending = "" ∧
    (ShellStep.final (ShellStep.submit line shell)).prompt.text = "> " := by
  intro text
  have terminated : ∀ error ∈ (scan text).errors, error.cause ≠ .unterminatedString := by
    simp [text, noErrors]
  have counts {bracket : Char} {kind : Token.Kind}
      (isBracket : (bracket, kind) ∈ Token.Kind.brackets) :
      (Continuation.code text.toList).count bracket =
        ((scan text).tokens.map Token.kind).count kind :=
    count_code_of_paired paired terminated isBracket
  have isComplete : Continuation.isNeeded text = false := by
    have parens := closed.parens
    have braces := closed.braces
    rw [← counts (by decide : ('(', .leftParen) ∈ Token.Kind.brackets),
      ← counts (by decide : (')', .rightParen) ∈ Token.Kind.brackets)] at parens
    rw [← counts (by decide : ('{', .leftBrace) ∈ Token.Kind.brackets),
      ← counts (by decide : ('}', .rightBrace) ∈ Token.Kind.brackets)] at braces
    simp only [Continuation.isNeeded, Bool.or_eq_false_iff, decide_eq_false_iff_not]
    exact ⟨Nat.not_lt.2 parens, Nat.not_lt.2 braces⟩
  have submits : ShellStep.submit line shell = _ := ShellStep.submit_of_complete isComplete
  rcases ShellStep.final_session
    (SessionStep.guarded (SessionStep.perform (Continuation.join shell.pending line)))
    { shell with pending := "", prompt := .ready } with ⟨after, isFinal⟩
  refine ⟨rfl, isComplete, submits, ?_, ?_⟩
  · rw [submits, isFinal]
  · rw [submits, isFinal]
    rfl

/-- A comment with a quoted word stands before the closing parenthesis, one with a quote behind. -/
theorem complete_text_is_run_quoted :
    let shell : Shell :=
      { Shell.start (.start {} Session.typedPath true false (.ofDepth 20)) with
        pending := "( // \"a\"\n" }
    let text := "( // \"a\"\n) // \"\n"
    (scan text).errors = [] ∧ BracketsClosed text ∧ commentsPaired (cut text.toList) = true ∧
    Continuation.isNeeded text = false ∧
    (ShellStep.final (ShellStep.submit ") // \"" shell)).pending = "" := by
  intro shell text
  have noErrors : (scan text).errors = [] := by decide
  have closed : BracketsClosed text := ⟨by decide, by decide⟩
  have paired : commentsPaired (cut text.toList) = true := by decide
  have run := @complete_text_is_run shell ") // \"" noErrors closed paired
  exact ⟨noErrors, closed, paired, run.2.1, run.2.2.2.1⟩

/--
A complete text is withheld. The quote in the comment is paired with the one that opens the string,
so that the line below the comment, with its parenthesis, seems to stand in the comment.
-/
theorem complete_text_withheld :
    let pending := "print ( // \"\n"
    let line := "\"a\");"
    (scan (pending ++ line ++ "\n")).errors = [] ∧ BracketsClosed (pending ++ line ++ "\n") ∧
    Continuation.isNeeded (Continuation.join pending line) = true := by
  intro pending line
  exact ⟨by decide, ⟨by decide, by decide⟩, by decide⟩

end Scriptlet
