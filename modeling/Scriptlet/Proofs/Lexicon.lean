import Scriptlet.Segment

/-!
# The lexical grammar

What the lexemes of each kind are is said here by a grammar. Signs and keywords are listed;
identifiers, numbers and strings are described by their characters. Besides lexemes, a text has
blanks, newlines, comments, a string that is never closed, and characters with which none of these
begins.

Segments of the grammar may overlap in many ways. Two properties single one of them out at the
beginning of a text: that what follows cannot be drawn into it (`Segment.Ends`), and that no other
segment covers more of the text (`Segment.Longest`). The longest segment ends
(`Segment.Longest.ends`), and there always is one (`Segment.exists_longest`).
-/

namespace Scriptlet

theorem head?_append_cons {α : Type} {items more : List α} {separator next : α}
    (isNext : next ∈ (items ++ separator :: more).head?) :
    next ∈ items.head? ∨ next = separator := by
  cases items with
  | nil => exact .inr (Option.some.inj isNext).symm
  | cons first items => exact .inl isNext

namespace Token.Kind

/-- The lexemes that are neither words nor literals. -/
def signs : List (List Char × Kind) :=
  [(['('], leftParen), ([')'], rightParen), (['{'], leftBrace), (['}'], rightBrace),
    ([','], comma), (['-'], minus), (['+'], plus), ([';'], semicolon), (['/'], slash),
    (['*'], star), (['!'], bang), (['!', '='], bangEqual), (['='], equal),
    (['=', '='], equalEqual), (['>'], greater), (['>', '='], greaterEqual), (['<'], less),
    (['<', '='], lessEqual)]

/-- Whether the tokens of a kind are identifiers or keywords. -/
def isWord (kind : Kind) : Bool :=
  kind ∈ identifier :: keywords.map Prod.snd

theorem ofWord_of_mem {word : String} {kind : Kind} (listed : (word, kind) ∈ keywords) :
    ofWord word = kind := by
  have listedKinds : ∀ entry ∈ keywords, ofWord entry.1 = entry.2 := by decide
  exact listedKinds _ listed

theorem ofWord_of_not_mem {word : String} (unlisted : ∀ kind, (word, kind) ∉ keywords) :
    ofWord word = identifier := by
  have notFound : keywords.lookup word = none := by
    rw [List.lookup_eq_none_iff]
    rintro ⟨other, kind⟩ listed
    simp only [bne_iff_ne, ne_eq]
    rintro rfl
    exact unlisted kind listed
  rw [ofWord, notFound]
  rfl

end Token.Kind

namespace Segment

/-- Whether a text is a letter or an underscore, and then letters, digits and underscores. -/
def isWord : List Char → Bool
  | [] => false
  | first :: rest => isWordStart first && rest.all isWordPart

/-- A text of one or more digits. -/
structure AreDigits (digits : List Char) : Prop where
  ne_nil : digits ≠ []
  isDigit : ∀ digit ∈ digits, digit.isDigit

theorem isWord_of_mem {word : String} {kind : Token.Kind}
    (listed : (word, kind) ∈ Token.Kind.keywords) : isWord word.toList := by
  have listedWords : ∀ entry ∈ Token.Kind.keywords, isWord entry.1.toList := by decide
  exact listedWords _ listed

theorem exists_cons_of_isWord {word : List Char} (word_isWord : isWord word) :
    ∃ first more, word = first :: more ∧ isWordStart first ∧ ∀ next ∈ more, isWordPart next := by
  cases word with
  | nil => contradiction
  | cons first more =>
      simp only [isWord, Bool.and_eq_true, List.all_eq_true] at word_isWord
      exact ⟨first, more, rfl, word_isWord⟩

theorem isWord_append {word : List Char} (word_isWord : isWord word) {next : Char}
    (goesOn : isWordPart next) : isWord (word ++ [next]) := by
  cases word with
  | nil => contradiction
  | cons first rest => simp_all [isWord]

theorem AreDigits.append {digits : List Char} (areDigits : AreDigits digits) {next : Char}
    (isDigit : next.isDigit) : AreDigits (digits ++ [next]) where
  ne_nil := by simp
  isDigit := by
    simp only [List.mem_append, List.mem_singleton]
    rintro digit (member | rfl)
    · exact areDigits.isDigit digit member
    · exact isDigit

theorem areDigits_singleton {digit : Char} (isDigit : digit.isDigit) : AreDigits [digit] where
  ne_nil := by simp
  isDigit := by simpa using isDigit

end Segment

open Segment

/-- The lexemes of each kind of token. -/
inductive Lexeme : Token.Kind → List Char → Prop
  | sign {kind : Token.Kind} {lexeme : List Char} (listed : (lexeme, kind) ∈ Token.Kind.signs) :
      Lexeme kind lexeme
  | keyword {kind : Token.Kind} {word : String} (listed : (word, kind) ∈ Token.Kind.keywords) :
      Lexeme kind word.toList
  | identifier {word : List Char} (word_isWord : isWord word)
      (unlisted : ∀ kind, (String.ofList word, kind) ∉ Token.Kind.keywords) :
      Lexeme .identifier word
  | whole {digits : List Char} (areDigits : AreDigits digits) : Lexeme .number digits
  | fraction {digits decimals : List Char} (areDigits : AreDigits digits)
      (areDecimals : AreDigits decimals) : Lexeme .number (digits ++ '.' :: decimals)
  | string {body : List Char} (closed : '"' ∉ body) : Lexeme .string ('"' :: body ++ ['"'])

namespace Lexeme

variable {kind : Token.Kind} {lexeme : List Char} {next : Char}

theorem ofWord {word : List Char} (word_isWord : isWord word) :
    Lexeme (.ofWord (String.ofList word)) word := by
  by_cases isListed : ∃ kind, (String.ofList word, kind) ∈ Token.Kind.keywords
  · rcases isListed with ⟨kind, listed⟩
    have isLexeme : Lexeme kind (String.ofList word).toList := .keyword listed
    rwa [String.toList_ofList, ← Token.Kind.ofWord_of_mem listed] at isLexeme
  · have unlisted := not_exists.1 isListed
    rw [Token.Kind.ofWord_of_not_mem unlisted]
    exact .identifier word_isWord unlisted

/-- A lexeme that is an identifier or a keyword is a word, and this word has no other kind. -/
theorem word (isLexeme : Lexeme kind lexeme) (kind_isWord : kind.isWord) :
    isWord lexeme ∧ kind = .ofWord (String.ofList lexeme) := by
  cases isLexeme with
  | sign listed =>
      have noWord : ∀ entry ∈ Token.Kind.signs, entry.2.isWord = false := by decide
      simp [noWord _ listed] at kind_isWord
  | keyword listed =>
      rw [String.ofList_toList, Token.Kind.ofWord_of_mem listed]
      exact ⟨isWord_of_mem listed, rfl⟩
  | identifier word_isWord unlisted =>
      exact ⟨word_isWord, (Token.Kind.ofWord_of_not_mem unlisted).symm⟩
  | whole => contradiction
  | fraction => contradiction
  | string => contradiction

theorem kind_ne_eof (isLexeme : Lexeme kind lexeme) : kind ≠ .eof := by
  rintro rfl
  cases isLexeme with
  | sign listed => simp [Token.Kind.signs] at listed
  | keyword listed => simp [Token.Kind.keywords] at listed

theorem number_append (isLexeme : Lexeme .number lexeme) (isDigit : next.isDigit) :
    Lexeme .number (lexeme ++ [next]) := by
  cases isLexeme with
  | sign listed => simp [Token.Kind.signs] at listed
  | keyword listed => simp [Token.Kind.keywords] at listed
  | whole areDigits => exact .whole (areDigits.append isDigit)
  | fraction areDigits areDecimals =>
      rw [List.append_assoc, List.cons_append]
      exact .fraction areDigits (areDecimals.append isDigit)

theorem number_point (isLexeme : Lexeme .number lexeme) (isWhole : '.' ∉ lexeme)
    (isDigit : next.isDigit) : Lexeme .number (lexeme ++ ['.', next]) := by
  cases isLexeme with
  | sign listed => simp [Token.Kind.signs] at listed
  | keyword listed => simp [Token.Kind.keywords] at listed
  | whole areDigits => exact .fraction areDigits (areDigits_singleton isDigit)
  | fraction => simp at isWhole

theorem exists_sign_equal (isDouble : lexeme ∈ [['!'], ['='], ['<'], ['>']]) :
    ∃ longer, Lexeme longer (lexeme ++ ['=']) := by
  have listed : ∀ lexeme ∈ [['!'], ['='], ['<'], ['>']],
      lexeme ++ ['='] ∈ Token.Kind.signs.map Prod.fst := by decide
  rcases List.mem_map.1 (listed lexeme isDouble) with ⟨⟨longer, kind⟩, isSign, same⟩
  exact ⟨kind, .sign (same ▸ isSign)⟩

/--
The text that follows a lexeme does not draw it out. A number stops before a character that is no
digit, and one without a fraction before a point only if no digit follows that; a word stops before
a character that is part of no word. A sign that is also the beginning of a longer one, or of a
comment, is not followed by the rest of it.
-/
structure Ends (kind : Token.Kind) (lexeme rest : List Char) : Prop where
  number : kind = .number → ∀ next ∈ rest.head?, next.isDigit = false
  whole : kind = .number → '.' ∉ lexeme →
    ∀ digit later, rest = '.' :: digit :: later → digit.isDigit = false
  word : kind.isWord → ∀ next ∈ rest.head?, isWordPart next = false
  alone : lexeme ∈ [['!'], ['='], ['<'], ['>']] → rest.head? ≠ some '='
  slash : lexeme = ['/'] → rest.head? ≠ some '/'

theorem Ends.nil : Ends kind lexeme [] := by
  constructor <;> simp

/-- A space or a newline draws no lexeme out. -/
theorem Ends.append {separator : Char} {rest : List Char} (ends : Ends kind lexeme rest)
    (separates : separator ∈ [' ', '\n']) (more : List Char) :
    Ends kind lexeme (rest ++ separator :: more) := by
  simp only [List.mem_cons, List.not_mem_nil, or_false] at separates
  have noDigit : separator.isDigit = false := by rcases separates with rfl | rfl <;> decide
  have noWordPart : isWordPart separator = false := by rcases separates with rfl | rfl <;> decide
  have noSign : separator ∉ ['=', '/', '.'] := by rcases separates with rfl | rfl <;> decide
  constructor
  case number =>
    intro isNumber next isNext
    rcases head?_append_cons isNext with isNext | rfl
    · exact ends.number isNumber next isNext
    · exact noDigit
  case whole =>
    intro isNumber isWhole digit later parts
    -- The separator may be the first character, or the one behind a point.
    match rest, ends with
    | [], _ => simp_all
    | [_], _ =>
        obtain ⟨rfl, rfl, rfl⟩ : _ = '.' ∧ separator = digit ∧ more = later := by
          simpa using parts
        exact noDigit
    | point :: next :: rest, ends =>
        obtain ⟨rfl, rfl, -⟩ : point = '.' ∧ next = digit ∧ rest ++ separator :: more = later := by
          simpa using parts
        exact ends.whole isNumber isWhole next rest rfl
  case word =>
    intro isWord next isNext
    rcases head?_append_cons isNext with isNext | rfl
    · exact ends.word isWord next isNext
    · exact noWordPart
  case alone =>
    intro isDouble isEqual
    rcases head?_append_cons isEqual with isEqual | rfl
    · exact ends.alone isDouble isEqual
    · simp at noSign
  case slash =>
    intro isSlash followed
    rcases head?_append_cons followed with followed | rfl
    · exact ends.slash isSlash followed
    · simp at noSign

end Lexeme

namespace Segment

/-- The segments that begin with a character of their own. -/
inductive Recognised : Segment → Prop
  | token {kind : Token.Kind} {lexeme : List Char} (isLexeme : Lexeme kind lexeme) :
      Recognised (token kind lexeme)
  | blank {character : Char} (isBlank : character ∈ [' ', '\r', '\t']) :
      Recognised (blank character)
  | newline : Recognised newline
  | comment {body : List Char} (onLine : '\n' ∉ body) : Recognised (comment body)
  | unterminated {body : List Char} (unclosed : '"' ∉ body) : Recognised (unterminated body)

/-- The segments of the grammar. A character is unexpected if no other segment begins with it. -/
inductive Lawful : Segment → Prop
  | recognised {segment : Segment} (isRecognised : Recognised segment) : Lawful segment
  | unexpected {character : Char}
      (beginsNone : ∀ segment, Recognised segment → segment.text.head? ≠ some character) :
      Lawful (unexpected character)

/--
The text that follows a segment does not draw it out. A comment stops at a newline or at the end of
the text, and a string that is never closed at the end.
-/
def Ends : Segment → List Char → Prop
  | token kind lexeme, rest => Lexeme.Ends kind lexeme rest
  | comment _, rest => ∀ next ∈ rest.head?, next = '\n'
  | unterminated _, rest => rest = []
  | _, _ => True

/-- No segment of the grammar covers more of a text than the one it begins with. -/
def Longest (segment : Segment) (rest : List Char) : Prop :=
  ∀ other : Segment, other.Lawful → other.text <+: segment.text ++ rest →
    other.text.length ≤ segment.text.length

variable {segment : Segment} {rest : List Char}

theorem Longest.eq_nil (longest : segment.Longest rest) (more : List Char) {later : List Char}
    (parts : rest = more ++ later) {other : Segment} (lawful : other.Lawful)
    (drawnOut : other.text = segment.text ++ more) : more = [] := by
  have covers := longest other lawful ⟨later, by simp [drawnOut, parts]⟩
  rw [drawnOut, List.length_append] at covers
  exact List.length_eq_zero_iff.1 (by omega)

theorem Longest.lexeme_ends {kind : Token.Kind} {lexeme : List Char}
    (longest : (token kind lexeme).Longest rest) (isLexeme : Lexeme kind lexeme) :
    Lexeme.Ends kind lexeme rest := by
  -- A lexeme cannot go on with a character and still be a lexeme.
  have stops {next : Char} (isNext : next ∈ rest.head?) {longer : Token.Kind} :
      ¬Lexeme longer (lexeme ++ [next]) := by
    intro drawnOut
    rcases List.head?_eq_some_iff.1 isNext with ⟨later, parts⟩
    simpa using longest.eq_nil [next] parts (.recognised (.token drawnOut)) rfl
  constructor
  case number =>
    rintro rfl next isNext
    exact Bool.eq_false_iff.2 fun isDigit => stops isNext (isLexeme.number_append isDigit)
  case whole =>
    rintro rfl isWhole digit later parts
    refine Bool.eq_false_iff.2 fun isDigit => ?_
    simpa using longest.eq_nil ['.', digit] parts
      (.recognised (.token (isLexeme.number_point isWhole isDigit))) rfl
  case word =>
    intro kind_isWord next isNext
    refine Bool.eq_false_iff.2 fun goesOn => stops isNext (.ofWord ?_)
    exact isWord_append (isLexeme.word kind_isWord).1 goesOn
  case alone =>
    intro isDouble isEqual
    rcases Lexeme.exists_sign_equal isDouble with ⟨longer, drawnOut⟩
    exact stops isEqual drawnOut
  case slash =>
    rintro rfl isSlash
    rcases List.head?_eq_some_iff.1 isSlash with ⟨later, parts⟩
    have begun : Lawful (comment []) := .recognised (.comment (by simp))
    simpa using longest.eq_nil ['/'] parts begun rfl

/-- The text behind the longest segment does not draw it out, since the result would be longer. -/
theorem Longest.ends (longest : segment.Longest rest) (lawful : segment.Lawful) :
    segment.Ends rest := by
  cases lawful with
  | unexpected => trivial
  | recognised isRecognised =>
      cases isRecognised with
      | token isLexeme => exact longest.lexeme_ends isLexeme
      | blank => trivial
      | newline => trivial
      | @comment body onLine =>
          intro next isNext
          rcases List.head?_eq_some_iff.1 isNext with ⟨later, parts⟩
          by_cases isNewline : next = '\n'
          · exact isNewline
          · have drawnOut : Lawful (comment (body ++ [next])) :=
              .recognised (.comment (by simp [onLine, Ne.symm isNewline]))
            simpa using longest.eq_nil [next] parts drawnOut rfl
      | @unterminated body unclosed =>
          cases rest with
          | nil => rfl
          | cons next later =>
              by_cases isQuote : next = '"'
              · subst isQuote
                have closed : Lawful (token .string ('"' :: body ++ ['"'])) :=
                  .recognised (.token (.string unclosed))
                simpa using longest.eq_nil [_] rfl closed rfl
              · have drawnOut : Lawful (unterminated (body ++ [next])) :=
                  .recognised (.unterminated (by simp [unclosed, Ne.symm isQuote]))
                simpa using longest.eq_nil [_] rfl drawnOut rfl

section Beginnings

variable {first : Char}

theorem recognised_wordStart (starts : isWordStart first) :
    Recognised (token (.ofWord (String.ofList [first])) [first]) :=
  .token (.ofWord (by simpa [isWord] using starts))

theorem recognised_digit (isDigit : first.isDigit) : Recognised (token .number [first]) :=
  .token (.whole (areDigits_singleton isDigit))

theorem recognised_quote : Recognised (unterminated []) :=
  .unterminated (by simp)

/-- The first character of a lexeme can stand alone. -/
theorem exists_recognised_of_lexeme {kind : Token.Kind} {lexeme : List Char}
    (isLexeme : Lexeme kind lexeme) :
    ∃ (first : Char) (more : List Char) (segment : Segment),
      lexeme = first :: more ∧ segment.Recognised ∧ segment.text = [first] := by
  cases isLexeme with
  | sign listed =>
      have alone : ∀ entry ∈ Token.Kind.signs, entry.1 ≠ [] ∧
          entry.1.take 1 ∈ Token.Kind.signs.map Prod.fst := by decide
      rcases alone _ listed with ⟨nonempty, isSign⟩
      rcases List.exists_cons_of_ne_nil nonempty with ⟨first, more, rfl⟩
      rcases List.mem_map.1 isSign with ⟨⟨sign, signKind⟩, isListed, rfl⟩
      exact ⟨first, more, token signKind [first], rfl, .token (.sign isListed), rfl⟩
  | keyword listed =>
      rcases exists_cons_of_isWord (isWord_of_mem listed) with ⟨first, more, parts, starts, _⟩
      exact ⟨first, more, _, parts, recognised_wordStart starts, rfl⟩
  | identifier word_isWord =>
      rcases exists_cons_of_isWord word_isWord with ⟨first, more, parts, starts, _⟩
      exact ⟨first, more, _, parts, recognised_wordStart starts, rfl⟩
  | whole areDigits =>
      rcases List.exists_cons_of_ne_nil areDigits.ne_nil with ⟨first, more, rfl⟩
      exact ⟨first, more, _, rfl, recognised_digit (areDigits.isDigit first (by simp)), rfl⟩
  | fraction areDigits =>
      rcases List.exists_cons_of_ne_nil areDigits.ne_nil with ⟨first, more, rfl⟩
      exact ⟨first, _, _, rfl, recognised_digit (areDigits.isDigit first (by simp)), rfl⟩
  | string => exact ⟨_, _, _, rfl, recognised_quote, rfl⟩

/-- Every segment has a first character, and that character is itself a segment. -/
theorem exists_singleton (lawful : segment.Lawful) :
    ∃ (first : Char) (more : List Char) (single : Segment),
      segment.text = first :: more ∧ single.Lawful ∧ single.text = [first] := by
  cases lawful with
  | unexpected beginsNone => exact ⟨_, _, _, rfl, .unexpected beginsNone, rfl⟩
  | recognised isRecognised =>
      cases isRecognised with
      | token isLexeme =>
          rcases exists_recognised_of_lexeme isLexeme with
            ⟨first, more, single, parts, isRecognised, same⟩
          exact ⟨first, more, single, parts, .recognised isRecognised, same⟩
      | blank isBlank => exact ⟨_, _, _, rfl, .recognised (.blank isBlank), rfl⟩
      | newline => exact ⟨_, _, _, rfl, .recognised .newline, rfl⟩
      | comment =>
          have isSign : Lexeme .slash ['/'] := .sign (by decide)
          exact ⟨_, _, _, rfl, .recognised (.token isSign), rfl⟩
      | unterminated => exact ⟨_, _, _, rfl, .recognised recognised_quote, rfl⟩

theorem Lawful.exists_cons (lawful : segment.Lawful) :
    ∃ first more, segment.text = first :: more := by
  rcases exists_singleton lawful with ⟨first, more, _, parts, _⟩
  exact ⟨first, more, parts⟩

theorem exists_lawful (first : Char) :
    ∃ single : Segment, single.Lawful ∧ single.text = [first] := by
  by_cases begins : ∃ segment : Segment, segment.Recognised ∧ segment.text.head? = some first
  · rcases begins with ⟨segment, isRecognised, isFirst⟩
    rcases exists_singleton (.recognised isRecognised) with
      ⟨other, more, single, parts, lawful, same⟩
    obtain rfl : other = first := by simpa [parts] using isFirst
    exact ⟨single, lawful, same⟩
  · refine ⟨unexpected first, .unexpected fun segment isRecognised isFirst => ?_, rfl⟩
    exact begins ⟨segment, isRecognised, isFirst⟩

end Beginnings

/-- Some segment is the longest of those with which a text begins, if one of them is known. -/
theorem exists_longest (lawful : segment.Lawful) (rest : List Char) :
    ∃ (longest : Segment) (later : List Char), longest.Lawful ∧ longest.Longest later ∧
      longest.text ++ later = segment.text ++ rest ∧
      segment.text.length ≤ longest.text.length := by
  -- By induction on what is left: a segment that is not the longest can be replaced by a longer.
  induction isLength : rest.length using Nat.strongRecOn generalizing segment rest with
  | ind length ih =>
      by_cases isLongest : segment.Longest rest
      · exact ⟨segment, rest, lawful, isLongest, rfl, Nat.le_refl _⟩
      · simp only [Longest, Classical.not_forall, Nat.not_le] at isLongest
        rcases isLongest with ⟨other, otherLawful, ⟨later, whole⟩, longer⟩
        have shorter : later.length < length := by
          have lengths := congrArg List.length whole
          simp only [List.length_append] at lengths
          omega
        rcases ih _ shorter otherLawful later rfl with
          ⟨longest, last, longestLawful, isLongest, same, covers⟩
        exact ⟨longest, last, longestLawful, isLongest, same.trans whole, by omega⟩

end Segment

end Scriptlet
