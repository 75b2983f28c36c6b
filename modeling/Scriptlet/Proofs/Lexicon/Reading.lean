import Scriptlet.Proofs.Lexicon
import Scriptlet.Segment.Lemmas

/-!
# Reading segments of the grammar

A segment of the lexical grammar is read from the beginning of a text if the text behind it does not
draw it out (`Segment.read_eq`). There is one lemma for each kind of segment. As every text begins
with a longest segment, which the text behind it does not draw out, what is read is always a segment
of the grammar (`Segment.read_lawful`).
-/

namespace Scriptlet

section Stopping

variable {α : Type} {holds : α → Bool} {items rest : List α}

theorem takeWhile_append_of_stop (all : ∀ item ∈ items, holds item)
    (stops : ∀ next ∈ rest.head?, holds next = false) :
    (items ++ rest).takeWhile holds = items := by
  rw [List.takeWhile_append_of_pos all]
  cases rest with
  | nil => simp
  | cons next rest => simp [stops next rfl]

theorem dropWhile_append_of_stop (all : ∀ item ∈ items, holds item)
    (stops : ∀ next ∈ rest.head?, holds next = false) :
    (items ++ rest).dropWhile holds = rest := by
  rw [List.dropWhile_append_of_pos all]
  cases rest with
  | nil => rfl
  | cons next rest => simp [stops next rfl]

end Stopping

namespace Segment

variable {first : Char} {more rest : List Char} {segment : Segment}

theorem single?_of_isWordPart (isPart : isWordPart first) : single? first = none := by
  unfold single?
  split <;> first | rfl | contradiction

theorem double?_of_isWordPart (isPart : isWordPart first) : double? first = none := by
  unfold double?
  split <;> first | rfl | contradiction

/-- A character of a word begins a number or a word. -/
theorem read_of_isWordPart (isPart : isWordPart first) (rest : List Char) :
    read first rest =
      if first.isDigit then readNumber first rest else readWord first rest := by
  have ne {other : Char} (isOther : isWordPart other = false) : first ≠ other := by
    rintro rfl
    simp [isOther] at isPart
  have notBlank : isBlank first = false := by
    have notSpace : first ≠ ' ' := ne (by decide)
    have notReturn : first ≠ '\r' := ne (by decide)
    have notTab : first ≠ '\t' := ne (by decide)
    simp [isBlank, notSpace, notReturn, notTab]
  have notSlash : first ≠ '/' := ne (by decide)
  have notNewline : first ≠ '\n' := ne (by decide)
  have notQuote : first ≠ '"' := ne (by decide)
  simp only [read, single?_of_isWordPart isPart, double?_of_isWordPart isPart, notSlash, notBlank,
    notNewline, notQuote, if_false, Bool.false_eq_true]
  by_cases isDigit : first.isDigit
  · simp only [isDigit, if_true]
  · have starts : isWordStart first := by simpa [isWordPart, isDigit] using isPart
    simp only [isDigit, starts, if_true, if_false, Bool.false_eq_true]

theorem isDigit_of_isWordStart (starts : isWordStart first) : first.isDigit = false := by
  simp only [isWordStart, Bool.or_eq_true, beq_iff_eq] at starts
  rcases starts with isLetter | rfl
  · refine Bool.eq_false_iff.2 fun isDigit => ?_
    have letters : (decide (first.val ≥ 'A'.val ∧ first.val ≤ 'Z'.val) ||
        (decide (first.val ≥ 'a'.val) && decide (first.val ≤ 'z'.val))) = true := isLetter
    have digits : (decide (first.val ≥ '0'.val) && decide (first.val ≤ '9'.val)) = true := isDigit
    simp only [Bool.or_eq_true, Bool.and_eq_true, decide_eq_true_eq] at letters digits
    grind
  · decide

theorem read_word (word_isWord : isWord (first :: more))
    (stops : ∀ next ∈ rest.head?, isWordPart next = false) :
    read first (more ++ rest) =
      (token (.ofWord (String.ofList (first :: more))) (first :: more), rest) := by
  simp only [isWord, Bool.and_eq_true, List.all_eq_true] at word_isWord
  have isPart : isWordPart first := by simp [isWordPart, word_isWord.1]
  simp only [read_of_isWordPart isPart, isDigit_of_isWordStart word_isWord.1, Bool.false_eq_true,
    if_false, readWord, takeWhile_append_of_stop word_isWord.2 stops,
    dropWhile_append_of_stop word_isWord.2 stops]

theorem read_digit (isDigit : first.isDigit) (rest : List Char) :
    read first rest = readNumber first rest := by
  have isPart : isWordPart first := by simp [isWordPart, isDigit]
  simp [read_of_isWordPart isPart, isDigit]

theorem read_whole (areDigits : AreDigits (first :: more))
    (stops : ∀ next ∈ rest.head?, next.isDigit = false)
    (isWhole : ∀ digit later, rest = '.' :: digit :: later → digit.isDigit = false) :
    read first (more ++ rest) = (token .number (first :: more), rest) := by
  have all := List.forall_mem_cons.1 areDigits.isDigit
  rw [read_digit all.1, readNumber, takeWhile_append_of_stop all.2 stops,
    dropWhile_append_of_stop all.2 stops]
  split
  · rename_i digit later
    simp [isWhole digit later rfl]
  · rfl

theorem read_fraction {decimals : List Char} (areDigits : AreDigits (first :: more))
    (areDecimals : AreDigits decimals) (stops : ∀ next ∈ rest.head?, next.isDigit = false) :
    read first (more ++ '.' :: decimals ++ rest) =
      (token .number (first :: more ++ '.' :: decimals), rest) := by
  have all := List.forall_mem_cons.1 areDigits.isDigit
  rcases List.exists_cons_of_ne_nil areDecimals.ne_nil with ⟨decimal, decimals, rfl⟩
  have allDecimals := List.forall_mem_cons.1 areDecimals.isDigit
  have pointStops : ∀ next ∈ ('.' :: decimal :: decimals ++ rest).head?, next.isDigit = false := by
    simp
  rw [read_digit all.1, List.append_assoc, readNumber, takeWhile_append_of_stop all.2 pointStops,
    dropWhile_append_of_stop all.2 pointStops]
  simp only [List.cons_append, allDecimals.1, if_true, takeWhile_append_of_stop allDecimals.2 stops,
    dropWhile_append_of_stop allDecimals.2 stops]

theorem read_string {body : List Char} (closed : '"' ∉ body) :
    read '"' (body ++ ['"'] ++ rest) = (token .string ('"' :: body ++ ['"']), rest) := by
  have inside : ∀ next ∈ body, decide (next ≠ '"') = true := by
    intro next member
    exact decide_eq_true (ne_of_mem_of_not_mem member closed)
  have stops : ∀ next ∈ ('"' :: rest).head?, decide (next ≠ '"') = false := by simp
  rw [List.append_assoc]
  change readString (body ++ '"' :: rest) = _
  rw [readString, takeWhile_append_of_stop inside stops, dropWhile_append_of_stop inside stops]

theorem read_unterminated {body : List Char} (unclosed : '"' ∉ body) :
    read '"' body = (unterminated body, []) := by
  have inside : body.dropWhile (fun next => decide (next ≠ '"')) = [] := by
    rw [← List.append_nil body]
    apply dropWhile_append_of_stop
    · intro next member
      exact decide_eq_true (ne_of_mem_of_not_mem member unclosed)
    · simp
  change readString body = _
  rw [readString, inside]

theorem read_comment {body : List Char} (onLine : '\n' ∉ body)
    (stops : ∀ next ∈ rest.head?, next = '\n') :
    read '/' ('/' :: body ++ rest) = (comment body, rest) := by
  have inside : ∀ next ∈ body, decide (next ≠ '\n') = true := by
    intro next member
    exact decide_eq_true (ne_of_mem_of_not_mem member onLine)
  have ends : ∀ next ∈ rest.head?, decide (next ≠ '\n') = false := by
    intro next isNext
    simpa using stops next isNext
  change readSlash ('/' :: (body ++ rest)) = _
  rw [readSlash, takeWhile_append_of_stop inside ends, dropWhile_append_of_stop inside ends]

theorem read_single {kind : Token.Kind} (isSingle : single? first = some kind) (rest : List Char) :
    read first rest = (token kind [first], rest) := by
  simp [read, isSingle]

theorem double_mem {withEqual alone : Token.Kind}
    (isDouble : double? first = some (withEqual, alone)) : first ∈ ['!', '=', '<', '>'] := by
  unfold double? at isDouble
  split at isDouble <;> simp_all

theorem read_double {withEqual alone : Token.Kind}
    (isDouble : double? first = some (withEqual, alone)) (rest : List Char) :
    read first rest = readDouble first withEqual alone rest := by
  have notSingle : single? first = none := by
    unfold double? at isDouble
    split at isDouble <;> first | rfl | contradiction
  simp [read, notSingle, isDouble]

theorem readDouble_of_stop {withEqual alone : Token.Kind} (stops : rest.head? ≠ some '=') :
    readDouble first withEqual alone rest = (token alone [first], rest) := by
  cases rest with
  | nil => rfl
  | cons next rest =>
      have isOther : next ≠ '=' := by simpa using stops
      simp [readDouble, isOther]

theorem readSlash_of_stop (stops : rest.head? ≠ some '/') :
    readSlash rest = (token .slash ['/'], rest) := by
  cases rest with
  | nil => rfl
  | cons next rest =>
      have isOther : next ≠ '/' := by simpa using stops
      simp [readSlash, isOther]

/-- A sign is a single character or a character that an equals sign may follow, or a slash. -/
theorem sign_cases : ∀ sign ∈ Token.Kind.signs, sign = (['/'], .slash) ∨
    sign.1.tail = [] ∧ sign.1.head?.bind single? = some sign.2 ∨
    sign.1.tail = [] ∧ (sign.1.head?.bind double?).map Prod.snd = some sign.2 ∨
    sign.1.tail = ['='] ∧ (sign.1.head?.bind double?).map Prod.fst = some sign.2 := by
  decide

theorem read_sign {kind : Token.Kind} (listed : (first :: more, kind) ∈ Token.Kind.signs)
    (ends : Lexeme.Ends kind (first :: more) rest) :
    read first (more ++ rest) = (token kind (first :: more), rest) := by
  rcases sign_cases _ listed with isSlash | ⟨isAlone, isSingle⟩ | ⟨isAlone, isSecond⟩ |
    ⟨isLonger, isFirst⟩
  · cases isSlash
    exact readSlash_of_stop (ends.slash rfl)
  · cases isAlone
    exact read_single isSingle rest
  · cases isAlone
    rcases Option.map_eq_some_iff.1 isSecond with ⟨⟨withEqual, alone⟩, isDouble, rfl⟩
    have stops := ends.alone (by simpa using double_mem isDouble)
    exact (read_double isDouble rest).trans (readDouble_of_stop stops)
  · cases isLonger
    rcases Option.map_eq_some_iff.1 isFirst with ⟨⟨withEqual, alone⟩, isDouble, rfl⟩
    exact read_double isDouble _

/-- A lexeme that the text behind it does not draw out is read. -/
theorem read_lexeme {kind : Token.Kind} (isLexeme : Lexeme kind (first :: more))
    (ends : Lexeme.Ends kind (first :: more) rest) :
    read first (more ++ rest) = (token kind (first :: more), rest) := by
  by_cases kind_isWord : kind.isWord
  · rcases isLexeme.word kind_isWord with ⟨word_isWord, rfl⟩
    exact read_word word_isWord (ends.word kind_isWord)
  · generalize same : first :: more = lexeme at isLexeme ends
    cases isLexeme with
    | sign listed =>
        subst same
        exact read_sign listed ends
    | keyword listed =>
        have kinds : ∀ entry ∈ Token.Kind.keywords, entry.2.isWord := by decide
        exact absurd (kinds _ listed) kind_isWord
    | identifier => simp [Token.Kind.isWord] at kind_isWord
    | whole areDigits =>
        subst same
        have isWhole : '.' ∉ first :: more := by
          intro member
          simpa using areDigits.isDigit '.' member
        exact read_whole areDigits (ends.number rfl) (ends.whole rfl isWhole)
    | @fraction digits decimals areDigits areDecimals =>
        rcases List.exists_cons_of_ne_nil areDigits.ne_nil with ⟨digit, digits, rfl⟩
        cases same
        exact read_fraction areDigits areDecimals (ends.number rfl)
    | @string body closed =>
        cases same
        exact read_string closed

theorem single_mem_signs {kind : Token.Kind} (isSingle : single? first = some kind) :
    ([first], kind) ∈ Token.Kind.signs := by
  unfold single? at isSingle
  split at isSingle <;> cases isSingle <;> decide

theorem double_mem_signs {withEqual alone : Token.Kind}
    (isDouble : double? first = some (withEqual, alone)) :
    ([first], alone) ∈ Token.Kind.signs := by
  unfold double? at isDouble
  split at isDouble <;> cases isDouble <;> decide

/-- A character with which no other segment begins is read as unexpected. -/
theorem read_unexpected
    (beginsNone : ∀ segment : Segment, segment.Recognised → segment.text.head? ≠ some first)
    (rest : List Char) : read first rest = (unexpected first, rest) := by
  have ne {other : Char} {segment : Segment} (isRecognised : segment.Recognised)
      (begins : segment.text.head? = some other) : first ≠ other := by
    rintro rfl
    exact beginsNone segment isRecognised begins
  have notSingle : single? first = none := by
    rw [Option.eq_none_iff_forall_ne_some]
    intro kind isSingle
    exact beginsNone _ (.token (.sign (single_mem_signs isSingle))) rfl
  have notDouble : double? first = none := by
    rw [Option.eq_none_iff_forall_ne_some]
    rintro ⟨withEqual, alone⟩ isDouble
    exact beginsNone _ (.token (.sign (double_mem_signs isDouble))) rfl
  have notSlash : first ≠ '/' := ne (.comment (List.not_mem_nil)) rfl
  have notBlank : isBlank first = false := by
    refine Bool.eq_false_iff.2 fun isBlank => beginsNone (blank first) (.blank ?_) rfl
    simpa [Segment.isBlank, or_assoc] using isBlank
  have notNewline : first ≠ '\n' := ne .newline rfl
  have notQuote : first ≠ '"' := ne recognised_quote rfl
  have notDigit : first.isDigit = false :=
    Bool.eq_false_iff.2 fun isDigit => beginsNone _ (recognised_digit isDigit) rfl
  have notStart : isWordStart first = false :=
    Bool.eq_false_iff.2 fun starts => beginsNone _ (recognised_wordStart starts) rfl
  simp [read, notSingle, notDouble, notSlash, notBlank, notNewline, notQuote, notDigit, notStart]

theorem read_blank (isBlank : first ∈ [' ', '\r', '\t']) (rest : List Char) :
    read first rest = (blank first, rest) := by
  simp only [List.mem_cons, List.not_mem_nil, or_false] at isBlank
  rcases isBlank with rfl | rfl | rfl <;> rfl

/-- A segment that the text behind it does not draw out is read. -/
theorem read_eq (lawful : segment.Lawful) (ends : segment.Ends rest)
    (parts : segment.text = first :: more) : read first (more ++ rest) = (segment, rest) := by
  cases lawful with
  | unexpected beginsNone =>
      cases parts
      exact read_unexpected beginsNone rest
  | recognised isRecognised =>
      cases isRecognised with
      | token isLexeme =>
          cases parts
          exact read_lexeme isLexeme ends
      | blank isBlank =>
          cases parts
          exact read_blank isBlank rest
      | newline =>
          cases parts
          rfl
      | comment onLine =>
          cases parts
          exact read_comment onLine ends
      | unterminated unclosed =>
          cases parts
          obtain rfl : rest = [] := ends
          rw [List.append_nil]
          exact read_unterminated unclosed

/-- What is read is a segment of the grammar, and the text behind it does not draw it out. -/
theorem read_lawful (first : Char) (rest : List Char) :
    (read first rest).1.Lawful ∧ (read first rest).1.Ends (read first rest).2 := by
  rcases exists_lawful first with ⟨single, isLawful, isFirst⟩
  rcases exists_longest isLawful rest with ⟨segment, later, lawful, longest, whole, _⟩
  rcases lawful.exists_cons with ⟨other, more, parts⟩
  have ends := longest.ends lawful
  rw [isFirst, parts, List.cons_append, List.singleton_append] at whole
  obtain ⟨rfl, rfl⟩ := List.cons.inj whole
  rw [read_eq lawful ends parts]
  exact ⟨lawful, ends⟩

end Segment

end Scriptlet
