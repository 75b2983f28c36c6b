import Scriptlet.Proofs.Continuation
import Scriptlet.Proofs.Numerals
import Scriptlet.Tree.Listing

/-!
# Forms of a listing

A listing is made of forms: constants, words, and parts in parentheses with a space between each two
of them. Strings are written as they are, so that spaces and parentheses may stand in them, and a
list of parameters follows the name of its function at once. Still, a text begins with at most one
form behind which a space, a closing parenthesis or the end of a line can follow
(`Form.Lawful.unique`), so that forms on lines of their own can be told apart (`Form.eq_of_lines`).
-/

namespace Scriptlet

/-- A form of a listing. -/
inductive Form where
  | constant (value : Constant)
  | word (lexeme : List Char)
  /-- Parts in parentheses, behind a label that can be empty. -/
  | node (label : List Char) (parts : List Form)

namespace Form

mutual

/-- The text of a form. -/
def text : Form → List Char
  | constant value => value.listing.toList
  | word lexeme => lexeme
  | node label parts => label ++ '(' :: inner parts

/-- Parts up to the parenthesis that closes them. -/
def inner : List Form → List Char
  | [] => [')']
  | part :: parts => part.text ++ tail parts

/-- Parts, each behind a space, up to the parenthesis that closes them. -/
def tail : List Form → List Char
  | [] => [')']
  | part :: parts => ' ' :: (part.text ++ tail parts)

end

/-- Whether a character has no meaning of its own in a listing. -/
def isPlain (character : Char) : Bool :=
  character ∉ [' ', '\n', '(', ')', '"']

/-- That a form is over where a text goes on. -/
def Stops (rest : List Char) : Prop :=
  ∀ next ∈ rest.head?, next ∈ [' ', '\n', ')']

/-- That a constant can be told from its listing. -/
def Listable : Constant → Prop
  | .number value => Number.isFinite value = true
  | .string value => '"' ∉ value.toList
  | _ => True

/-- The kinds of tokens that no word in a listing has. -/
def otherKinds : List Token.Kind :=
  [.number, .string, .kwNull, .kwTrue, .kwFalse, .leftParen, .rightParen]

/-- A character with a meaning in a listing belongs to no word and no numeral. -/
theorem noPart_of_not_isPlain {character : Char} (hasMeaning : ¬isPlain character = true) :
    Segment.isWordPart character = false ∧ character ≠ '.' ∧
      Layout.isNumeralPart character = false := by
  simp only [isPlain, decide_eq_true_eq, not_not, List.mem_cons, List.not_mem_nil, or_false]
    at hasMeaning
  rcases hasMeaning with rfl | rfl | rfl | rfl | rfl <;> decide

/-- That the constants and words of a form are such as a tree has. -/
inductive Lawful : Form → Prop
  | constant {value : Constant} (listable : Listable value) : Lawful (constant value)
  | word {kind : Token.Kind} {lexeme : List Char} (isLexeme : Lexeme kind lexeme)
      (isWord : kind ∉ otherKinds) : Lawful (word lexeme)
  | node {label : List Char} {parts : List Form}
      (labelPlain : ∀ character ∈ label, isPlain character = true)
      (partsLawful : ∀ part ∈ parts, Lawful part) : Lawful (node label parts)

end Form

namespace Lexeme

variable {kind : Token.Kind} {lexeme : List Char}

/-- A lexeme that is neither a number nor a string does not begin like one. -/
theorem begins (isLexeme : Lexeme kind lexeme) (noNumber : kind ≠ .number)
    (noString : kind ≠ .string) :
    ∃ first more, lexeme = first :: more ∧ first.isDigit = false ∧ first ≠ '"' ∧
      (first = '-' → more = []) := by
  have beginsWord {word : List Char} (isWord : Segment.isWord word) :
      ∃ first more, word = first :: more ∧ first.isDigit = false ∧ first ≠ '"' ∧
        (first = '-' → more = []) := by
    rcases Segment.exists_cons_of_isWord isWord with ⟨first, more, rfl, starts, _⟩
    refine ⟨first, more, rfl, Segment.isDigit_of_isWordStart starts, ?_, ?_⟩
    · rintro rfl
      contradiction
    · rintro rfl
      contradiction
  cases isLexeme with
  | sign listed =>
      have beginsSign : ∀ entry ∈ Token.Kind.signs, entry.1 ≠ [] ∧
          (entry.1.headD ' ').isDigit = false ∧ entry.1.headD ' ' ≠ '"' ∧
          (entry.1.headD ' ' = '-' → entry.1.tail = []) := by decide
      rcases beginsSign _ listed with ⟨nonempty, noDigit, noQuote, alone⟩
      rcases List.exists_cons_of_ne_nil nonempty with ⟨first, more, rfl⟩
      exact ⟨first, more, rfl, noDigit, noQuote, alone⟩
  | keyword listed => exact beginsWord (Segment.isWord_of_mem listed)
  | identifier isWord => exact beginsWord isWord
  | whole => contradiction
  | fraction => contradiction
  | string => contradiction

/-- Only parentheses and strings have characters with a meaning in a listing. -/
theorem isPlain (isLexeme : Lexeme kind lexeme) (isWord : kind ∉ Form.otherKinds) :
    ∀ character ∈ lexeme, Form.isPlain character = true := by
  intro character member
  simp only [Form.otherKinds, List.mem_cons, List.not_mem_nil, or_false, not_or] at isWord
  by_contra hasMeaning
  have noPart := Form.noPart_of_not_isPlain hasMeaning
  have noSign : ∀ entry ∈ Token.Kind.signs, entry.2 ≠ .leftParen → entry.2 ≠ .rightParen →
      entry.1.all Form.isPlain = true := by decide
  have listed := isLexeme.listed_of_mem isWord.2.1 member noPart.1 noPart.2.1
  have allPlain := noSign _ listed isWord.2.2.2.2.2.1 isWord.2.2.2.2.2.2
  exact hasMeaning (List.all_eq_true.1 allPlain character member)

end Lexeme

namespace Form

/-- A numeral has no characters with a meaning in a listing. -/
theorem isPlain_of_isNumeralPart {character : Char}
    (isPart : Layout.isNumeralPart character = true) : isPlain character = true := by
  by_contra hasMeaning
  simp [(noPart_of_not_isPlain hasMeaning).2.2] at isPart

/-- How the text of a form that has no parts can look. -/
inductive Shape : List Char → Prop
  | plain {text : List Char} (notEmpty : text ≠ [])
      (allPlain : ∀ character ∈ text, isPlain character = true) : Shape text
  | quoted {body : List Char} (closed : '"' ∉ body) : Shape ('"' :: body ++ ['"'])

theorem shape_constant {value : Constant} (listable : Listable value) :
    Shape value.listing.toList := by
  cases value with
  | null => exact .plain (by decide) (List.all_eq_true.1 (by decide))
  | bool value => cases value <;> exact .plain (by decide) (List.all_eq_true.1 (by decide))
  | number value =>
      rcases Number.exists_numeral Number.printLayout listable with
        ⟨sign, _, text, isSign, first, rest, rfl, isDigit, areParts⟩
      have signPlain : ∀ sign ∈ [[], ['-']], sign.all isPlain = true := by decide
      have firstPlain : isPlain first = true :=
        isPlain_of_isNumeralPart (by simp [Layout.isNumeralPart, isDigit])
      change Shape (Number.write Number.printLayout value).toList
      rw [text]
      refine .plain (by simp) ?_
      simp only [List.forall_mem_append, List.forall_mem_cons]
      exact ⟨List.all_eq_true.1 (signPlain sign isSign), firstPlain,
        fun character member => isPlain_of_isNumeralPart (areParts character member)⟩
  | string value =>
      have text : (Constant.string value).listing.toList = '"' :: value.toList ++ ['"'] := by
        simp [Constant.listing]
      rw [text]
      exact .quoted listable

theorem shape_word {kind : Token.Kind} {lexeme : List Char} (isLexeme : Lexeme kind lexeme)
    (isWord : kind ∉ otherKinds) : Shape lexeme := by
  rcases Segment.exists_recognised_of_lexeme isLexeme with ⟨first, more, _, rfl, _⟩
  exact .plain (by simp) (isLexeme.isPlain isWord)

/-- Where a text begins with items of a kind, and goes on with another, is known by the text. -/
theorem eq_of_append_eq_append {α : Type} {holds : α → Bool} {items others rest later : List α}
    (all : ∀ item ∈ items, holds item) (stops : ∀ next ∈ rest.head?, holds next = false)
    (otherAll : ∀ item ∈ others, holds item) (otherStops : ∀ next ∈ later.head?, holds next = false)
    (same : items ++ rest = others ++ later) : items = others ∧ rest = later := by
  have taken := takeWhile_append_of_stop all stops
  rw [same, takeWhile_append_of_stop otherAll otherStops] at taken
  subst taken
  exact ⟨rfl, List.append_cancel_left same⟩

section Shapes

variable {text other rest later : List Char}

theorem Stops.noPlain (stops : Stops rest) : ∀ next ∈ rest.head?, isPlain next = false := by
  intro next isNext
  have isStop := stops next isNext
  simp only [List.mem_cons, List.not_mem_nil, or_false] at isStop
  rcases isStop with rfl | rfl | rfl <;> rfl

theorem eq_of_quoted {body otherBody : List Char} (closed : '"' ∉ body)
    (otherClosed : '"' ∉ otherBody)
    (same : '"' :: body ++ ['"'] ++ rest = '"' :: otherBody ++ ['"'] ++ later) :
    body = otherBody ∧ rest = later := by
  have inside {body : List Char} (closed : '"' ∉ body) :
      ∀ character ∈ body, decide (character ≠ '"') = true :=
    fun character member => decide_eq_true fun isQuote => closed (isQuote ▸ member)
  have bodies : body ++ '"' :: rest = otherBody ++ '"' :: later := by simpa using same
  obtain ⟨rfl, rests⟩ := eq_of_append_eq_append (inside closed) (by simp) (inside otherClosed)
    (by simp) bodies
  exact ⟨rfl, (List.cons.inj rests).2⟩

/-- A form without parts is over where its text is. -/
theorem Shape.unique (shape : Shape text) (otherShape : Shape other) (stops : Stops rest)
    (otherStops : Stops later) (same : text ++ rest = other ++ later) :
    text = other ∧ rest = later := by
  have noQuote {text : List Char} (notEmpty : text ≠ [])
      (allPlain : ∀ character ∈ text, isPlain character = true) (rest : List Char) :
      (text ++ rest).head? ≠ some '"' := by
    rcases List.exists_cons_of_ne_nil notEmpty with ⟨first, more, rfl⟩
    intro isQuote
    obtain rfl : first = '"' := by simpa using isQuote
    exact absurd (allPlain '"' (by simp)) (by decide)
  cases shape with
  | plain notEmpty allPlain =>
      cases otherShape with
      | plain _ otherPlain =>
          exact eq_of_append_eq_append allPlain stops.noPlain otherPlain otherStops.noPlain same
      | quoted _ => exact absurd (congrArg List.head? same) (noQuote notEmpty allPlain rest)
  | quoted closed =>
      cases otherShape with
      | plain notEmpty otherPlain =>
          exact absurd (congrArg List.head? same).symm (noQuote notEmpty otherPlain later)
      | quoted otherClosed =>
          rcases eq_of_quoted closed otherClosed same with ⟨rfl, rfl⟩
          exact ⟨rfl, rfl⟩

end Shapes

section Atoms

variable {value other : Constant} {kind : Token.Kind} {lexeme : List Char}

theorem listing_number {number : Float} (finite : Number.isFinite number = true) :
    ∃ first rest, (Constant.number number).listing.toList = first :: rest ∧
      (first.isDigit = true ∨ first = '-' ∧ rest ≠ []) := by
  rcases Number.exists_numeral Number.printLayout finite with
    ⟨sign, _, text, isSign, first, rest, rfl, isDigit, _⟩
  simp only [List.mem_cons, List.not_mem_nil, or_false] at isSign
  rcases isSign with rfl | rfl
  · exact ⟨first, rest, text, .inl isDigit⟩
  · exact ⟨'-', first :: rest, text, .inr ⟨rfl, by simp⟩⟩

/-- The first character of a constant that is no number. -/
def initial : Constant → Option Char
  | .null => some 'n'
  | .bool true => some 't'
  | .bool false => some 'f'
  | .string _ => some '"'
  | .number _ => none

theorem head?_listing (noNumber : (initial value).isSome = true) :
    value.listing.toList.head? = initial value := by
  cases value with
  | null => rfl
  | bool value => cases value <;> rfl
  | number => contradiction
  | string value => simp [Constant.listing, initial]

theorem initial_eq (noNumber : (initial value).isSome = true)
    (otherNoNumber : (initial other).isSome = true) (same : value.listing = other.listing) :
    initial value = initial other := by
  rw [← head?_listing noNumber, same, head?_listing otherNoNumber]

theorem listing_number_ne {number : Float} (finite : Number.isFinite number = true)
    (noNumber : (initial value).isSome = true) :
    (Constant.number number).listing ≠ value.listing := by
  intro same
  have isInitial := head?_listing noNumber
  rcases listing_number finite with ⟨first, rest, text, isNumeral⟩
  rw [← same, text, List.head?_cons, eq_comm] at isInitial
  have noNumeral : first.isDigit = false ∧ first ≠ '-' := by
    unfold initial at isInitial
    split at isInitial <;> cases isInitial <;> decide
  rcases isNumeral with isDigit | ⟨isMinus, _⟩
  · simp [noNumeral] at isDigit
  · exact noNumeral.2 isMinus

/-- A constant is known by its listing. -/
theorem Listable.injective (listable : Listable value) (otherListable : Listable other)
    (same : value.listing = other.listing) : value = other := by
  have isSome_bool (value : Bool) : (initial (.bool value)).isSome = true := by cases value <;> rfl
  cases value with
  | number number =>
      cases other with
      | number other =>
          exact congrArg _ (Number.eq_of_write_eq listable otherListable same)
      | bool other => exact absurd same (listing_number_ne listable (isSome_bool other))
      | null | string => exact absurd same (listing_number_ne listable rfl)
  | null =>
      cases other with
      | null => rfl
      | bool other => cases other <;> exact absurd same (by decide)
      | number => exact absurd same.symm (listing_number_ne otherListable rfl)
      | string => exact absurd (initial_eq rfl rfl same) (by simp [initial])
  | bool value =>
      cases other with
      | null => cases value <;> exact absurd same (by decide)
      | bool other =>
          cases value <;> cases other <;> first | rfl | exact absurd same (by decide)
      | number => exact absurd same.symm (listing_number_ne otherListable (isSome_bool value))
      | string =>
          have initials := initial_eq (isSome_bool value) rfl same
          cases value <;> simp [initial] at initials
  | string value =>
      cases other with
      | null => exact absurd (initial_eq rfl rfl same) (by simp [initial])
      | bool other =>
          have initials := initial_eq rfl (isSome_bool other) same
          cases other <;> simp [initial] at initials
      | number => exact absurd same.symm (listing_number_ne otherListable rfl)
      | string other =>
          have texts := congrArg String.toList same
          simp only [Constant.listing, String.toList_append] at texts
          exact congrArg _ (String.toList_injective
            (List.append_cancel_left (List.append_cancel_right texts)))

/-- A word is the listing of no constant. -/
theorem Listable.ne_word (listable : Listable value) (isLexeme : Lexeme kind lexeme)
    (isWord : kind ∉ otherKinds) : value.listing.toList ≠ lexeme := by
  rintro rfl
  simp only [otherKinds, List.mem_cons, List.not_mem_nil, or_false, not_or] at isWord
  rcases isLexeme.begins isWord.1 isWord.2.1 with ⟨first, more, begins, noDigit, noQuote, alone⟩
  have keyword {word : String} {other : Token.Kind} (listed : (word, other) ∈ Token.Kind.keywords)
      (text : value.listing = word) : kind = other := by
    rw [text] at isLexeme
    exact Segment.kind_unique isLexeme (.keyword listed)
  cases value with
  | null => exact isWord.2.2.1 (keyword (by decide) rfl)
  | bool value =>
      cases value with
      | true => exact isWord.2.2.2.1 (keyword (by decide) rfl)
      | false => exact isWord.2.2.2.2.1 (keyword (by decide) rfl)
  | number value =>
      rcases listing_number listable with ⟨_, _, text, isDigit | ⟨isMinus, goesOn⟩⟩
      · cases begins.symm.trans text
        simp [noDigit] at isDigit
      · cases begins.symm.trans text
        exact goesOn (alone isMinus)
  | string value =>
      have isQuote : (Constant.string value).listing.toList.head? = some '"' := head?_listing rfl
      rw [begins] at isQuote
      exact noQuote (Option.some.inj isQuote)

end Atoms

/-- That a text can begin with a form in no other way. -/
def Unique (form : Form) : Prop :=
  ∀ {other : Form} {rest later : List Char}, other.Lawful → Stops rest → Stops later →
    form.text ++ rest = other.text ++ later → form = other ∧ rest = later

section Unique

variable {form : Form} {forms others : List Form} {label rest later : List Char}

/-- A form with parts is not taken for one without. -/
theorem Shape.ne_node {text : List Char} (shape : Shape text) (stops : Stops rest)
    (labelPlain : ∀ character ∈ label, isPlain character = true) :
    text ++ rest ≠ label ++ '(' :: later := by
  intro same
  cases shape with
  | plain notEmpty allPlain =>
      obtain ⟨-, rfl⟩ := eq_of_append_eq_append allPlain stops.noPlain labelPlain
        (by simp [isPlain]) same
      exact absurd (stops '(' rfl) (by decide)
  | quoted closed =>
      cases label with
      | nil => simp at same
      | cons first label =>
          obtain rfl : '"' = first := (List.cons.inj same).1
          exact absurd (labelPlain '"' (by simp)) (by decide)

theorem stops_tail (forms : List Form) (rest : List Char) : Stops (tail forms ++ rest) := by
  cases forms <;> simp [tail, Stops]

theorem tail_unique (unique : ∀ form ∈ forms, form.Unique)
    (lawful : ∀ other ∈ others, other.Lawful)
    (same : tail forms ++ rest = tail others ++ later) : forms = others ∧ rest = later := by
  induction forms generalizing others with
  | nil =>
      cases others with
      | nil => exact ⟨rfl, (List.cons.inj same).2⟩
      | cons => simp [tail] at same
  | cons form forms ih =>
      cases others with
      | nil => simp [tail] at same
      | cons other others =>
          rw [List.forall_mem_cons] at unique lawful
          have texts : form.text ++ (tail forms ++ rest) =
              other.text ++ (tail others ++ later) := by
            simpa [tail] using same
          rcases unique.1 lawful.1 (stops_tail _ _) (stops_tail _ _) texts with ⟨rfl, tails⟩
          rcases ih unique.2 lawful.2 tails with ⟨rfl, rests⟩
          exact ⟨rfl, rests⟩

theorem ne_closing_of_plain {text : List Char} (notEmpty : text ≠ [])
    (allPlain : ∀ character ∈ text, isPlain character = true) : text ++ rest ≠ ')' :: later := by
  rcases List.exists_cons_of_ne_nil notEmpty with ⟨first, more, rfl⟩
  intro same
  obtain rfl : first = ')' := (List.cons.inj same).1
  exact absurd (allPlain ')' (by simp)) (by decide)

theorem Shape.ne_closing {text : List Char} (shape : Shape text) : text ++ rest ≠ ')' :: later := by
  cases shape with
  | plain notEmpty allPlain => exact ne_closing_of_plain notEmpty allPlain
  | quoted => simp

theorem Lawful.ne_closing (lawful : form.Lawful) : form.text ++ rest ≠ ')' :: later := by
  cases lawful with
  | constant listable => exact (shape_constant listable).ne_closing
  | word isLexeme isWord => exact (shape_word isLexeme isWord).ne_closing
  | @node label parts labelPlain _ =>
      rw [text, List.append_assoc]
      cases label with
      | nil => simp
      | cons => exact ne_closing_of_plain (by simp) labelPlain

theorem inner_unique (unique : ∀ form ∈ forms, form.Unique)
    (lawful : ∀ form ∈ forms, form.Lawful) (otherLawful : ∀ other ∈ others, other.Lawful)
    (same : inner forms ++ rest = inner others ++ later) : forms = others ∧ rest = later := by
  cases forms with
  | nil =>
      cases others with
      | nil => exact ⟨rfl, (List.cons.inj same).2⟩
      | cons other others =>
          rw [List.forall_mem_cons] at otherLawful
          rw [inner, inner, List.append_assoc] at same
          exact absurd same.symm otherLawful.1.ne_closing
  | cons form forms =>
      rw [List.forall_mem_cons] at unique lawful
      cases others with
      | nil =>
          rw [inner, inner, List.append_assoc] at same
          exact absurd same lawful.1.ne_closing
      | cons other others =>
          rw [List.forall_mem_cons] at otherLawful
          rw [inner, inner, List.append_assoc, List.append_assoc] at same
          rcases unique.1 otherLawful.1 (stops_tail _ _) (stops_tail _ _) same with ⟨rfl, tails⟩
          rcases tail_unique unique.2 otherLawful.2 tails with ⟨rfl, rests⟩
          exact ⟨rfl, rests⟩

theorem unique_constant {value : Constant} (listable : Listable value) :
    (constant value).Unique := by
  intro other rest later otherLawful stops otherStops same
  have shape := shape_constant listable
  cases otherLawful with
  | constant otherListable =>
      rcases shape.unique (shape_constant otherListable) stops otherStops same with ⟨texts, rests⟩
      exact ⟨congrArg _ (listable.injective otherListable (String.toList_injective texts)), rests⟩
  | word isLexeme isWord =>
      rcases shape.unique (shape_word isLexeme isWord) stops otherStops same with ⟨texts, _⟩
      exact absurd texts (listable.ne_word isLexeme isWord)
  | node labelPlain _ =>
      rw [text, text, List.append_assoc] at same
      exact absurd same (shape.ne_node stops labelPlain)

theorem unique_word {kind : Token.Kind} {lexeme : List Char} (isLexeme : Lexeme kind lexeme)
    (isWord : kind ∉ otherKinds) : (word lexeme).Unique := by
  intro other rest later otherLawful stops otherStops same
  have shape := shape_word isLexeme isWord
  cases otherLawful with
  | constant listable =>
      rcases shape.unique (shape_constant listable) stops otherStops same with ⟨texts, _⟩
      exact absurd texts.symm (listable.ne_word isLexeme isWord)
  | word otherIsLexeme otherIsWord =>
      rcases shape.unique (shape_word otherIsLexeme otherIsWord) stops otherStops same with
        ⟨texts, rests⟩
      exact ⟨congrArg _ texts, rests⟩
  | node labelPlain _ =>
      rw [text, text, List.append_assoc] at same
      exact absurd same (shape.ne_node stops labelPlain)

theorem unique_node (labelPlain : ∀ character ∈ label, isPlain character = true)
    (partsLawful : ∀ part ∈ forms, part.Lawful) (unique : ∀ part ∈ forms, part.Unique) :
    (node label forms).Unique := by
  intro other rest later otherLawful stops otherStops same
  rw [text, List.append_assoc] at same
  cases otherLawful with
  | constant listable =>
      exact absurd same.symm ((shape_constant listable).ne_node otherStops labelPlain)
  | word isLexeme isWord =>
      exact absurd same.symm ((shape_word isLexeme isWord).ne_node otherStops labelPlain)
  | node otherPlain otherPartsLawful =>
      rw [text, List.append_assoc] at same
      obtain ⟨rfl, inners⟩ := eq_of_append_eq_append labelPlain (by simp [isPlain]) otherPlain
        (by simp [isPlain]) same
      rcases inner_unique unique partsLawful otherPartsLawful (List.cons.inj inners).2 with
        ⟨rfl, rests⟩
      exact ⟨rfl, rests⟩

/-- Forms are told apart, and from what follows them, by their texts. -/
theorem Lawful.unique (lawful : form.Lawful) : form.Unique := by
  induction lawful with
  | constant listable => exact unique_constant listable
  | word isLexeme isWord => exact unique_word isLexeme isWord
  | node labelPlain partsLawful ih => exact unique_node labelPlain partsLawful ih

theorem Lawful.text_ne_nil (lawful : form.Lawful) : form.text ≠ [] := by
  have shape_ne_nil {text : List Char} (shape : Shape text) : text ≠ [] := by
    cases shape with
    | plain notEmpty => exact notEmpty
    | quoted => simp
  cases lawful with
  | constant listable => exact shape_ne_nil (shape_constant listable)
  | word isLexeme isWord => exact shape_ne_nil (shape_word isLexeme isWord)
  | node => simp [text]

theorem lines_unique (lawful : ∀ form ∈ forms, form.Lawful)
    (otherLawful : ∀ other ∈ others, other.Lawful)
    (same : forms.flatMap (fun form => '\n' :: form.text) =
      others.flatMap fun other => '\n' :: other.text) : forms = others := by
  have stops (forms : List Form) : Stops (forms.flatMap fun form => '\n' :: form.text) := by
    cases forms <;> simp [Stops]
  induction forms generalizing others with
  | nil =>
      cases others with
      | nil => rfl
      | cons => simp at same
  | cons form forms ih =>
      cases others with
      | nil => simp at same
      | cons other others =>
          rw [List.forall_mem_cons] at lawful otherLawful
          rw [List.flatMap_cons, List.flatMap_cons] at same
          rcases lawful.1.unique otherLawful.1 (stops _) (stops _) (List.cons.inj same).2 with
            ⟨rfl, rests⟩
          rw [ih lawful.2 otherLawful.2 rests]

end Unique

/-- Items with a separator between each two of them. -/
theorem intercalate_cons {α : Type} (separator : α) (first : List α) (rest : List (List α)) :
    [separator].intercalate (first :: rest) = first ++ rest.flatMap (separator :: ·) := by
  induction rest generalizing first with
  | nil => simp
  | cons second rest ih => rw [List.intercalate_cons_cons, ih]; simp

/-- Forms on lines of their own are told apart by the text that they make up. -/
theorem eq_of_lines {forms others : List Form} (lawful : ∀ form ∈ forms, form.Lawful)
    (otherLawful : ∀ other ∈ others, other.Lawful)
    (same : ['\n'].intercalate (forms.map text) = ['\n'].intercalate (others.map text)) :
    forms = others := by
  -- Both texts with a newline in front are lines.
  have begun {forms : List Form} (lawful : ∀ form ∈ forms, form.Lawful) :
      forms.flatMap (fun form => '\n' :: form.text) =
        if ['\n'].intercalate (forms.map text) = [] then []
        else '\n' :: ['\n'].intercalate (forms.map text) := by
    cases forms with
    | nil => rfl
    | cons form forms =>
        have notEmpty := (lawful form (by simp)).text_ne_nil
        rw [List.map_cons, intercalate_cons, if_neg (by simp [notEmpty]), List.flatMap_map]
        rfl
  exact lines_unique lawful otherLawful (by rw [begun lawful, begun otherLawful, same])

/-- The text between the parentheses of a form is that of its parts with spaces between them. -/
theorem inner_eq (forms : List Form) :
    inner forms = [' '].intercalate (forms.map text) ++ [')'] := by
  have tail_eq (forms : List Form) :
      tail forms = (forms.map text).flatMap (' ' :: ·) ++ [')'] := by
    induction forms with
    | nil => rfl
    | cons form forms ih => simp [tail, ih]
  cases forms with
  | nil => rfl
  | cons form forms => rw [inner, List.map_cons, intercalate_cons, tail_eq, List.append_assoc]

end Form

end Scriptlet
