import Scriptlet.Proofs.ListingForms
import Scriptlet.Proofs.Roles
import Scriptlet.Proofs.ScanLines
import Scriptlet.Proofs.Soundness.Program

/-!
# Reading a listing back

A listing keeps everything of a tree but the lines of its tokens: the tree, with these forgotten,
can be read off the forms that it is listed as (`Expr.ReadsBack`, `Stmt.ReadsBack`). This is shown
for what the phrases of the grammar stand for, as their tokens are spelled in the only way that
their kinds allow or are listed themselves. So two programs with the same listing differ in the
lines of their tokens at most (`listing_unambiguous`).
-/

namespace Scriptlet

def Constant.isFinite : Constant → Bool
  | .number value => Number.isFinite value
  | _ => true

/-- The same token, without its line. -/
def Token.unplaced (token : Token) : Token :=
  { token with line := 0 }

section Forms

open Form

mutual

/-- The form that an expression is listed as. -/
def Expr.form : Expr → Form
  | .literal value => constant value
  | .grouping operand => node [] [word "group".toList, operand.form]
  | .unary operator operand => node [] [word operator.lexeme.toList, operand.form]
  | .binary left operator right => node [] [word operator.lexeme.toList, left.form, right.form]
  | .logical left operator right => node [] [word operator.lexeme.toList, left.form, right.form]
  | .read name => word name.lexeme.toList
  | .assign name value => node [] [word "=".toList, word name.lexeme.toList, value.form]
  | .call callee _ arguments => node [] (word "call".toList :: callee.form :: Expr.forms arguments)

def Expr.forms : List Expr → List Form
  | [] => []
  | first :: rest => first.form :: Expr.forms rest

end

mutual

/-- The form that a statement is listed as. -/
def Stmt.form : Stmt → Form
  | .expression value => node [] [word ";".toList, value.form]
  | .print value => node [] [word "print".toList, value.form]
  | .declare name none => node [] [word "var".toList, word name.lexeme.toList]
  | .declare name (some value) =>
    node [] [word "var".toList, word name.lexeme.toList, word "=".toList, value.form]
  | .block body => node [] (word "block".toList :: Stmt.forms body)
  | .ifThen condition thenBranch =>
    node [] [word "if".toList, condition.form, thenBranch.form]
  | .ifElse condition thenBranch elseBranch =>
    node [] [word "if".toList, condition.form, thenBranch.form, elseBranch.form]
  | .whileDo condition body => node [] [word "while".toList, condition.form, body.form]
  | .function name parameters body =>
    node [] (word "fun".toList ::
      node name.lexeme.toList (parameters.map fun parameter => word parameter.lexeme.toList) ::
      Stmt.forms body)
  | .ret _ none => node [] [word "return".toList]
  | .ret _ (some value) => node [] [word "return".toList, value.form]

def Stmt.forms : List Stmt → List Form
  | [] => []
  | first :: rest => first.form :: Stmt.forms rest

end

theorem toList_listingForm {strings : List String} {forms : List Form}
    (same : strings.map String.toList = forms.map text) :
    (listingForm strings).toList = (node [] forms).text := by
  rw [text, inner_eq, ← same, listingForm]
  simp

mutual

theorem Expr.toList_listing (expr : Expr) : expr.listing.toList = expr.form.text := by
  cases expr with
  | literal value => rfl
  | read name => rfl
  | grouping inner => exact toList_listingForm (by simp [inner.toList_listing, text])
  | unary operator operand => exact toList_listingForm (by simp [operand.toList_listing, text])
  | binary left operator right | logical left operator right =>
      exact toList_listingForm (by simp [left.toList_listing, right.toList_listing, text])
  | assign name value => exact toList_listingForm (by simp [value.toList_listing, text])
  | call callee paren arguments =>
      refine toList_listingForm ?_
      simp [callee.toList_listing, Expr.toList_listings arguments, text]

theorem Expr.toList_listings (exprs : List Expr) :
    (Expr.listings exprs).map String.toList = (Expr.forms exprs).map text := by
  cases exprs with
  | nil => rfl
  | cons first rest =>
      rw [listings, forms, List.map_cons, List.map_cons, first.toList_listing,
        Expr.toList_listings rest]

end

mutual

theorem Stmt.toList_listing (statement : Stmt) :
    statement.listing.toList = statement.form.text := by
  cases statement with
  | expression value | print value =>
      exact toList_listingForm (by simp [value.toList_listing, text])
  | declare name initializer =>
      cases initializer with
      | none => exact toList_listingForm (by simp [text])
      | some value => exact toList_listingForm (by simp [value.toList_listing, text])
  | block body => exact toList_listingForm (by simp [Stmt.toList_listings body, text])
  | ifThen condition thenBranch =>
      exact toList_listingForm (by simp [condition.toList_listing, thenBranch.toList_listing, text])
  | ifElse condition thenBranch elseBranch =>
      refine toList_listingForm ?_
      simp [condition.toList_listing, thenBranch.toList_listing, elseBranch.toList_listing, text]
  | whileDo condition body =>
      exact toList_listingForm (by simp [condition.toList_listing, body.toList_listing, text])
  | function name parameters body =>
      -- The parameters form a node of their own, which the name is the label of.
      have signature : (listingForm (parameters.map Token.lexeme)).toList =
          (node [] (parameters.map fun parameter => word parameter.lexeme.toList)).text :=
        toList_listingForm (by simp [text])
      refine toList_listingForm ?_
      simp only [List.map_cons, String.toList_append, signature, Stmt.toList_listings body, text,
        List.nil_append]
  | ret keyword value =>
      cases value with
      | none => exact toList_listingForm (by simp [text])
      | some value => exact toList_listingForm (by simp [value.toList_listing, text])

theorem Stmt.toList_listings (statements : List Stmt) :
    (Stmt.listings statements).map String.toList = (Stmt.forms statements).map text := by
  cases statements with
  | nil => rfl
  | cons first rest =>
      rw [listings, forms, List.map_cons, List.map_cons, first.toList_listing,
        Stmt.toList_listings rest]

end

theorem toList_listing (statements : List Stmt) :
    (listing statements).toList = ['\n'].intercalate ((Stmt.forms statements).map text) := by
  rw [← Stmt.toList_listings, listing]
  simp

end Forms

/-- The token that a lexeme by itself is read as, without a line. -/
def Token.ofLexeme (lexeme : List Char) : Token :=
  ((Segment.cut lexeme).findSome? (Segment.token? 0)).getD (.endOfText 0)

/-- Names, numbers and strings aside, the tokens of a kind have one lexeme. -/
theorem Lexeme.eq_of_kind {kind : Token.Kind} {lexeme other : List Char}
    (isLexeme : Lexeme kind lexeme) (isOther : Lexeme kind other)
    (isFixed : kind ∉ [.identifier, .number, .string]) : lexeme = other := by
  have oneSign : ∀ entry ∈ Token.Kind.signs, ∀ other ∈ Token.Kind.signs,
      entry.2 = other.2 → entry.1 = other.1 := by decide
  have oneWord : ∀ entry ∈ Token.Kind.keywords, ∀ other ∈ Token.Kind.keywords,
      entry.2 = other.2 → entry.1 = other.1 := by decide
  have apart : ∀ entry ∈ Token.Kind.signs, ∀ other ∈ Token.Kind.keywords,
      entry.2 ≠ other.2 := by decide
  cases isLexeme with
  | sign listed =>
      cases isOther with
      | sign listed' => exact oneSign _ listed _ listed' rfl
      | keyword listed' => exact absurd rfl (apart _ listed _ listed')
      | _ => simp at isFixed
  | keyword listed =>
      cases isOther with
      | sign listed' => exact absurd rfl (apart _ listed' _ listed)
      | keyword listed' => exact congrArg String.toList (oneWord _ listed _ listed' rfl)
      | _ => simp at isFixed
  | _ => simp at isFixed

theorem Lexeme.listable {kind : Token.Kind} {lexeme : List Char} (isLexeme : Lexeme kind lexeme)
    (isFinite : (Segment.literal kind lexeme).isFinite = true) :
    Form.Listable (Segment.literal kind lexeme) := by
  by_cases isString : kind = .string
  · subst isString
    cases isLexeme with
    | sign listed =>
        have noString : ∀ entry ∈ Token.Kind.signs, entry.2 ≠ .string := by decide
        exact absurd rfl (noString _ listed)
    | keyword listed =>
        have noString : ∀ entry ∈ Token.Kind.keywords, entry.2 ≠ .string := by decide
        exact absurd rfl (noString _ listed)
    | string closed => simpa [Segment.literal, Form.Listable] using closed
  · unfold Segment.literal at isFinite ⊢
    split at isFinite
    · exact isFinite
    · contradiction
    · trivial

/-- That a token is what its lexeme is read as, and finite if it is a number. -/
structure Token.Legible (token : Token) : Prop where
  isLexeme : Lexeme token.kind token.lexeme.toList
  literal_eq : token.literal = Segment.literal token.kind token.lexeme.toList
  isFinite : token.literal.isFinite = true

namespace Token.Legible

variable {token : Token}

theorem ofLexeme_eq (legible : token.Legible) :
    Token.ofLexeme token.lexeme.toList = token.unplaced := by
  have cutting : Segment.Cutting (token.lexeme.toList ++ [])
      [.token token.kind token.lexeme.toList] :=
    Segment.Cutting.nil.cons (.recognised (.token legible.isLexeme)) Lexeme.Ends.nil
  rw [List.append_nil] at cutting
  simp [Token.ofLexeme, ← cutting.eq_cut, Segment.token?, Token.unplaced, legible.literal_eq]

/-- A token that is spelled in one way is read off this spelling. -/
theorem ofLexeme_eq_of_kind (legible : token.Legible) {lexeme : List Char}
    (isLexeme : Lexeme token.kind lexeme) (isFixed : token.kind ∉ [.identifier, .number, .string]) :
    Token.ofLexeme lexeme = token.unplaced := by
  rw [isLexeme.eq_of_kind legible.isLexeme isFixed, legible.ofLexeme_eq]

theorem listable (legible : token.Legible) : Form.Listable token.literal := by
  have isFinite := legible.isFinite
  rw [legible.literal_eq] at isFinite ⊢
  exact legible.isLexeme.listable isFinite

end Token.Legible

namespace Expr

/-- The expression that a form with the given head stands for. -/
def ofOperands (head : List Char) (operands : List Expr) : Expr :=
  let operator := Token.ofLexeme head
  let first := operands.headD default
  let second := operands.getD 1 default
  if head = "call".toList then .call first (.ofLexeme [')']) operands.tail
  else if head = "group".toList then .grouping first
  else if head = "=".toList then ExprPhrase.assigned first second
  else if operands.length = 1 then .unary operator first
  else if operator.kind ∈ Token.Role.logical.kinds then .logical first operator second
  else .binary first operator second

end Expr

namespace Form

def label : Form → List Char
  | constant _ => []
  | word lexeme => lexeme
  | node label _ => label

def parts : Form → List Form
  | node _ parts => parts
  | _ => []

mutual

/-- The expression that a form is the form of. -/
def expr : Form → Expr
  | constant value => .literal value
  | word lexeme => .read (.ofLexeme lexeme)
  | node _ parts => .ofOperands ((parts.map label).headD []) (exprs parts).tail

def exprs : List Form → List Expr
  | [] => []
  | first :: rest => first.expr :: exprs rest

end

end Form

/-- The statement that a form with the given parts stands for. -/
def Stmt.ofParts (parts : List Form) (statements : List Stmt) : Stmt :=
  let head := (parts.map Form.label).headD []
  let name := Token.ofLexeme ((parts.map Form.label).getD 1 [])
  let values := Form.exprs parts
  let value := values.getD 1 default
  let branch := statements.getD 2 default
  if head = ";".toList then .expression value
  else if head = "print".toList then .print value
  else if head = "var".toList then .declare name values[3]?
  else if head = "block".toList then .block statements.tail
  else if head = "if".toList then
    if parts.length = 3 then .ifThen value branch
    else .ifElse value branch (statements.getD 3 default)
  else if head = "while".toList then .whileDo value branch
  else if head = "fun".toList then
    let parameters := (parts.getD 1 (.word [])).parts
    .function name (parameters.map fun parameter => .ofLexeme parameter.label) (statements.drop 2)
  else .ret (.ofLexeme head) values[1]?

mutual

/-- The statement that a form is the form of. -/
def Form.stmt : Form → Stmt
  | .node _ parts => .ofParts parts (Form.stmts parts)
  | _ => .block []

def Form.stmts : List Form → List Stmt
  | [] => []
  | first :: rest => first.stmt :: Form.stmts rest

end

namespace Form

theorem lawful_head (head : String)
    (known : head ∈ ["group", "call", "=", ";", "print", "var", "block", "if", "while", "fun",
      "return"]) : (word head.toList).Lawful := by
  have ofWord {head : List Char} (isWord : Segment.isWord head = true)
      (noConstant : Token.Kind.ofWord (String.ofList head) ∉ otherKinds) : (word head).Lawful :=
    .word (.ofWord isWord) noConstant
  simp only [List.mem_cons, List.not_mem_nil, or_false] at known
  rcases known with rfl | rfl | rfl | rfl | rfl | rfl | rfl | rfl | rfl | rfl | rfl
  case inr.inr.inl => exact @Lawful.word .equal _ (.sign (by decide)) (by decide)
  case inr.inr.inr.inl => exact @Lawful.word .semicolon _ (.sign (by decide)) (by decide)
  all_goals exact ofWord (by decide) (by decide)

theorem Lawful.headed {head : Form} {parts : List Form} (headLawful : head.Lawful)
    (partsLawful : ∀ part ∈ parts, part.Lawful) : (Form.node [] (head :: parts)).Lawful :=
  .node (by simp) (List.forall_mem_cons.2 ⟨headLawful, partsLawful⟩)

end Form

/-- That an expression can be read off its form, but for the lines of its tokens. -/
structure Expr.ReadsBack (expr : Expr) : Prop where
  lawful : expr.form.Lawful
  reads : expr.form.expr = expr.mapTokens Token.unplaced

theorem Expr.lawful_forms {exprs : List Expr} (readBack : ∀ expr ∈ exprs, expr.ReadsBack) :
    ∀ part ∈ Expr.forms exprs, part.Lawful := by
  induction exprs with
  | nil => simp [forms]
  | cons first rest ih =>
      rw [List.forall_mem_cons] at readBack
      exact List.forall_mem_cons.2 ⟨readBack.1.lawful, ih readBack.2⟩

theorem Expr.exprs_forms {exprs : List Expr} (readBack : ∀ expr ∈ exprs, expr.ReadsBack) :
    Form.exprs (Expr.forms exprs) = Expr.mapAllTokens Token.unplaced exprs := by
  induction exprs with
  | nil => rfl
  | cons first rest ih =>
      rw [List.forall_mem_cons] at readBack
      rw [forms, Form.exprs, mapAllTokens, readBack.1.reads, ih readBack.2]

/-- An operator is no head of another form. -/
theorem Expr.ofOperands_of_operator {operator : Token} (legible : operator.Legible)
    (isOperator : operator.kind ∉ [.identifier, .equal]) (operands : List Expr) :
    Expr.ofOperands operator.lexeme.toList operands =
      if operands.length = 1 then .unary operator.unplaced (operands.headD default)
      else if operator.kind ∈ Token.Role.logical.kinds then
        .logical (operands.headD default) operator.unplaced (operands.getD 1 default)
      else .binary (operands.headD default) operator.unplaced (operands.getD 1 default) := by
  have noHead {kind : Token.Kind} (isOther : kind ∈ [.identifier, .equal]) {head : List Char}
      (isLexeme : Lexeme kind head) : operator.lexeme.toList ≠ head := by
    intro same
    have sameKind := Segment.kind_unique (same ▸ legible.isLexeme) isLexeme
    exact isOperator (sameKind ▸ isOther)
  have noCall : operator.lexeme.toList ≠ "call".toList :=
    noHead (by decide) (Lexeme.ofWord (by decide))
  have noGroup : operator.lexeme.toList ≠ "group".toList :=
    noHead (by decide) (Lexeme.ofWord (by decide))
  have noEquals : operator.lexeme.toList ≠ "=".toList :=
    @noHead .equal (by decide) _ (.sign (by decide))
  simp only [Expr.ofOperands, if_neg noCall, if_neg noGroup, if_neg noEquals, legible.ofLexeme_eq]
  rfl

namespace Expr.ReadsBack

variable {left right : Expr} {operator : Token}

theorem literal {value : Constant} (listable : Form.Listable value) :
    (Expr.literal value).ReadsBack :=
  ⟨.constant listable, rfl⟩

theorem read {name : Token} (legible : name.Legible) (isName : name.kind = .identifier) :
    (Expr.read name).ReadsBack where
  lawful := .word legible.isLexeme (by rw [isName]; decide)
  reads := congrArg Expr.read legible.ofLexeme_eq

theorem grouping {inner : Expr} (readsBack : inner.ReadsBack) :
    (Expr.grouping inner).ReadsBack where
  lawful := .headed (Form.lawful_head "group" (by decide)) (by simpa using readsBack.lawful)
  reads := congrArg Expr.grouping readsBack.reads

theorem unary {operand : Expr} (legible : operator.Legible)
    (isOperator : operator.kind ∈ [.bang, .minus]) (readsBack : operand.ReadsBack) :
    (Expr.unary operator operand).ReadsBack := by
  have noOther : operator.kind ∉ Form.otherKinds ∧ operator.kind ∉ [.identifier, .equal] := by
    revert isOperator
    generalize operator.kind = kind
    revert kind
    decide
  constructor
  · exact .headed (.word legible.isLexeme noOther.1) (by simpa using readsBack.lawful)
  · refine (ofOperands_of_operator legible noOther.2 [operand.form.expr]).trans ?_
    rw [mapTokens, ← readsBack.reads]
    rfl

/-- The head of an operation in parentheses tells which node it is. -/
theorem node_eq {level : ExprPhrase.Level} (isLevel : level ∈ ExprPhrase.levels)
    (isOperator : operator.kind ∈ level.operators) :
    level.node = if operator.kind ∈ Token.Role.logical.kinds then .logical else .binary := by
  have isLazy_iff : ∀ level ∈ ExprPhrase.levels, ∀ kind ∈ level.operators,
      level.isLazy = true ↔ kind ∈ Token.Role.logical.kinds := by
    decide
  unfold ExprPhrase.Level.node
  simp only [isLazy_iff level isLevel _ isOperator]

theorem node {level : ExprPhrase.Level} (isLevel : level ∈ ExprPhrase.levels)
    (leftReads : left.ReadsBack) (legible : operator.Legible)
    (isOperator : operator.kind ∈ level.operators) (rightReads : right.ReadsBack) :
    (level.node left operator right).ReadsBack := by
  have noOther : operator.kind ∉ Form.otherKinds ∧ operator.kind ∉ [.identifier, .equal] := by
    have noOthers : ∀ level ∈ ExprPhrase.levels, ∀ kind ∈ level.operators,
        kind ∉ Form.otherKinds ∧ kind ∉ [.identifier, .equal] := by
      decide
    exact noOthers level isLevel _ isOperator
  have lawful : (Form.node [] [.word operator.lexeme.toList, left.form, right.form]).Lawful :=
    .headed (.word legible.isLexeme noOther.1) (by simp [leftReads.lawful, rightReads.lawful])
  have reads := ofOperands_of_operator legible noOther.2 [left.form.expr, right.form.expr]
  rw [if_neg (by simp)] at reads
  rw [node_eq isLevel isOperator]
  split at reads
  case isTrue isLogical =>
      rw [if_pos isLogical]
      refine ⟨lawful, reads.trans ?_⟩
      rw [leftReads.reads, rightReads.reads]
      rfl
  case isFalse isBinary =>
      rw [if_neg isBinary]
      refine ⟨lawful, reads.trans ?_⟩
      rw [leftReads.reads, rightReads.reads]
      rfl

theorem assigned {target value : Expr} (targetReads : target.ReadsBack)
    (valueReads : value.ReadsBack) : (ExprPhrase.assigned target value).ReadsBack := by
  cases target with
  | read name =>
      constructor
      · refine .headed (Form.lawful_head "=" (by decide)) ?_
        exact List.forall_mem_cons.2 ⟨targetReads.lawful, by simpa using valueReads.lawful⟩
      · have nameReads := Expr.read.inj targetReads.reads
        rw [ExprPhrase.assigned, Expr.mapTokens, ← nameReads, ← valueReads.reads]
        rfl
  | _ => exact targetReads

theorem call {callee : Expr} {paren : Token} {arguments : List Expr}
    (calleeReads : callee.ReadsBack) (legible : paren.Legible) (closes : paren.kind = .rightParen)
    (argumentsRead : ∀ argument ∈ arguments, argument.ReadsBack) :
    (Expr.call callee paren arguments).ReadsBack := by
  have parenReads : Token.ofLexeme [')'] = paren.unplaced :=
    legible.ofLexeme_eq_of_kind (by rw [closes]; exact .sign (by decide)) (by rw [closes]; decide)
  constructor
  · refine .headed (Form.lawful_head "call" (by decide)) ?_
    exact List.forall_mem_cons.2 ⟨calleeReads.lawful, Expr.lawful_forms argumentsRead⟩
  · rw [Expr.mapTokens, ← calleeReads.reads, ← parenReads, ← Expr.exprs_forms argumentsRead]
    rfl

end Expr.ReadsBack

namespace ExprPhrase

/-- That what a phrase stands for can be read off its form. -/
def ReadsBack : {symbol : Symbol} → ExprPhrase symbol → Prop
  | .operation tighter, phrase => tighter ⊆ levels → Expr.ReadsBack phrase.tree
  | .operations level tighter, phrase =>
    level :: tighter ⊆ levels →
      ∀ left : Expr, left.ReadsBack → Expr.ReadsBack (phrase.tree left)
  | .calls, phrase => ∀ callee : Expr, callee.ReadsBack → Expr.ReadsBack (phrase.tree callee)
  | .arguments, phrase | .argumentList _, phrase =>
    ∀ argument ∈ (phrase.tree : List Expr), argument.ReadsBack
  | .expression, phrase | .unary, phrase | .call, phrase | .primary, phrase =>
    Expr.ReadsBack phrase.tree

theorem readsBack_atomTree {token : Token} (legible : token.Legible) :
    (atomTree token).ReadsBack := by
  unfold atomTree
  split
  case h_4 isName => exact .read legible isName
  case h_5 => exact .literal legible.listable
  all_goals exact .literal trivial

theorem readsBack {symbol : Symbol} (phrase : ExprPhrase symbol)
    (legible : ∀ token ∈ phrase.tokens, token.Legible) : phrase.ReadsBack := by
  induction phrase with
  | plain value ih => exact ih legible (List.Subset.refl _)
  | assignment target equals value ihTarget ihValue =>
      simp only [tokens, List.forall_mem_append, List.forall_mem_cons] at legible
      exact .assigned (ihTarget legible.1 (List.Subset.refl _)) (ihValue legible.2.2)
  | operation first more ihFirst ihMore =>
      rw [tokens, List.forall_mem_append] at legible
      intro within
      exact ihMore legible.2 within _ (ihFirst legible.1 (List.cons_subset.1 within).2)
  | tightest value ih => exact fun _ => ih legible
  | noOperation => exact fun _ left leftReads => leftReads
  | nextOperation operator right more ihRight ihMore =>
      simp only [tokens, List.forall_mem_append, List.forall_mem_cons] at legible
      intro within left leftReads
      rcases List.cons_subset.1 within with ⟨isLevel, tighterWithin⟩
      exact ihMore legible.2.2 within _
        (.node isLevel leftReads legible.1 operator.kind_mem (ihRight legible.2.1 tighterWithin))
  | unaryOperation operator operand ih =>
      rw [tokens, List.forall_mem_cons] at legible
      exact .unary legible.1 operator.kind_mem (ih legible.2)
  | unaryCall value ih => exact ih legible
  | call callee more ihCallee ihMore =>
      rw [tokens, List.forall_mem_append] at legible
      exact ihMore legible.2 _ (ihCallee legible.1)
  | noCall => exact fun callee calleeReads => calleeReads
  | nextCall opening arguments closing more ihArguments ihMore =>
      simp only [tokens, List.forall_mem_append, List.forall_mem_cons] at legible
      intro callee calleeReads
      exact ihMore legible.2.2.2 _
        (.call calleeReads legible.2.2.1 closing.kind_eq (ihArguments legible.2.1))
  | noArguments => exact List.forall_mem_nil _
  | someArguments list ih => exact ih legible
  | lastArgument value ih => exact List.forall_mem_singleton.2 (ih legible)
  | nextArgument value comma list ihValue ihList =>
      simp only [tokens, List.forall_mem_append, List.forall_mem_cons] at legible
      exact List.forall_mem_cons.2 ⟨ihValue legible.1, ihList legible.2.2⟩
  | atom token => exact readsBack_atomTree (legible _ (by simp))
  | parenthesised opening inner closing ih =>
      simp only [tokens, List.forall_mem_append, List.forall_mem_cons] at legible
      exact .grouping (ih legible.2.1)

end ExprPhrase

/-- The same for the expression that a phrase stands for, if there is one. -/
theorem OptionalPhrase.readsBack {phrase : OptionalPhrase}
    (legible : ∀ token ∈ phrase.tokens, token.Legible) :
    ∀ value ∈ phrase.tree, value.ReadsBack := by
  cases phrase with
  | none => simp [tree]
  | some value =>
      rintro _ ⟨⟩
      exact value.readsBack legible

structure Stmt.ReadsBack (statement : Stmt) : Prop where
  lawful : statement.form.Lawful
  reads : statement.form.stmt = statement.mapTokens Token.unplaced

theorem Stmt.lawful_forms {statements : List Stmt}
    (readBack : ∀ statement ∈ statements, statement.ReadsBack) :
    ∀ part ∈ Stmt.forms statements, part.Lawful := by
  induction statements with
  | nil => simp [forms]
  | cons first rest ih =>
      rw [List.forall_mem_cons] at readBack
      exact List.forall_mem_cons.2 ⟨readBack.1.lawful, ih readBack.2⟩

theorem Stmt.stmts_forms {statements : List Stmt}
    (readBack : ∀ statement ∈ statements, statement.ReadsBack) :
    Form.stmts (Stmt.forms statements) = Stmt.mapAllTokens Token.unplaced statements := by
  induction statements with
  | nil => rfl
  | cons first rest ih =>
      rw [List.forall_mem_cons] at readBack
      rw [forms, Form.stmts, mapAllTokens, readBack.1.reads, ih readBack.2]

namespace Stmt.ReadsBack

open Form (lawful_head)

variable {value condition : Expr} {body thenBranch elseBranch : Stmt}

theorem expression (valueReads : value.ReadsBack) : (Stmt.expression value).ReadsBack where
  lawful := .headed (lawful_head ";" (by decide)) (by simpa using valueReads.lawful)
  reads := congrArg Stmt.expression valueReads.reads

theorem print (valueReads : value.ReadsBack) : (Stmt.print value).ReadsBack where
  lawful := .headed (lawful_head "print" (by decide)) (by simpa using valueReads.lawful)
  reads := congrArg Stmt.print valueReads.reads

theorem declare {name : Token} {initializer : Option Expr} (legible : name.Legible)
    (isName : name.kind = .identifier) (valueReads : ∀ value ∈ initializer, value.ReadsBack) :
    (Stmt.declare name initializer).ReadsBack := by
  have nameReads := legible.ofLexeme_eq
  have nameLawful : (Form.word name.lexeme.toList).Lawful :=
    .word legible.isLexeme (by rw [isName]; decide)
  cases initializer with
  | none =>
      constructor
      · exact .headed (lawful_head "var" (by decide)) (by simpa using nameLawful)
      · rw [mapTokens, ← nameReads]
        rfl
  | some value =>
      have valueReads := valueReads value rfl
      constructor
      · refine .headed (lawful_head "var" (by decide)) ?_
        simpa using ⟨nameLawful, lawful_head "=" (by decide), valueReads.lawful⟩
      · rw [mapTokens, ← nameReads, Option.map_some, ← valueReads.reads]
        rfl

theorem block {statements : List Stmt} (readBack : ∀ statement ∈ statements, statement.ReadsBack) :
    (Stmt.block statements).ReadsBack where
  lawful := .headed (lawful_head "block" (by decide)) (lawful_forms readBack)
  reads := congrArg Stmt.block (stmts_forms readBack)

theorem ifThen (conditionReads : condition.ReadsBack) (thenReads : thenBranch.ReadsBack) :
    (Stmt.ifThen condition thenBranch).ReadsBack where
  lawful := .headed (lawful_head "if" (by decide))
    (by simpa using ⟨conditionReads.lawful, thenReads.lawful⟩)
  reads := congrArg₂ Stmt.ifThen conditionReads.reads thenReads.reads

theorem ifElse (conditionReads : condition.ReadsBack) (thenReads : thenBranch.ReadsBack)
    (elseReads : elseBranch.ReadsBack) :
    (Stmt.ifElse condition thenBranch elseBranch).ReadsBack where
  lawful := .headed (lawful_head "if" (by decide))
    (by simpa using ⟨conditionReads.lawful, thenReads.lawful, elseReads.lawful⟩)
  reads := by
    rw [mapTokens, ← conditionReads.reads, ← thenReads.reads, ← elseReads.reads]
    rfl

theorem whileDo (conditionReads : condition.ReadsBack) (bodyReads : body.ReadsBack) :
    (Stmt.whileDo condition body).ReadsBack where
  lawful := .headed (lawful_head "while" (by decide))
    (by simpa using ⟨conditionReads.lawful, bodyReads.lawful⟩)
  reads := congrArg₂ Stmt.whileDo conditionReads.reads bodyReads.reads

theorem forLoop {initializer : Option Stmt} {condition increment : Option Expr}
    (initializerReads : ∀ statement ∈ initializer, statement.ReadsBack)
    (conditionReads : ∀ value ∈ condition, value.ReadsBack)
    (incrementReads : ∀ value ∈ increment, value.ReadsBack) (bodyReads : body.ReadsBack) :
    (Stmt.forLoop initializer condition increment body).ReadsBack := by
  have testReads : (condition.getD (.literal (.bool true))).ReadsBack := by
    cases condition with
    | none => exact .literal trivial
    | some value => exact conditionReads value rfl
  have aroundReads {loop : Stmt} (loopReads : loop.ReadsBack) :
      ∀ first ∈ initializer, (Stmt.block [first, loop]).ReadsBack := fun first isFirst =>
    .block (by simpa using ⟨initializerReads first isFirst, loopReads⟩)
  cases increment with
  | none =>
      have loopReads := whileDo testReads bodyReads
      cases initializer with
      | none => exact loopReads
      | some first => exact aroundReads loopReads first rfl
  | some step =>
      have stepReads := expression (incrementReads step rfl)
      have roundReads : (Stmt.block [body, .expression step]).ReadsBack :=
        .block (by simpa using ⟨bodyReads, stepReads⟩)
      have loopReads := whileDo testReads roundReads
      cases initializer with
      | none => exact loopReads
      | some first => exact aroundReads loopReads first rfl

theorem function {name : Token} {parameters : List Token} {statements : List Stmt}
    (legible : ∀ token ∈ name :: parameters, token.Legible)
    (areNames : ∀ token ∈ name :: parameters, token.kind = .identifier)
    (readBack : ∀ statement ∈ statements, statement.ReadsBack) :
    (Stmt.function name parameters statements).ReadsBack := by
  have areWords : ∀ token ∈ name :: parameters, token.kind ∉ Form.otherKinds := by
    intro token member
    rw [areNames token member]
    decide
  rw [List.forall_mem_cons] at legible areWords
  have parametersRead : (parameters.map fun parameter => Form.word parameter.lexeme.toList).map
      (fun parameter => Token.ofLexeme parameter.label) = parameters.map Token.unplaced := by
    rw [List.map_map]
    exact List.map_congr_left fun parameter member => (legible.2 parameter member).ofLexeme_eq
  constructor
  · refine .headed (lawful_head "fun" (by decide)) ?_
    refine List.forall_mem_cons.2 ⟨.node ?_ ?_, lawful_forms readBack⟩
    · exact legible.1.isLexeme.isPlain areWords.1
    · exact List.forall_mem_map.2 fun parameter member =>
        .word (legible.2 parameter member).isLexeme (areWords.2 parameter member)
  · rw [mapTokens, ← legible.1.ofLexeme_eq, ← parametersRead, ← stmts_forms readBack]
    rfl

theorem ret {keyword : Token} {result : Option Expr} (legible : keyword.Legible)
    (returns : keyword.kind = .kwReturn) (valueReads : ∀ value ∈ result, value.ReadsBack) :
    (Stmt.ret keyword result).ReadsBack := by
  have keywordReads : Token.ofLexeme "return".toList = keyword.unplaced :=
    legible.ofLexeme_eq_of_kind (by rw [returns]; exact .keyword (by decide))
      (by rw [returns]; decide)
  have headLawful := lawful_head "return" (by decide)
  cases result with
  | none =>
      refine ⟨.headed headLawful (by simp), ?_⟩
      rw [mapTokens, ← keywordReads]
      rfl
  | some value =>
      have valueReads := valueReads value rfl
      refine ⟨.headed headLawful (by simpa using valueReads.lawful), ?_⟩
      rw [mapTokens, ← keywordReads, Option.map_some, ← valueReads.reads]
      rfl

end Stmt.ReadsBack

theorem VariablePhrase.readsBack {phrase : VariablePhrase}
    (legible : ∀ token ∈ phrase.tokens, token.Legible) : phrase.tree.ReadsBack := by
  have valueTokens : ∀ token ∈ phrase.value.tokens, token ∈ phrase.tokens := by
    rcases phrase with ⟨keyword, name, _ | ⟨equals, value⟩, semicolon⟩
    · simp [value, OptionalPhrase.tokens]
    · intro token member
      simp [tokens, tail, show token ∈ value.tokens from member]
  refine .declare (legible _ (by simp [tokens, tail])) phrase.name.kind_eq ?_
  exact OptionalPhrase.readsBack fun token member => legible token (valueTokens token member)

theorem ClausePhrase.readsBack {phrase : ClausePhrase}
    (legible : ∀ token ∈ phrase.tokens, token.Legible) :
    ∀ statement ∈ phrase.tree, statement.ReadsBack := by
  cases phrase with
  | absent => simp [tree]
  | declaration phrase =>
      rintro _ ⟨⟩
      exact VariablePhrase.readsBack legible
  | expression value semicolon =>
      rintro _ ⟨⟩
      rw [tokens, List.forall_mem_append] at legible
      exact .expression (value.readsBack legible.1)

theorem ParameterPhrase.mem_tokens_of_mem_names {phrase : ParameterPhrase} :
    ∀ token ∈ phrase.names, token ∈ phrase.tokens ∧ token.kind = .identifier := by
  induction phrase with
  | last name => simp [names, tokens, name.kind_eq]
  | next name comma rest ih => simp_all [names, tokens, name.kind_eq]

theorem HeadPhrase.mem_tokens_of_mem_parameters {phrase : HeadPhrase} :
    ∀ token ∈ phrase.name.token :: phrase.parameters,
      token ∈ phrase.tokens ∧ token.kind = .identifier := by
  refine List.forall_mem_cons.2 ⟨by simp [tokens, phrase.name.kind_eq], ?_⟩
  rcases phrase with ⟨name, opening, _ | list, closing, brace⟩
  · simp [parameters]
  · intro token member
    rcases list.mem_tokens_of_mem_names token member with ⟨isToken, isName⟩
    exact ⟨by simp [tokens, isToken], isName⟩

namespace StmtPhrase

/-- That the statements of a phrase can be read off their forms. -/
def ReadsBack : {symbol : Symbol} → StmtPhrase symbol → Prop
  | .declaration, phrase | .statement _, phrase => Stmt.ReadsBack phrase.tree
  | .declarations, phrase => ∀ statement ∈ (phrase.tree : List Stmt), statement.ReadsBack

theorem readsBack {symbol : Symbol} (phrase : StmtPhrase symbol)
    (legible : ∀ token ∈ phrase.tokens, token.Legible) : phrase.ReadsBack := by
  induction phrase with
  | declare phrase => exact VariablePhrase.readsBack legible
  | function keyword head body closing ih =>
      simp only [tokens, List.forall_mem_append, List.forall_mem_cons] at legible
      have names := head.mem_tokens_of_mem_parameters
      exact .function (fun token member => legible.2.1 token (names token member).1)
        (fun token member => (names token member).2) (ih legible.2.2.1)
  | statement phrase ih => exact ih legible
  | noDeclaration => exact List.forall_mem_nil _
  | nextDeclaration first rest ihFirst ihRest =>
      rw [tokens, List.forall_mem_append] at legible
      exact List.forall_mem_cons.2 ⟨ihFirst legible.1, ihRest legible.2⟩
  | expression value semicolon =>
      rw [tokens, List.forall_mem_append] at legible
      exact .expression (value.readsBack legible.1)
  | print keyword value semicolon =>
      simp only [tokens, List.forall_mem_append, List.forall_mem_cons] at legible
      exact .print (value.readsBack legible.2.1)
  | block opening body closing ih =>
      simp only [tokens, List.forall_mem_append, List.forall_mem_cons] at legible
      exact .block (ih legible.2.1)
  | ifThen keyword opening condition closing thenBranch ih =>
      simp only [tokens, List.forall_mem_append, List.forall_mem_cons] at legible
      exact .ifThen (condition.readsBack legible.2.2.1) (ih legible.2.2.2.2)
  | ifElse keyword opening condition closing thenBranch otherwise elseBranch ihThen ihElse =>
      simp only [tokens, List.forall_mem_append, List.forall_mem_cons] at legible
      rcases legible with ⟨-, -, conditionLegible, -, thenLegible, -, elseLegible⟩
      exact .ifElse (condition.readsBack conditionLegible) (ihThen thenLegible)
        (ihElse elseLegible)
  | whileDo keyword opening condition closing body ih =>
      simp only [tokens, List.forall_mem_append, List.forall_mem_cons] at legible
      exact .whileDo (condition.readsBack legible.2.2.1) (ih legible.2.2.2.2)
  | forLoop keyword opening first condition semicolon increment closing body ih =>
      simp only [tokens, List.forall_mem_append, List.forall_mem_cons] at legible
      rcases legible with ⟨-, -, firstLegible, conditionLegible, -, incrementLegible, -,
        bodyLegible⟩
      rw [ReadsBack, tree_forLoop]
      exact .forLoop (ClausePhrase.readsBack firstLegible)
        (OptionalPhrase.readsBack conditionLegible) (OptionalPhrase.readsBack incrementLegible)
        (ih bodyLegible)
  | ret keyword value semicolon =>
      simp only [tokens, List.forall_mem_append, List.forall_mem_cons] at legible
      exact .ret legible.1 keyword.kind_eq (OptionalPhrase.readsBack legible.2.1)

end StmtPhrase

theorem legible_of_mem_scan {text : String} {token : Token} (member : token ∈ (scan text).tokens)
    (noEnd : token.kind ≠ .eof) (isFinite : token.literal.isFinite = true) : token.Legible := by
  rcases List.mem_append.1 member with isRead | isEnd
  · have isLexeme := Segment.lexeme_of_mem 1 (Segment.cutting_cut text.toList).lawful isRead
    refine ⟨isLexeme, ?_, isFinite⟩
    rcases List.mem_filterMap.1 isRead with ⟨entry, -, isToken⟩
    rcases Segment.exists_of_token? isToken with ⟨kind, lexeme, _, rfl⟩
    rw [String.toList_ofList]
  · cases List.mem_singleton.1 isEnd
    contradiction

/-- Statements that are read off a text without errors can be read off their listing. -/
theorem readsBack_of_parse {text : String} {depth : Nat} {statements : List Stmt}
    (isParsed : parse depth (scan text).tokens = .ok ⟨statements, []⟩)
    (areFinite : ∀ token ∈ (scan text).tokens, token.literal.isFinite = true) :
    ∀ statement ∈ statements, statement.ReadsBack := by
  rcases tokens_scan text with ⟨body, tokens, noEnd⟩
  have legible : ∀ token ∈ body, token.Legible := fun token member =>
    have isToken : token ∈ (scan text).tokens := by simp [tokens, member]
    legible_of_mem_scan isToken (noEnd token member) (areFinite token isToken)
  rw [tokens] at isParsed
  rcases parse_derives ⟨_, List.mem_singleton_self _⟩ noEnd isParsed (by simp) with
    ⟨program, rfl, rfl, -⟩
  intro statement member
  rcases List.mem_map.1 member with ⟨declaration, isPart, rfl⟩
  refine declaration.readsBack fun token isToken => legible token ?_
  exact List.mem_flatMap.2 ⟨declaration, isPart, isToken⟩

/--
A listing tells which program it lists. Two texts that are read without errors, and have no numbers
beyond all bounds, have the same listing only if their statements differ in the lines of their
tokens at most, whatever stands in their strings and whatever their variables are called.
-/
theorem listing_unambiguous {first second : String} {depth depth' : Nat}
    {statements statements' : List Stmt}
    (firstParsed : parse depth (scan first).tokens = .ok ⟨statements, []⟩)
    (secondParsed : parse depth' (scan second).tokens = .ok ⟨statements', []⟩)
    (firstFinite : ∀ token ∈ (scan first).tokens, token.literal.isFinite = true)
    (secondFinite : ∀ token ∈ (scan second).tokens, token.literal.isFinite = true)
    (sameListing : listing statements = listing statements') :
    statements.map (Stmt.mapTokens Token.unplaced) =
      statements'.map (Stmt.mapTokens Token.unplaced) := by
  have readBack := readsBack_of_parse firstParsed firstFinite
  have readBack' := readsBack_of_parse secondParsed secondFinite
  have sameText := congrArg String.toList sameListing
  rw [toList_listing, toList_listing] at sameText
  have sameForms := Form.eq_of_lines (Stmt.lawful_forms readBack) (Stmt.lawful_forms readBack')
    sameText
  rw [← Stmt.mapAllTokens_eq, ← Stmt.mapAllTokens_eq, ← Stmt.stmts_forms readBack,
    ← Stmt.stmts_forms readBack', sameForms]

/-- The same numeral with fewer digits, on another line, behind a string with parentheses in it. -/
theorem listing_unambiguous_numeral :
    let statements (line : Int) (numeral : List Char) :=
      [Stmt.function ⟨.identifier, "f", .null, 1⟩ [⟨.identifier, "a", .null, 1⟩]
        [.expression (.call (.read ⟨.identifier, "call", .null, line⟩)
          ⟨.rightParen, ")", .null, line⟩
          [.literal (.string ";) a"), .literal (.number (Number.ofLexeme numeral))])]]
    let first := "fun f(a) \x7b call(\";) a\", 1.50); \x7d"
    let second := "fun f(a) \x7b\n call(\";) a\", 1.5); \x7d"
    parse 50 (scan first).tokens = .ok ⟨statements 1 "1.50".toList, []⟩ ∧
      parse 50 (scan second).tokens = .ok ⟨statements 2 "1.5".toList, []⟩ ∧
      listing (statements 1 "1.50".toList) = listing (statements 2 "1.5".toList) ∧
      (statements 1 "1.50".toList).map (Stmt.mapTokens Token.unplaced) =
        (statements 2 "1.5".toList).map (Stmt.mapTokens Token.unplaced) := by
  intro statements first second
  let tokens (line : Int) (numeral : String) : List Token :=
    [⟨.kwFun, "fun", .null, 1⟩, ⟨.identifier, "f", .null, 1⟩, ⟨.leftParen, "(", .null, 1⟩,
      ⟨.identifier, "a", .null, 1⟩, ⟨.rightParen, ")", .null, 1⟩, ⟨.leftBrace, "\x7b", .null, 1⟩,
      ⟨.identifier, "call", .null, line⟩, ⟨.leftParen, "(", .null, line⟩,
      ⟨.string, "\";) a\"", .string ";) a", line⟩, ⟨.comma, ",", .null, line⟩,
      ⟨.number, numeral, .number (Number.ofLexeme numeral.toList), line⟩,
      ⟨.rightParen, ")", .null, line⟩, ⟨.semicolon, ";", .null, line⟩,
      ⟨.rightBrace, "\x7d", .null, line⟩, .endOfText line]
  have parsed (line : Int) (numeral : String) :
      parse 50 (tokens line numeral) = .ok ⟨statements line numeral.toList, []⟩ := rfl
  have firstTokens : (scan first).tokens = tokens 1 "1.50" := by
    dsimp only [tokens, first]
    rfl
  have secondTokens : (scan second).tokens = tokens 2 "1.5" := by
    dsimp only [tokens, second]
    rfl
  have firstParsed := parsed 1 "1.50"
  have secondParsed := parsed 2 "1.5"
  rw [← firstTokens] at firstParsed
  rw [← secondTokens] at secondParsed
  have sameListing : listing (statements 1 "1.50".toList) =
      listing (statements 2 "1.5".toList) := by decide +kernel
  exact ⟨firstParsed, secondParsed, sameListing,
    listing_unambiguous firstParsed secondParsed (by decide +kernel) (by decide +kernel)
      sameListing⟩

end Scriptlet
