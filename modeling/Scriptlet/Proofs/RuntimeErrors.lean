import Scriptlet.Proofs.ErrorSites
import Scriptlet.Proofs.Numbering
import Scriptlet.Proofs.Trees
import Scriptlet.Scan

/-!
# Runtime errors of programs that are read from texts

All code that is run was read from a text, so that its tokens are of the kinds that their roles ask
for. This stays true of functions that outlive the text that declared them (`Invariant.bodies`).
Hence there are six things that an error can say, each of them at tokens of certain kinds, and the
token is one of a text that has been run (`Ran.errors_located`).
-/

namespace Scriptlet

/-- That the body of a value has the tokens it may have if the value is a function. -/
def Value.BodyFits (allows : Token.Role → Token → Prop) : Value → Prop
  | .constant _ => True
  | .function closure => ∀ statement ∈ closure.body, statement.Fits allows

theorem Value.BodyFits.mono {allows others : Token.Role → Token → Prop} {value : Value}
    (implied : ∀ role token, allows role token → others role token)
    (fits : value.BodyFits allows) : value.BodyFits others := by
  cases value with
  | constant value => trivial
  | function closure => exact fun statement member => (fits statement member).mono implied

/-- Runs keep the tokens of functions such as they may be in the code that is run. -/
def Invariant.bodies (allows : Token.Role → Token → Prop) : Invariant where
  Holds machine := machine.store.AllBound (Value.BodyFits allows)
  Valid _ value := value.BodyFits allows
  Grows _ _ := True
  Allows := allows
  refl _ := trivial
  trans _ _ := trivial
  constant _ _ := trivial
  mono _ fits := fits
  code fits := fits
  bound holds isValue := by
    rcases Store.exists_of_get_eq_ok isValue with ⟨owner, scope, isScope, isBound⟩
    exact holds _ _ _ _ isScope isBound
  print _ holds := ⟨holds, trivial⟩
  define name holds fits := ⟨holds.define _ name fits, trivial⟩
  assign holds fits assigned := by
    rcases Store.exists_of_assign_eq_ok assigned with ⟨owner, _, rfl⟩
    exact ⟨holds.define owner _ fits, trivial⟩
  close _ _ _ holds bodyFits := ⟨holds, trivial, bodyFits⟩
  enter holds opens := by
    apply holds.create
    intro name value isBound
    cases opens with
    | block => contradiction
    | call _ validArguments => exact validArguments _ (mem_of_find?_callScope isBound)
  leave _ _ holds _ := ⟨holds, trivial, fun _ fits => fits⟩

theorem Token.Fills.unary {tokens : Token → Prop} {operator : Token}
    (fills : Token.Fills tokens .unary operator) :
    operator.kind = .bang ∨ operator.kind = .minus := by
  simpa [Token.Role.kinds] using fills.kind

section Operators

variable {operator : Token} {error : RuntimeError}

theorem applyUnary_eq_error {value : Value} (fails : applyUnary operator value = .error error) :
    error = ⟨.notNumber, operator⟩ ∧ operator.kind ≠ .bang := by
  unfold applyUnary at fails
  split at fails
  · contradiction
  · contradiction
  · rename_i notBang
    cases fails
    exact ⟨rfl, notBang⟩

theorem exists_arithmetic? {kind : Token.Kind}
    (isArithmetic : kind ∈ [.minus, .star, .slash, .greater, .greaterEqual, .less, .lessEqual])
    (left right : Float) : ∃ result, arithmetic? kind left right = some result := by
  simp only [List.mem_cons, List.not_mem_nil, or_false] at isArithmetic
  rcases isArithmetic with rfl | rfl | rfl | rfl | rfl | rfl | rfl
  all_goals exact ⟨_, rfl⟩

/-- A binary operator of the language has a meaning for numbers, and fails in one of two ways. -/
theorem applyBinary_eq_error {left right : Value}
    (isBinary : operator.kind ∈ Token.Role.binary.kinds)
    (fails : applyBinary operator left right = .error error) :
    (operator.kind = .plus ∧ error = ⟨.notAddable, operator⟩) ∨
    (operator.kind ∈ [.minus, .star, .slash, .greater, .greaterEqual, .less, .lessEqual] ∧
      error = ⟨.notNumbers, operator⟩) := by
  have others : operator.kind ≠ .equalEqual → operator.kind ≠ .bangEqual → operator.kind ≠ .plus →
      operator.kind ∈ [.minus, .star, .slash, .greater, .greaterEqual, .less, .lessEqual] := by
    simp only [Token.Role.kinds, List.mem_cons, List.not_mem_nil] at isBinary ⊢
    tauto
  unfold applyBinary at fails
  split at fails
  · contradiction
  · contradiction
  · rename_i isPlus
    unfold add at fails
    split at fails
    · contradiction
    · contradiction
    · cases fails
      exact .inl ⟨isPlus, rfl⟩
  · rename_i notEqual notDifferent notPlus
    have isMember := others notEqual notDifferent notPlus
    split at fails
    · rename_i first second
      rcases exists_arithmetic? isMember first second with ⟨result, known⟩
      rw [known] at fails
      contradiction
    · cases fails
      exact .inr ⟨isMember, rfl⟩

end Operators

namespace Store

variable {store : Store} {id : ScopeId} {name : Token} {error : RuntimeError}

theorem resolve_eq_error (fails : store.resolve id name = .error error) :
    error = ⟨.undefinedVariable, name⟩ := by
  unfold resolve at fails
  split at fails
  · contradiction
  · cases fails
    rfl

theorem get_eq_error (fails : store.get id name = .error error) :
    error = ⟨.undefinedVariable, name⟩ := by
  unfold get at fails
  cases resolved : store.resolve id name with
  | error reason =>
      rw [resolved] at fails
      cases fails
      exact resolve_eq_error resolved
  | ok owner =>
      rw [resolved] at fails
      dsimp only [Bind.bind, Except.bind] at fails
      split at fails
      · contradiction
      · cases fails
        rfl

theorem assign_eq_error {value : Value} (fails : store.assign id name value = .error error) :
    error = ⟨.undefinedVariable, name⟩ := by
  unfold assign at fails
  cases resolved : store.resolve id name with
  | ok owner =>
      rw [resolved] at fails
      contradiction
  | error reason =>
      rw [resolved] at fails
      cases fails
      exact resolve_eq_error resolved

end Store

/-- What an error says, what kind of token it points at, and in what kind of job it arises. -/
inductive RuntimeError.Located (rounds : Nat) (error : RuntimeError) : Job → Prop
  | addition {depth : Nat} {left right : Expr} {machine : Machine}
      (message : error.message = "Operands must be two numbers or two strings.")
      (kind : error.token.kind = .plus) :
      Located rounds error ⟨depth, .evaluate (.binary left error.token right), machine⟩
  | arithmetic {depth : Nat} {left right : Expr} {machine : Machine}
      (message : error.message = "Operands must be numbers.")
      (kind : error.token.kind ∈
        [.minus, .star, .slash, .greater, .greaterEqual, .less, .lessEqual]) :
      Located rounds error ⟨depth, .evaluate (.binary left error.token right), machine⟩
  | negation {depth : Nat} {operand : Expr} {machine : Machine}
      (message : error.message = "Operand must be a number.")
      (kind : error.token.kind = .minus) :
      Located rounds error ⟨depth, .evaluate (.unary error.token operand), machine⟩
  | read {depth : Nat} {machine : Machine}
      (message : error.message = "Undefined variable '" ++ error.token.lexeme ++ "'.")
      (kind : error.token.kind = .identifier) :
      Located rounds error ⟨depth, .evaluate (.read error.token), machine⟩
  | assigned {depth : Nat} {value : Expr} {machine : Machine}
      (message : error.message = "Undefined variable '" ++ error.token.lexeme ++ "'.")
      (kind : error.token.kind = .identifier) :
      Located rounds error ⟨depth, .evaluate (.assign error.token value), machine⟩
  | notCallable {depth : Nat} {callee : Expr} {arguments : List Expr} {machine : Machine}
      (message : error.message = "Can only call functions.")
      (kind : error.token.kind = .rightParen) :
      Located rounds error ⟨depth, .evaluate (.call callee error.token arguments), machine⟩
  | wrongArity {depth : Nat} {callee : Expr} {arguments : List Expr} {closure : Closure}
      {machine called : Machine}
      (calleeRan : callee.evaluate rounds depth machine = .ok (.function closure) called)
      (differ : closure.arity ≠ arguments.length)
      (message : error.message = "Expected " ++ toString closure.arity ++ " arguments but got " ++
        toString arguments.length ++ ".")
      (kind : error.token.kind = .rightParen) :
      Located rounds error ⟨depth + 1, .evaluate (.call callee error.token arguments), machine⟩

/-- In code with the tokens it may have, an error points at one of them, and says what it can. -/
theorem Job.Raises.located {tokens : Token → Prop} {rounds : Nat} {job : Job} {error : RuntimeError}
    (raises : job.Raises rounds error) (sound : job.Sound (.bodies (Token.Fills tokens))) :
    tokens error.token ∧ error.Located rounds job := by
  rcases sound with ⟨_, fits⟩
  cases raises with
  | unary _ fails =>
      rcases applyUnary_eq_error fails with ⟨rfl, notBang⟩
      cases fits with
      | unary allowed _ =>
          exact ⟨allowed.mem, .negation rfl (allowed.unary.resolve_left notBang)⟩
  | binary _ _ fails =>
      cases fits with
      | binary _ allowed _ =>
          rcases applyBinary_eq_error allowed.kind fails with ⟨isPlus, rfl⟩ | ⟨isArithmetic, rfl⟩
          · exact ⟨allowed.mem, .addition rfl isPlus⟩
          · exact ⟨allowed.mem, .arithmetic rfl isArithmetic⟩
  | read fails =>
      cases Store.get_eq_error fails
      cases fits with
      | read allowed => exact ⟨allowed.mem, .read rfl (List.mem_singleton.1 allowed.kind)⟩
  | assign _ fails =>
      cases Store.assign_eq_error fails
      cases fits with
      | assign allowed _ => exact ⟨allowed.mem, .assigned rfl (List.mem_singleton.1 allowed.kind)⟩
  | notCallable _ =>
      cases fits with
      | call _ allowed _ =>
          exact ⟨allowed.mem, .notCallable rfl (List.mem_singleton.1 allowed.kind)⟩
  | wrongArity calleeRan differ =>
      cases fits with
      | call _ allowed _ =>
          exact ⟨allowed.mem,
            .wrongArity calleeRan differ.symm rfl (List.mem_singleton.1 allowed.kind)⟩

/--
That texts have been run one after the other, each after it was scanned and read, and have left a
machine. They may have errors, and may run in any scope and end in any way.
-/
inductive Ran : List String → Machine → Prop
  | start : Ran [] .initial
  | supply {texts : List String} {machine : Machine} (before : Ran texts machine) :
      Ran texts { machine with store := (machine.store.create ⟨none, []⟩).2 }
  | finish {texts : List String} {text : String} {machine after : Machine} {depth : Nat}
      {parsed : Parsed} {limits : Limits} {scope : ScopeId} {error : Option RuntimeError}
      (before : Ran texts machine) (read : parse depth (scan text).tokens = .ok parsed)
      (ran : interpret limits parsed.statements scope machine = .ok error after) :
      Ran (texts ++ [text]) after
  | exceed {texts : List String} {text : String} {machine after : Machine} {depth : Nat}
      {parsed : Parsed} {limits : Limits} {scope : ScopeId} {stop : Stop}
      (before : Ran texts machine) (read : parse depth (scan text).tokens = .ok parsed)
      (ran : interpret limits parsed.statements scope machine = .error stop after) :
      Ran (texts ++ [text]) after

/-- That a token is one of those that texts are scanned into. -/
def Token.IsIn (texts : List String) (token : Token) : Prop :=
  ∃ text ∈ texts, token ∈ (scan text).tokens

/-- What is read from a text is made of the tokens of the texts up to it. -/
theorem fits_of_parse {depth : Nat} {text : String} {parsed : Parsed}
    (read : parse depth (scan text).tokens = .ok parsed) (texts : List String) :
    ∀ statement ∈ parsed.statements,
      statement.Fits (Token.Fills (Token.IsIn (texts ++ [text]))) := by
  intro statement member
  apply (parse_fits read statement member).mono
  intro role token fills
  exact ⟨⟨text, by simp, fills.mem⟩, fills.kind⟩

namespace Ran

variable {texts : List String} {machine : Machine}

theorem holds_append (text : String)
    (holds : (Invariant.bodies (Token.Fills (Token.IsIn texts))).Holds machine) :
    (Invariant.bodies (Token.Fills (Token.IsIn (texts ++ [text])))).Holds machine := by
  refine Store.AllBound.mono holds fun fits => fits.mono ?_
  rintro role token ⟨⟨source, member, isToken⟩, isKind⟩
  exact ⟨⟨source, List.mem_append_left _ member, isToken⟩, isKind⟩

theorem holds_interpret {depth : Nat} {text : String} {parsed : Parsed}
    (read : parse depth (scan text).tokens = .ok parsed) (limits : Limits) (scope : ScopeId)
    (holds : (Invariant.bodies (Token.Fills (Token.IsIn texts))).Holds machine) :
    (Invariant.bodies (Token.Fills (Token.IsIn (texts ++ [text])))).Ends (fun _ _ => True) machine
      (interpret limits parsed.statements scope machine) := by
  apply Invariant.interpret _ limits (fits_of_parse read texts)
  · exact holds_append text holds
  · intro after holds _
    exact ⟨holds, trivial⟩

/-- Functions that outlive the texts that declared them are made of the tokens of those texts. -/
theorem bodies (ran : Ran texts machine) :
    (Invariant.bodies (Token.Fills (Token.IsIn texts))).Holds machine := by
  induction ran with
  | start => exact Store.allBound_initial _
  | supply _ holds => exact holds.create fun name value isBound => by contradiction
  | finish _ read ran holds => exact ((holds_interpret read _ _ holds).of_ok ran).1
  | exceed _ read ran holds => exact ((holds_interpret read _ _ holds).of_error ran).1

/--
A text that is run after others ends with an error only if one of its jobs cannot be done, and the
error then says so in one of six ways, each at tokens of certain kinds. The token is one of the text
itself or of a text that was run before. No job works with an operator that has no meaning, and a
unary operator that is not a negation of a truth value is a minus.
-/
theorem errors_located (ran : Ran texts machine) {depth : Nat} {text : String} {parsed : Parsed}
    (read : parse depth (scan text).tokens = .ok parsed) (limits : Limits) (scope : ScopeId) :
    (∀ error after, interpret limits parsed.statements scope machine = .ok (some error) after →
      error.token.IsIn (texts ++ [text]) ∧
      ∃ job, Performs limits parsed.statements scope machine job ∧
        error.Located limits.rounds job) ∧
    ∀ job, Performs limits parsed.statements scope machine job →
      (∀ left operator right, job.task = .evaluate (.binary left operator right) →
        ∀ first second error, applyBinary operator first second = .error error →
          error.cause ≠ .unknownOperator) ∧
      ∀ operator operand, job.task = .evaluate (.unary operator operand) →
        operator.kind = .bang ∨ operator.kind = .minus := by
  have sound {job : Job} (performs : Performs limits parsed.statements scope machine job) :
      job.Sound (.bodies (Token.Fills (Token.IsIn (texts ++ [text])))) :=
    performs.sound (holds_append text ran.bodies) (fits_of_parse read texts)
  constructor
  · intro error after ended
    rcases exists_performs_of_interpret ended with ⟨job, performs, raises⟩
    rcases raises.located (sound performs) with ⟨isToken, located⟩
    exact ⟨isToken, job, performs, located⟩
  · intro job performs
    have fits := (sound performs).fits
    constructor
    · intro left operator right isTask first second error fails
      rw [isTask] at fits
      cases fits with
      | binary _ allowed _ =>
          rcases applyBinary_eq_error allowed.kind fails with ⟨_, rfl⟩ | ⟨_, rfl⟩
          · simp
          · simp
    · intro operator operand isTask
      rw [isTask] at fits
      cases fits with
      | unary allowed _ => exact allowed.unary

/-- A function of one text fails when another is run, in which there is an error as well. -/
theorem errors_located_function :
    let name := fun lexeme => Token.mk .identifier lexeme .null 1
    let minus := Token.mk .minus "-" .null 1
    let body := [Stmt.ret ⟨.kwReturn, "return", .null, 1⟩ (some (.unary minus (.read (name "a"))))]
    let others := [Stmt.expression (.literal (.bool true)), .expression (.call (.read (name "f"))
      ⟨.rightParen, ")", .null, 1⟩ [.read (name "f")])]
    let machine : Machine :=
      ⟨⟨#[⟨none, [("f", .function ⟨name "f", [name "a"], body, 0, 0⟩)]⟩]⟩, 0, 0, 1, ""⟩
    Ran ["fun f(a)\x7breturn -a;\x7d"] machine ∧
    parse 30 (scan "true = f; f(f);").tokens =
      .ok ⟨others, [⟨.invalidTarget, ⟨.equal, "=", .null, 1⟩⟩]⟩ ∧
    ∃ after, interpret ⟨9, 9⟩ others 0 machine = .ok (some ⟨.notNumber, minus⟩) after ∧
      minus.IsIn ["fun f(a)\x7breturn -a;\x7d", "true = f; f(f);"] := by
  intro name minus body others machine
  have tokens : (scan "fun f(a)\x7breturn -a;\x7d").tokens =
      [⟨.kwFun, "fun", .null, 1⟩, name "f", ⟨.leftParen, "(", .null, 1⟩, name "a",
        ⟨.rightParen, ")", .null, 1⟩, ⟨.leftBrace, "\x7b", .null, 1⟩,
        ⟨.kwReturn, "return", .null, 1⟩, minus, name "a", ⟨.semicolon, ";", .null, 1⟩,
        ⟨.rightBrace, "\x7d", .null, 1⟩, .endOfText 1] := by rfl
  have otherTokens : (scan "true = f; f(f);").tokens =
      [⟨.kwTrue, "true", .null, 1⟩, ⟨.equal, "=", .null, 1⟩, name "f", ⟨.semicolon, ";", .null, 1⟩,
        name "f", ⟨.leftParen, "(", .null, 1⟩, name "f", ⟨.rightParen, ")", .null, 1⟩,
        ⟨.semicolon, ";", .null, 1⟩, .endOfText 1] := by rfl
  have read : parse 30 (scan "fun f(a)\x7breturn -a;\x7d").tokens =
      .ok ⟨[.function (name "f") [name "a"] body], []⟩ := by
    rw [tokens]
    rfl
  have otherRead : parse 30 (scan "true = f; f(f);").tokens =
      .ok ⟨others, [⟨.invalidTarget, ⟨.equal, "=", .null, 1⟩⟩]⟩ := by
    rw [otherTokens]
    rfl
  have ran : interpret ⟨9, 9⟩ [.function (name "f") [name "a"] body] 0 .initial =
      .ok none machine := rfl
  have failed : interpret ⟨9, 9⟩ others 0 machine = .ok (some ⟨.notNumber, minus⟩) _ := rfl
  have isRun : Ran ["fun f(a)\x7breturn -a;\x7d"] machine := .finish .start read ran
  exact ⟨isRun, otherRead, _, failed, ((errors_located isRun otherRead ⟨9, 9⟩ 0).1 _ _ failed).1⟩

end Ran

end Scriptlet
