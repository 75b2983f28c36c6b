import Scriptlet.Proofs.Comparison.Evaluation
import Scriptlet.Proofs.Completeness.Program
import Scriptlet.Proofs.ReturnFree
import Scriptlet.Proofs.ScanLines
import Scriptlet.Proofs.Soundness.Program

/-!
# One text after another

Two texts without errors can be put on lines of their own. The whole is then read and run like the
first text followed by the second, but for the lines of the second text's tokens.
-/

namespace Scriptlet

namespace ProgramPhrase

variable (program other : ProgramPhrase)

theorem tokens_append : (program ++ other).tokens = program.tokens ++ other.tokens :=
  List.flatMap_append

theorem tree_append : (program ++ other).tree = program.tree ++ other.tree :=
  List.map_append

theorem errors_append : (program ++ other).errors = program.errors ++ other.errors :=
  List.flatMap_append

theorem height_append : (program ++ other).height = max program.height other.height := by
  induction program with
  | nil => simp [height]
  | cons declaration program ih =>
      simp only [height, List.cons_append, List.map_cons, List.foldr_cons] at ih ⊢
      rw [ih]
      omega

end ProgramPhrase

/-- Programs without errors can be put together, and are then read one after the other. -/
theorem parse_append {body other : List Token} (noEnd : ∀ token ∈ body, token.kind ≠ .eof)
    (otherNoEnd : ∀ token ∈ other, token.kind ≠ .eof) (ending otherEnding : Terminal [.eof])
    {depth : Nat} {statements otherStatements : List Stmt}
    (read : parse depth (body ++ [ending.token]) = .ok ⟨statements, []⟩)
    (otherRead : parse depth (other ++ [otherEnding.token]) = .ok ⟨otherStatements, []⟩) :
    parse depth (body ++ other ++ [otherEnding.token]) =
      .ok ⟨statements ++ otherStatements, []⟩ := by
  rcases parse_derives ending noEnd read (by simp) with ⟨program, rfl, isTree, noErrors⟩
  rcases parse_derives otherEnding otherNoEnd otherRead (by simp) with
      ⟨otherProgram, rfl, otherIsTree, otherNoErrors⟩
  have fits : program.height ≤ depth := by
    by_contra tooHigh
    rw [parse_program, if_neg tooHigh] at read
    contradiction
  have otherFits : otherProgram.height ≤ depth := by
    by_contra tooHigh
    rw [parse_program, if_neg tooHigh] at otherRead
    contradiction
  have together := parse_program (program ++ otherProgram) otherEnding depth
  rw [ProgramPhrase.tokens_append, ProgramPhrase.height_append, if_pos (by omega),
    ProgramPhrase.tree_append, ProgramPhrase.errors_append, isTree, noErrors, otherIsTree,
    otherNoErrors] at together
  exact together

theorem Token.alike_later (lines : Int) (token : Token) : token.Alike (token.later lines) :=
  ⟨rfl, rfl, rfl⟩

/-- That the tokens of a text are found a number of lines further down. -/
def Likeness.further (text : String) (lines : Int) : Likeness :=
  .along (· ∈ (scan text).tokens) (Token.later lines) (Token.alike_later lines)

/-- Two texts without errors, on lines of their own, are read one after the other. -/
theorem parse_lines {first second : String}
    (terminated : ∀ error ∈ (scan first).errors, error.cause ≠ .unterminatedString) {depth : Nat}
    {statements others : List Stmt}
    (read : parse depth (scan first).tokens = .ok ⟨statements, []⟩)
    (otherRead : parse depth (scan second).tokens = .ok ⟨others, []⟩) :
    ∃ further,
      parse depth (scan (first ++ "\n" ++ second)).tokens = .ok ⟨statements ++ further, []⟩ ∧
      List.Forall₂ (Stmt.Corresponds (.further second (lastLine first))) others further := by
  have inputs : List.Forall₂ (Likeness.further second (lastLine first)).Holds (scan second).tokens
      ((scan second).tokens.map (Token.later (lastLine first))) :=
    List.forall₂_map_right_iff.2 (List.forall₂_same.2 fun token member => ⟨member, rfl⟩)
  rcases parse_corresponds inputs otherRead with
      ⟨⟨further, errors⟩, furtherRead, correspond, sameErrors⟩
  obtain rfl : errors = [] := List.forall₂_nil_left_iff.1 sameErrors
  rcases tokens_scan first with ⟨body, isBody, noEnd⟩
  rcases tokens_scan second with ⟨other, isOther, otherNoEnd⟩
  refine ⟨further, ?_, correspond⟩
  rw [isBody] at read
  rw [isOther, List.map_append, List.map_singleton] at furtherRead
  rw [tokens_scan_lines first second terminated, isBody, List.dropLast_concat, isOther,
    List.map_append, List.map_singleton, ← List.append_assoc]
  have movedNoEnd : ∀ token ∈ other.map (Token.later (lastLine first)), token.kind ≠ .eof := by
    simpa [Token.later] using otherNoEnd
  exact parse_append noEnd movedNoEnd ⟨.endOfText (lastLine first), List.mem_singleton_self _⟩
    ⟨(Token.endOfText (lastLine second)).later (lastLine first), List.mem_singleton_self _⟩
    read furtherRead

/-- The tokens that a function keeps. -/
def Closure.tokens (closure : Closure) : List Token :=
  closure.name :: closure.parameters ++ Stmt.tokensOfAll closure.body

/-- Whether a function that is bound in some scope of a machine keeps a token. -/
def Machine.Mentions (machine : Machine) (token : Token) : Prop :=
  ∃ id scope name closure, machine.store.scope? id = some scope ∧
    scope.find? name = some (.function closure) ∧ token ∈ closure.tokens

/--
The comparison of two runs that start with one machine, in which the tokens of a text may be found
further down. All other tokens are of an earlier text or of the machine, and are the same.
-/
def Comparison.further (machine : Machine) (earlier text : String) : Comparison where
  left := machine
  right := machine
  Accepts likeness :=
    likeness = .only machine.Mentions ∨ likeness = .only (· ∈ (scan earlier).tokens) ∨
    likeness = .further text (lastLine earlier)
  Sees _ := True
  Same := Eq
  sees_new _ := trivial
  same_new _ := rfl
  same_iff := by
    rintro _ _ _ _ rfl rfl
    rfl

namespace Comparison

variable (machine : Machine) (earlier text : String)

theorem further_values {id : ScopeId} {scope : Scope} {name : String} {value : Value}
    (isScope : machine.store.scope? id = some scope) (isValue : scope.find? name = some value) :
    (further machine earlier text).Values value value := by
  cases value with
  | constant value => exact .constant value
  | function closure =>
      have mentioned : ∀ token ∈ closure.tokens,
          (Likeness.only machine.Mentions).Holds token token :=
        fun token member => ⟨⟨id, scope, name, closure, isScope, isValue, member⟩, rfl⟩
      simp only [Closure.tokens, List.forall_mem_append, List.forall_mem_cons] at mentioned
      exact .function {
        code := ⟨_, .inl rfl, mentioned.1.1, List.forall₂_same.2 mentioned.1.2,
          Stmt.correspond_selves _ mentioned.2⟩
        scope := rfl
        seen := trivial
        serial := rfl }

/-- Every machine corresponds to itself. -/
theorem further_machines :
    (further machine earlier text).Machines machine.current machine machine :=
  .start rfl (fun _ => trivial) (further_values machine earlier text)

/--
Statements that are free of returns, and statements after them, are run one after the other. What
the first ones leave is as if they had been run alone, and an error in them is the last thing that
happens.
-/
theorem interpret_append {comparison : Comparison} {likeness likeness' : Likeness}
    (accepted : comparison.Accepts likeness) (accepted' : comparison.Accepts likeness')
    {statements others others' : List Stmt}
    (free : ∀ statement ∈ statements, statement.ReturnFree)
    (selves : List.Forall₂ (Stmt.Corresponds likeness) statements statements)
    (correspond : List.Forall₂ (Stmt.Corresponds likeness') others others') {machine : Machine}
    (machines : comparison.Machines machine.current machine machine) {scope : ScopeId}
    (seen : comparison.Sees scope) (limits : Limits) :
    match interpret limits statements scope machine with
    | .ok none between =>
      comparison.Results (Option.Rel comparison.Errors) machine.current
        (interpret limits others scope between)
        (interpret limits (statements ++ others') scope machine)
    | result => interpret limits (statements ++ others') scope machine = result := by
  have never := Eval.NeverReturns.sequence fun statement member =>
    (free statement member).neverReturns limits.rounds limits.depth
  have results := Simulates.sequence selves
    (fun _ _ => execute limits.rounds limits.depth accepted) scope _ _ (machines.at seen)
  rw [Eval.interpret_apply limits statements, Eval.interpret_apply limits (statements ++ others'),
    Eval.sequence_append, Eval.within_apply, Eval.within_apply]
  cases ran : Eval.sequence (Stmt.execute limits.rounds limits.depth) statements
      { machine with current := scope } with
  | ok flow after =>
      obtain rfl := never _ _ _ ran
      rw [ran] at results
      cases results with
      | ok _ afters =>
          -- Between the two programs the machine differs in its current scope only.
          have same : { after with current := scope } = after := by
            rw [← afters.currents.1]
          rw [Eval.bind_of_ok ran]
          change comparison.Results (Option.Rel comparison.Errors) machine.current
            (interpret limits others scope { after with current := machine.current }) _
          rw [Eval.interpret_apply, Eval.within_apply]
          dsimp only
          rw [same]
          exact ((Simulates.sequence correspond
            (fun _ _ => execute limits.rounds limits.depth accepted') scope _ _ afters).returnTo
              machines.seen).conclude
  | error stop after =>
      rw [Eval.bind_of_error ran]
      cases stop <;> rfl

end Comparison

/--
Two texts that are scanned and read without errors can be put on lines of their own. The whole is
read as the first text followed by the second, whose tokens stand further down. Running it is like
running the first text and, unless that ends with an error, the second: the printed text, the
bindings and the error are the same, but for the lines of tokens. If the first text ends with an
error, nothing else is run.
-/
theorem interpret_lines {first second : String} (noErrors : (scan first).errors = [])
    (otherNoErrors : (scan second).errors = []) {depth : Nat} {statements others : List Stmt}
    (read : parse depth (scan first).tokens = .ok ⟨statements, []⟩)
    (otherRead : parse depth (scan second).tokens = .ok ⟨others, []⟩) :
    (scan (first ++ "\n" ++ second)).errors = [] ∧
    ∃ further,
      parse depth (scan (first ++ "\n" ++ second)).tokens = .ok ⟨statements ++ further, []⟩ ∧
      List.Forall₂ (Stmt.Corresponds (.further second (lastLine first))) others further ∧
      ∀ limits scope machine,
        let comparison := Comparison.further machine first second
        match interpret limits statements scope machine with
        | .ok none between =>
          comparison.Results (Option.Rel comparison.Errors) machine.current
            (interpret limits others scope between)
            (interpret limits (statements ++ further) scope machine)
        | result => interpret limits (statements ++ further) scope machine = result := by
  have terminated : ∀ error ∈ (scan first).errors, error.cause ≠ .unterminatedString := by
    simp [noErrors]
  rcases parse_lines terminated read otherRead with ⟨further, togetherRead, correspond⟩
  have free := parse_returnFree read (by simp)
  rcases parse_corresponds (Likeness.forall₂_only fun _ member => member) read with
      ⟨parsed, readAgain, selves, _⟩
  cases read.symm.trans readAgain
  refine ⟨?_, further, togetherRead, correspond, fun limits scope machine => ?_⟩
  · rw [errors_scan_lines first second terminated, noErrors, otherNoErrors]
    rfl
  · exact Comparison.interpret_append (Or.inr (Or.inl rfl)) (Or.inr (Or.inr rfl)) free selves
      correspond (Comparison.further_machines machine first second) trivial limits

/-- In the second of two texts a variable is printed that the first declares, and one is missing. -/
theorem interpret_lines_undefined :
    let statements := [Stmt.declare ⟨.identifier, "a", .null, 1⟩ (some (.literal (.bool true)))]
    let others := [Stmt.print (.read ⟨.identifier, "a", .null, 1⟩),
      .expression (.read ⟨.identifier, "b", .null, 1⟩)]
    (scan "var a = true;").errors = [] ∧ (scan "print a; b;").errors = [] ∧
    parse 20 (scan "var a = true;").tokens = .ok ⟨statements, []⟩ ∧
    parse 20 (scan "print a; b;").tokens = .ok ⟨others, []⟩ ∧
    ∃ further,
      parse 20 (scan ("var a = true;" ++ "\n" ++ "print a; b;")).tokens =
        .ok ⟨statements ++ further, []⟩ ∧
      List.Forall₂ (Stmt.Corresponds (.further "print a; b;" (lastLine "var a = true;"))) others
        further ∧
      ∀ limits scope machine,
        let comparison := Comparison.further machine "var a = true;" "print a; b;"
        match interpret limits statements scope machine with
        | .ok none between =>
          comparison.Results (Option.Rel comparison.Errors) machine.current
            (interpret limits others scope between)
            (interpret limits (statements ++ further) scope machine)
        | result => interpret limits (statements ++ further) scope machine = result := by
  intro statements others
  have noErrors : (scan "var a = true;").errors = [] := by rfl
  have otherNoErrors : (scan "print a; b;").errors = [] := by rfl
  have tokens : (scan "var a = true;").tokens =
      [⟨.kwVar, "var", .null, 1⟩, ⟨.identifier, "a", .null, 1⟩, ⟨.equal, "=", .null, 1⟩,
        ⟨.kwTrue, "true", .null, 1⟩, ⟨.semicolon, ";", .null, 1⟩, .endOfText 1] := by rfl
  have otherTokens : (scan "print a; b;").tokens =
      [⟨.kwPrint, "print", .null, 1⟩, ⟨.identifier, "a", .null, 1⟩, ⟨.semicolon, ";", .null, 1⟩,
        ⟨.identifier, "b", .null, 1⟩, ⟨.semicolon, ";", .null, 1⟩, .endOfText 1] := by rfl
  have read : parse 20 (scan "var a = true;").tokens = .ok ⟨statements, []⟩ := by
    rw [tokens]
    rfl
  have otherRead : parse 20 (scan "print a; b;").tokens = .ok ⟨others, []⟩ := by
    rw [otherTokens]
    rfl
  exact ⟨noErrors, otherNoErrors, read, otherRead,
    (interpret_lines noErrors otherNoErrors read otherRead).2⟩

end Scriptlet
