import Scriptlet.Proofs.Alignment.Evaluation
import Scriptlet.Proofs.Deepening
import Scriptlet.Proofs.ScopeGraph.Runs
import Scriptlet.Proofs.Soundness.Expression

/-!
# The meaning of `for` loops

A `for` loop is read into blocks and a `while` loop, which have more or fewer scopes depending on
the clauses that are there. `ForLoop.run` says what the loop means in terms of its clauses. Whatever
loop is read, and whatever machine it is run on, its tree does the same, but for the scopes that one
of the two has and the other one has not (`ForLoop.execute_tree`).
-/

namespace Scriptlet

namespace Eval

/-- Runs a step after another one, unless that one returned. -/
def andThen (first next : Eval Flow) : Eval Flow := do
  match ← first with
  | .next => next
  | .returned value => return .returned value

/-- Runs a step in a new scope within the current one. -/
def inBlock {α : Type} (action : Eval α) : Eval α := do
  let scope ← create ⟨some (← get).current, []⟩
  within scope action

theorem sequence_pair (execute : Stmt → Eval Flow) (first second : Stmt) :
    sequence execute [first, second] = andThen (execute first) (execute second) := by
  refine bind_congr fun flow => ?_
  cases flow with
  | returned value => rfl
  | next =>
      refine Eq.trans (bind_congr fun flow => ?_) (bind_pure _)
      cases flow <;> rfl

namespace Deepens

theorem andThen {first first' next next' : Eval Flow} (firsts : Deepens first first')
    (nexts : Deepens next next') : Deepens (first.andThen next) (first'.andThen next') := by
  refine firsts.bind fun flow => ?_
  cases flow with
  | next => exact nexts
  | returned value => exact refl _

theorem inBlock {α : Type} {action action' : Eval α} (actions : Deepens action action') :
    Deepens (Eval.inBlock action) (Eval.inBlock action') :=
  (refl _).bind fun _ => (refl _).bind fun scope => within scope actions

end Deepens

end Eval

/-- The clauses of a `for` loop and its body. -/
structure ForLoop where
  initializer : Option Stmt
  condition : Option Expr
  increment : Option Expr
  body : Stmt

namespace ForLoop

/-- The tree that a loop is read into. -/
def tree (loop : ForLoop) : Stmt :=
  .forLoop loop.initializer loop.condition loop.increment loop.body

section Meaning

variable (loop : ForLoop) (rounds depth : Nat)

/-- The value of the condition, which holds if there is none. -/
def test : Eval Value :=
  match loop.condition with
  | none => return .bool true
  | some condition => condition.evaluate rounds depth

/-- One round: the body and, unless it returned, the increment. -/
def lap : Eval Flow :=
  match loop.increment with
  | none => loop.body.execute rounds depth
  | some increment => Eval.andThen (loop.body.execute rounds depth) do
    let _ ← increment.evaluate rounds depth
    return .next

/-- The rounds of a loop, of which there may be `count` at most. -/
def laps : Nat → Eval Flow
  | 0 => throw .unfinished
  | count + 1 => do
    if (← loop.test rounds depth).isTruthy then
      Eval.andThen (loop.lap rounds depth) (laps count)
    else
      return .next

/-- What a loop means: everything is done in one scope, which is made for the loop. -/
def run : Eval Flow :=
  Eval.inBlock
    (match loop.initializer with
    | none => loop.laps rounds depth rounds
    | some initializer =>
      Eval.andThen (initializer.execute rounds depth) (loop.laps rounds depth rounds))

/-- One round as the tree has it: there is a scope for the body and the increment. -/
def nestedLap : Eval Flow :=
  match loop.increment with
  | none => loop.lap rounds depth
  | some _ => Eval.inBlock (loop.lap rounds depth)

/-- What the tree does, with all the parts of the loop nested to the same depth. -/
def nested : Eval Flow :=
  let repeated := Eval.loop (loop.test rounds depth) (loop.nestedLap rounds depth) rounds
  match loop.initializer with
  | none => repeated
  | some initializer => Eval.inBlock (Eval.andThen (initializer.execute rounds depth) repeated)

end Meaning

section Depth

open Eval

/-- The tree of one round. -/
def lapTree (loop : ForLoop) : Stmt :=
  match loop.increment with
  | some increment => .block [loop.body, .expression increment]
  | none => loop.body

/-- The tree of the rounds. -/
def lapsTree (loop : ForLoop) : Stmt :=
  .whileDo (loop.condition.getD (.literal (.bool true))) loop.lapTree

theorem tree_eq (loop : ForLoop) :
    loop.tree =
      match loop.initializer with
      | some initializer => .block [initializer, loop.lapsTree]
      | none => loop.lapsTree := by
  rfl

variable (loop : ForLoop) (rounds : Nat) {depth deeper : Nat}

theorem test_deepens (isDeeper : depth ≤ deeper) :
    Deepens (loop.test rounds deeper)
      ((loop.condition.getD (.literal (.bool true))).evaluate rounds depth) := by
  unfold test
  cases loop.condition with
  | some condition => exact condition.evaluate_deepens rounds isDeeper
  | none =>
      cases depth with
      | zero =>
          rw [Expr.evaluate]
          exact .tooDeep _
      | succ depth =>
          rw [Option.getD_none, Expr.evaluate]
          exact .refl _

theorem nestedLap_deepens (isDeeper : depth ≤ deeper) :
    Deepens (loop.nestedLap rounds deeper) (loop.lapTree.execute rounds depth) := by
  unfold nestedLap lapTree lap
  cases loop.increment with
  | none => exact loop.body.execute_deepens rounds isDeeper
  | some increment =>
      -- The increment is an expression in a statement in a block.
      match depth with
      | 0 =>
          rw [Stmt.execute]
          exact .tooDeep _
      | 1 =>
          rw [Stmt.execute, sequence_pair, Stmt.execute]
          exact .inBlock (.tooDeep _)
      | depth + 2 =>
          rw [Stmt.execute, sequence_pair, Stmt.execute]
          have bodyDeepens := loop.body.execute_deepens rounds (Nat.le_of_succ_le isDeeper)
          have isDeeper : depth ≤ deeper := Nat.le_of_succ_le (Nat.le_of_succ_le isDeeper)
          exact .inBlock (.andThen bodyDeepens
            ((increment.evaluate_deepens rounds isDeeper).bind fun _ => .refl _))

theorem repeated_deepens (isDeeper : depth ≤ deeper) :
    Deepens (Eval.loop (loop.test rounds deeper) (loop.nestedLap rounds deeper) rounds)
      (loop.lapsTree.execute rounds depth) := by
  unfold lapsTree
  cases depth with
  | zero =>
      rw [Stmt.execute]
      exact .tooDeep _
  | succ depth =>
      have isDeeper : depth ≤ deeper := Nat.le_of_succ_le isDeeper
      rw [Stmt.execute]
      exact .loop (loop.test_deepens rounds isDeeper) (loop.nestedLap_deepens rounds isDeeper)
        rounds

/-- The tree does what its parts do together, if they may nest as deeply. -/
theorem nested_deepens (isDeeper : depth ≤ deeper) :
    Deepens (loop.nested rounds deeper) (loop.tree.execute rounds depth) := by
  rw [tree_eq]
  unfold nested
  cases loop.initializer with
  | none => exact loop.repeated_deepens rounds isDeeper
  | some initializer =>
      cases depth with
      | zero =>
          rw [Stmt.execute]
          exact .tooDeep _
      | succ depth =>
          have isDeeper : depth ≤ deeper := Nat.le_of_succ_le isDeeper
          rw [Stmt.execute, sequence_pair]
          exact .inBlock (.andThen (initializer.execute_deepens rounds isDeeper)
            (loop.repeated_deepens rounds isDeeper))

theorem lapTree_deepens :
    Deepens (loop.lapTree.execute rounds (depth + 2)) (loop.nestedLap rounds depth) := by
  unfold nestedLap lapTree lap
  cases loop.increment with
  | none => exact loop.body.execute_deepens rounds (Nat.le_add_right depth 2)
  | some increment =>
      rw [Stmt.execute, sequence_pair, Stmt.execute]
      exact .inBlock
        (.andThen (loop.body.execute_deepens rounds (Nat.le_add_right depth 1)) (.refl _))

theorem lapsTree_deepens :
    Deepens (loop.lapsTree.execute rounds (depth + 3))
      (Eval.loop (loop.test rounds depth) (loop.nestedLap rounds depth) rounds) := by
  have tests : Deepens ((loop.condition.getD (.literal (.bool true))).evaluate rounds (depth + 2))
      (loop.test rounds depth) := by
    unfold test
    cases loop.condition with
    | none =>
        rw [Option.getD_none, Expr.evaluate]
        exact .refl _
    | some condition => exact condition.evaluate_deepens rounds (Nat.le_add_right depth 2)
  unfold lapsTree
  rw [Stmt.execute]
  exact .loop tests (loop.lapTree_deepens rounds) rounds

/-- The parts do together what the tree does, if that may nest a bit more deeply. -/
theorem tree_deepens (isDeeper : depth + 4 ≤ deeper) :
    Deepens (loop.tree.execute rounds deeper) (loop.nested rounds depth) := by
  refine .trans (loop.tree.execute_deepens rounds isDeeper) ?_
  rw [tree_eq]
  unfold nested
  cases loop.initializer with
  | none =>
      exact .trans (loop.lapsTree.execute_deepens rounds (Nat.le_succ _))
        (loop.lapsTree_deepens rounds)
  | some initializer =>
      rw [Stmt.execute, sequence_pair]
      exact .inBlock (.andThen (initializer.execute_deepens rounds (Nat.le_add_right depth 3))
        (loop.lapsTree_deepens rounds))

end Depth

section Alignment

open Scriptlet.Alignment

variable {loop : ForLoop} (plain : loop.body.Plain) (rounds depth : Nat)

theorem test_agree : Agree Values (loop.test rounds depth) (loop.test rounds depth) := by
  intro alignment machine machine' machines
  unfold test
  cases loop.condition with
  | none => exact .pure machines (.constant _)
  | some condition => exact Alignment.evaluate rounds depth condition machines

include plain

theorem lap_agree : Agree Flows (loop.lap rounds depth) (loop.lap rounds depth) := by
  intro alignment machine machine' machines
  have bodies := Alignment.execute rounds depth loop.body machines (.inl plain)
  unfold lap
  cases loop.increment with
  | none => exact bodies
  | some increment =>
      refine bodies.bind fun _ machines flows => ?_
      cases flows with
      | returned values => exact .pure machines (.returned values)
      | next =>
          exact (Alignment.evaluate rounds depth increment machines).bind fun _ machines _ =>
            .pure machines .next

/-- The scope that the tree has for a round stays empty, since the body declares nothing in it. -/
theorem nestedLap_agree : Agree Flows (loop.nestedLap rounds depth) (loop.lap rounds depth) := by
  intro alignment machine machine' machines
  unfold nestedLap
  cases loop.increment with
  | none => exact lap_agree plain rounds depth machines
  | some increment =>
      exact .inScopeLeft machines fun machines => lap_agree plain rounds depth machines

theorem laps_agree (count : Nat) :
    Agree Flows (Eval.loop (loop.test rounds depth) (loop.nestedLap rounds depth) count)
      (loop.laps rounds depth count) := by
  intro alignment machine machine' machines
  induction count generalizing alignment machine machine' with
  | zero => exact .stop machines _
  | succ count ih =>
      refine (test_agree rounds depth machines).bind fun _ machines values => ?_
      rw [values.isTruthy]
      split
      · refine (nestedLap_agree plain rounds depth machines).bind fun _ machines flows => ?_
        cases flows with
        | next => exact ih machines
        | returned values => exact .pure machines (.returned values)
      · exact .pure machines .next

/--
The scope of the whole loop is the same on both sides if there is an initializer, which may declare
a variable there. Otherwise the tree has no such scope, and on the other side it stays empty.
-/
theorem nested_agree : Agree Flows (loop.nested rounds depth) (loop.run rounds depth) := by
  intro alignment machine machine' machines
  unfold nested run
  cases loop.initializer with
  | none =>
      exact .inScopeRight machines fun machines => laps_agree plain rounds depth rounds machines
  | some initializer =>
      refine .inScopes machines rfl rfl machines.sees (fun _ => .none) fun _ machines pairs => ?_
      refine (Alignment.execute rounds depth initializer machines (.inr pairs)).bind
        fun _ machines flows => ?_
      cases flows with
      | next => exact laps_agree plain rounds depth rounds machines
      | returned values => exact .pure machines (.returned values)

end Alignment

end ForLoop

namespace Grammar

open Scriptlet.Parser

/-- A `for` loop, after its keyword. -/
def forLoop (depth : Nat) (inFunction : Bool) : Parser ForLoop := do
  let _ ← expect .leftParen .parenAfterFor
  let first ← initializer depth
  let test ← optional depth .semicolon
  let _ ← expect .semicolon .semicolonAfterLoopCondition
  let increment ← optional depth .rightParen
  let _ ← expect .rightParen .parenAfterClauses
  let body ← statement depth inFunction
  return ⟨first, test, increment, body⟩

theorem statement_of_for (depth : Nat) (inFunction : Bool) {token : Token}
    (isFor : token.kind = .kwFor) (rest : List Token) :
    statement (depth + 1) inFunction (token :: rest) =
      (forLoop depth inFunction >>= fun loop => pure loop.tree) rest := by
  rw [statement, accept_bind_of_mem _ rest (by simp [isFor])]
  simp only [isFor, forLoop, bind_assoc, pure_bind]
  rfl

/-- The body of a loop is read as a statement, so that it is no declaration. -/
theorem forLoop_yields (depth : Nat) (inFunction : Bool) :
    Yields (fun _ => True) (fun loop : ForLoop => loop.body.Plain) (forLoop depth inFunction) :=
  (Yields.expect _ _).bind fun _ => (initializer_yields depth).bind fun _ =>
    (optional_yields depth _).bind fun _ => (Yields.expect _ _).bind fun _ =>
      (optional_yields depth _).bind fun _ => (Yields.expect _ _).bind fun _ =>
        (statement_yields depth inFunction).bind fun body => .pure body.2

end Grammar

/--
Whatever `for` loop is read, its tree is executed like the loop itself: if one of the two does not
nest too deeply, the other one comes to the same if it may nest deeply enough. Both stop with the
same error, or end in the same way. The scopes that were there before are the same afterwards, and
any others are the same too, or only one of the runs has them, and nothing is bound in them.
-/
theorem ForLoop.execute_tree {token : Token} (isFor : token.kind = .kwFor) {depth : Nat}
    {inFunction : Bool} {tokens rest : List Token} {tree : Stmt} {noted : List SyntaxError}
    (read : Grammar.statement (depth + 1) inFunction (token :: tokens) = .done tree rest noted) :
    ∃ loop : ForLoop, Grammar.forLoop depth inFunction tokens = .done loop rest noted ∧
      loop.tree = tree ∧
      ∀ (machine : Machine), machine.WellFormed → ∀ rounds depth deeper : Nat,
        ((∀ after, tree.execute rounds depth machine ≠ .error .tooDeep after) → depth ≤ deeper →
          (Alignment.self machine.store).Results Alignment.Flows machine machine
            (tree.execute rounds depth machine) (loop.run rounds deeper machine)) ∧
        ((∀ after, loop.run rounds depth machine ≠ .error .tooDeep after) → depth + 4 ≤ deeper →
          (Alignment.self machine.store).Results Alignment.Flows machine machine
            (tree.execute rounds deeper machine) (loop.run rounds depth machine)) := by
  rw [Grammar.statement_of_for depth inFunction isFor] at read
  rcases Parser.bind_eq_done read with ⟨loop, between, early, later, loopRead, treeRead, rfl⟩
  rcases Parser.pure_eq_done treeRead with ⟨rfl, rfl, rfl⟩
  have plain := (Grammar.forLoop_yields depth inFunction).of_done loopRead
  refine ⟨loop, by simpa using loopRead, rfl, fun machine wellFormed rounds depth deeper => ?_⟩
  have agree := fun depth => nested_agree plain rounds depth (Alignment.self_machines wellFormed)
  constructor
  · intro finishes isDeeper
    rcases loop.nested_deepens rounds isDeeper machine with ⟨after, stopped⟩ | same
    · exact absurd stopped (finishes after)
    · rw [← same]
      exact agree deeper
  · intro finishes isDeeper
    rcases loop.tree_deepens rounds isDeeper machine with ⟨after, stopped⟩ | same
    · -- The nested loop goes the way of the loop itself, which does not stop like this.
      have results := agree depth
      rw [stopped] at results
      generalize loop.run rounds depth machine = result at results finishes
      cases results with
      | error _ _ => exact absurd rfl (finishes _)
    · rw [same]
      exact agree depth

/-- In `for (var a = true; a; a = false) print a;` the loop has a scope, and so has a round. -/
theorem ForLoop.execute_tree_print :
    let token := fun (kind : Token.Kind) (lexeme : String) => Token.mk kind lexeme .null 1
    let name := token .identifier "a"
    let tokens := [token .leftParen "(", token .kwVar "var", name, token .equal "=",
      token .kwTrue "true", token .semicolon ";", name, token .semicolon ";", name,
      token .equal "=", token .kwFalse "false", token .rightParen ")", token .kwPrint "print", name,
      token .semicolon ";"]
    let tree := Stmt.block [.declare name (some (.literal (.bool true))), .whileDo (.read name)
      (.block [.print (.read name), .expression (.assign name (.literal (.bool false)))])]
    let ended : Machine :=
      ⟨⟨#[⟨none, []⟩, ⟨some 0, [("a", .bool false)]⟩, ⟨some 1, []⟩]⟩, 0, 0, 0, "true\n"⟩
    Grammar.statement 30 false (token .kwFor "for" :: tokens) = .done tree [] [] ∧
    tree.execute 9 9 .initial = .ok .next ended ∧
    ∃ loop : ForLoop, Grammar.forLoop 29 false tokens = .done loop [] [] ∧
      (Alignment.self .initial).Results Alignment.Flows .initial .initial (.ok .next ended)
        (loop.run 9 9 .initial) := by
  intro token name tokens tree ended
  have read : Grammar.statement 30 false (token .kwFor "for" :: tokens) = .done tree [] [] := rfl
  have ran : tree.execute 9 9 .initial = .ok .next ended := rfl
  rcases ForLoop.execute_tree rfl read with ⟨loop, loopRead, isTree, alike⟩
  have finishes : ∀ after, tree.execute 9 9 .initial ≠ .error .tooDeep after := by simp [ran]
  have results := (alike .initial Machine.wellFormed_initial 9 9 9).1 finishes (Nat.le_refl 9)
  rw [ran] at results
  exact ⟨read, ran, loop, loopRead, results⟩

end Scriptlet
