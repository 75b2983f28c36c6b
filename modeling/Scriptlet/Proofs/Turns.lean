/-!
# Turns

A machine that takes one input after the other: every input makes a turn, until a step fails. What
one step keeps is kept in all turns (`Takes.keeps`). The turns on given inputs can be computed, and
what is found of them then holds of turns that are taken (`exists_takes_of_turnsOn`).
-/

namespace Scriptlet

/-- An input that was taken, with the answer to it and the states before and after it. -/
structure Turn (ι α σ : Type) where
  input : ι
  before : σ
  answer : α
  after : σ

section Takes

variable {ι ε σ α : Type} {step : ι → EStateM ε σ α}

/-- That a machine takes inputs in turn, from a first state to a last one. -/
inductive Takes (step : ι → EStateM ε σ α) (first : σ) : List (Turn ι α σ) → σ → Prop
  | nil : Takes step first [] first
  | snoc {turns : List (Turn ι α σ)} {last after : σ} {input : ι} {answer : α}
      (earlier : Takes step first turns last) (took : step input last = .ok answer after) :
      Takes step first (turns ++ [⟨input, last, answer, after⟩]) after

/-- The inputs are all taken, or the step on one of them fails. -/
theorem exists_takes (step : ι → EStateM ε σ α) (first : σ) (inputs : List ι) :
    (∃ turns last, Takes step first turns last ∧ turns.map Turn.input = inputs) ∨
    ∃ turns last input rest failure stopped, Takes step first turns last ∧
      inputs = turns.map Turn.input ++ input :: rest ∧
      step input last = .error failure stopped := by
  suffices ∀ turns last, Takes step first turns last → ∀ inputs,
      (∃ turns' last', Takes step first turns' last' ∧
        turns'.map Turn.input = turns.map Turn.input ++ inputs) ∨
      ∃ turns' last' input rest failure stopped, Takes step first turns' last' ∧
        turns.map Turn.input ++ inputs = turns'.map Turn.input ++ input :: rest ∧
        step input last' = .error failure stopped from this [] first .nil inputs
  intro turns last takes inputs
  induction inputs generalizing turns last with
  | nil => exact .inl ⟨turns, last, takes, by simp⟩
  | cons input inputs ih =>
      cases took : step input last with
      | ok answer after => simpa using ih _ _ (takes.snoc took)
      | error failure stopped =>
          exact .inr ⟨turns, last, input, inputs, failure, stopped, takes, rfl, took⟩

/-- What holds at first and is kept by every step holds in all turns. -/
theorem Takes.keeps {Kept : σ → Prop} {first last : σ} {turns : List (Turn ι α σ)}
    (takes : Takes step first turns last) (atFirst : Kept first)
    (keeps : ∀ {input before answer after}, Kept before →
      step input before = .ok answer after → Kept after) :
    Kept last ∧ ∀ turn ∈ turns, Kept turn.before ∧ Kept turn.after ∧
      step turn.input turn.before = .ok turn.answer turn.after := by
  induction takes with
  | nil => exact ⟨atFirst, by simp⟩
  | snoc earlier took ih =>
      have kept := keeps ih.1 took
      refine ⟨kept, fun turn isTurn => ?_⟩
      rcases List.mem_append.1 isTurn with isEarlier | isLast
      · exact ih.2 turn isEarlier
      · cases List.mem_singleton.1 isLast
        exact ⟨ih.1, kept, took⟩

theorem Takes.cons {first after last : σ} {input : ι} {answer : α} {turns : List (Turn ι α σ)}
    (took : step input first = .ok answer after) (takes : Takes step after turns last) :
    Takes step first (⟨input, first, answer, after⟩ :: turns) last := by
  induction takes with
  | nil => exact Takes.nil.snoc took
  | snoc earlier later ih => exact ih.snoc later

/-- The turns on inputs and the state after them, if no step fails. -/
def turnsOn (step : ι → EStateM ε σ α) (first : σ) : List ι → Option (List (Turn ι α σ) × σ)
  | [] => some ([], first)
  | input :: rest =>
    match step input first with
    | .ok answer after =>
      (turnsOn step after rest).map fun (turns, last) =>
        (⟨input, first, answer, after⟩ :: turns, last)
    | .error .. => none

theorem takes_of_turnsOn {first last : σ} {inputs : List ι} {turns : List (Turn ι α σ)}
    (isTurns : turnsOn step first inputs = some (turns, last)) :
    Takes step first turns last ∧ turns.map Turn.input = inputs := by
  induction inputs generalizing first turns with
  | nil =>
      cases isTurns
      exact ⟨.nil, rfl⟩
  | cons input rest ih =>
      unfold turnsOn at isTurns
      split at isTurns
      · rename_i answer after took
        rcases Option.map_eq_some_iff.1 isTurns with ⟨⟨later, _⟩, isLater, same⟩
        cases same
        rcases ih isLater with ⟨takes, isRest⟩
        exact ⟨takes.cons took, congrArg (input :: ·) isRest⟩
      · contradiction

theorem exists_takes_of_turnsOn {first : σ} {inputs : List ι}
    {Found : List (Turn ι α σ) → σ → Prop} [∀ turns last, Decidable (Found turns last)]
    (isFound : (turnsOn step first inputs).any (fun taken => Found taken.1 taken.2) = true) :
    ∃ turns last, (Takes step first turns last ∧ turns.map Turn.input = inputs) ∧
      Found turns last := by
  cases isTurns : turnsOn step first inputs with
  | none =>
      rw [isTurns] at isFound
      contradiction
  | some taken =>
      rw [isTurns] at isFound
      exact ⟨_, _, takes_of_turnsOn isTurns, of_decide_eq_true isFound⟩

end Takes

end Scriptlet
