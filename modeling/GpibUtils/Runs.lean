import Mathlib.Data.List.Basic

/-!
# Runs of a system under assumptions

A system takes one action after another; what its users and its surroundings promise is a
relation between a state and the next action. A run keeps the promises when each action keeps
them in the state it is taken in. What one such action preserves, such a run preserves, and
what holds of every such action in a state that the invariant admits holds of every action of
the run.
-/

namespace Runs

variable {σ α : Type} (step : σ → α → σ)

/-- The state after some actions. -/
def run (state : σ) (actions : List α) : σ := actions.foldl step state

/-- Every action is taken in a state in which it keeps the promises. -/
def Along (promise : σ → α → Prop) (state : σ) : List α → Prop
  | [] => True
  | action :: later => promise state action ∧ Along promise (step state action) later

/-- Whether a run keeps promises that can be decided is decided by going through it. -/
instance Along.decidable (promise : σ → α → Prop) [∀ s a, Decidable (promise s a)] :
    (state : σ) → (actions : List α) → Decidable (Along step promise state actions)
  | _, [] => .isTrue trivial
  | state, action :: later =>
    have := Along.decidable promise (step state action) later
    inferInstanceAs (Decidable (_ ∧ _))

variable {step} {promise : σ → α → Prop}

/-- A run that keeps its promises keeps them up to every action, and with that action. -/
theorem Along.split {state : σ} {before later : List α} {action : α}
    (along : Along step promise state (before ++ action :: later)) :
    Along step promise state before ∧ promise (run step state before) action := by
  induction before generalizing state with
  | nil => exact ⟨trivial, along.1⟩
  | cons first before ih =>
    obtain ⟨front, kept⟩ := ih along.2
    exact ⟨⟨along.1, front⟩, kept⟩

/-- Promises are kept along a run exactly when they are along its first part, and along the rest
from where that leads. -/
theorem Along.append {state : σ} {before later : List α} :
    Along step promise state (before ++ later) ↔
      Along step promise state before ∧ Along step promise (run step state before) later := by
  induction before generalizing state with
  | nil => exact (iff_of_eq (true_and _)).symm
  | cons action before ih => exact (and_congr Iff.rfl ih).trans and_assoc.symm

/-- A run of actions that each meet a condition keeps its promises together with it. -/
theorem Along.and_forall {condition : α → Prop} {state : σ} {actions : List α}
    (along : Along step promise state actions) (each : ∀ action ∈ actions, condition action) :
    Along step (fun state action => promise state action ∧ condition action) state actions := by
  induction actions generalizing state with
  | nil => trivial
  | cons action later ih =>
    refine ⟨⟨along.1, each action List.mem_cons_self⟩, ih along.2 fun other member => ?_⟩
    exact each other (List.mem_cons_of_mem _ member)

/-- Promises that say the same of every promised action are kept together. -/
theorem Along.congr {first second : σ → α → Prop} {state : σ} {actions : List α}
    (along : Along step promise state actions)
    (same : ∀ state action, promise state action → (first state action ↔ second state action)) :
    Along step first state actions ↔ Along step second state actions := by
  induction actions generalizing state with
  | nil => exact Iff.rfl
  | cons action later ih => exact and_congr (same state action along.1) (ih along.2)

/-- An invariant that every action keeps holds after every run. -/
theorem run_invariant {inv : σ → Prop} (keeps : ∀ state action, inv state → inv (step state action))
    {state : σ} (start : inv state) (actions : List α) : inv (run step state actions) := by
  induction actions generalizing state with
  | nil => exact start
  | cons action later ih => exact ih (keeps state action start)

/-- An invariant that every promised action keeps holds after every promised run. -/
theorem Along.invariant {inv : σ → Prop}
    (keeps : ∀ state action, inv state → promise state action → inv (step state action))
    {state : σ} {actions : List α} (start : inv state) (along : Along step promise state actions) :
    inv (run step state actions) := by
  induction actions generalizing state with
  | nil => exact start
  | cons action later ih => exact ih (keeps state action start along.1) along.2

/-- A fact about the promised actions of admitted states is one about every action of a
promised run. -/
theorem Along.each {inv : σ → Prop} {fact : σ → α → Prop}
    (keeps : ∀ state action, inv state → promise state action → inv (step state action))
    (gives : ∀ state action, inv state → promise state action → fact state action)
    {state : σ} {actions : List α} (start : inv state) (along : Along step promise state actions)
    {before later : List α} {action : α} (split : actions = before ++ action :: later) :
    fact (run step state before) action := by
  subst split
  obtain ⟨front, kept⟩ := along.split
  exact gives _ _ (front.invariant keeps start) kept

/-- Two systems go through the same states on every part of a run from its start, exactly when each
action of the run does the same in both. -/
theorem run_eq_iff {other : σ → α → σ} {state : σ} {actions : List α} :
    (∀ before later, actions = before ++ later → run step state before = run other state before) ↔
      Along step (fun state action => step state action = other state action) state actions := by
  induction actions generalizing state with
  | nil =>
    refine ⟨fun _ => trivial, fun _ before later split => ?_⟩
    rw [(List.append_eq_nil_iff.mp split.symm).1]
    rfl
  | cons action actions ih =>
    constructor
    · intro same
      have first : step state action = other state action := same [action] actions rfl
      refine ⟨first, ih.mp fun before later split => ?_⟩
      have longer := same (action :: before) later (by rw [split]; rfl)
      rw [run, run, List.foldl_cons, List.foldl_cons, ← first] at longer
      exact longer
    · intro along before later split
      cases before with
      | nil => rfl
      | cons first before =>
        have parts := List.cons.inj split
        have rest := ih.mpr along.2 before later parts.2
        rw [run, run, List.foldl_cons, List.foldl_cons, ← parts.1, ← along.1]
        exact rest

end Runs
