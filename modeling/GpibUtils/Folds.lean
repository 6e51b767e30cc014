import Mathlib.Data.List.Basic

/-!
# Folds that keep apart what differs

A step that is injective in the state keeps different states apart for as long as it goes on, and
one that is injective in the item too tells sequences apart that differ in one item. A step that
respects an operation on states and items is a fold that respects it. What the last item of a kind
decides is decided by the last one of the sequence.
-/

namespace Folds

open Function

variable {σ α : Type} {step : σ → α → σ}

/-- Different states stay different over the same items. -/
theorem foldl_injective (byState : ∀ item, Injective fun state => step state item)
    (items : List α) : Injective fun state => items.foldl step state := by
  induction items with
  | nil => exact injective_id
  | cons item items ih => exact ih.comp (byState item)

/-- Sequences that differ in one item end in different states. -/
theorem foldl_ne (byState : ∀ item, Injective fun state => step state item)
    (byItem : ∀ state, Injective (step state)) (state : σ) (front back : List α) {x y : α}
    (differ : x ≠ y) :
    (front ++ x :: back).foldl step state ≠ (front ++ y :: back).foldl step state := by
  rw [List.foldl_append, List.foldl_append, List.foldl_cons, List.foldl_cons]
  intro same
  exact differ (byItem _ (foldl_injective byState back same))

/-- A fold respects what its step respects. -/
theorem foldl_zipWith {op : σ → σ → σ} {item : α → α → α}
    (respects : ∀ s t x y, step (op s t) (item x y) = op (step s x) (step t y))
    {xs ys : List α} (lengths : xs.length = ys.length) (s t : σ) :
    (List.zipWith item xs ys).foldl step (op s t) = op (xs.foldl step s) (ys.foldl step t) := by
  induction xs generalizing ys s t with
  | nil =>
    cases ys with
    | nil => rfl
    | cons y ys => cases lengths
  | cons x xs ih =>
    cases ys with
    | nil => cases lengths
    | cons y ys =>
      rw [List.zipWith_cons_cons, List.foldl_cons, respects]
      exact ih (Nat.succ.inj lengths) _ _

/-- Sequences of one length that differ at one place only, taken apart at it. -/
theorem exists_split {xs ys : List α} (lengths : xs.length = ys.length)
    (once : ∃! i : Nat, xs[i]? ≠ ys[i]?) :
    ∃ front x y back, x ≠ y ∧ xs = front ++ x :: back ∧ ys = front ++ y :: back := by
  induction xs generalizing ys with
  | nil =>
    cases ys with
    | nil =>
      obtain ⟨i, differ, _⟩ := once
      exact absurd rfl differ
    | cons y ys => cases lengths
  | cons x xs ih =>
    cases ys with
    | nil => cases lengths
    | cons y ys =>
      obtain ⟨i, differ, only⟩ := once
      by_cases first : x = y
      · cases i with
        | zero => exact absurd (congrArg some first) differ
        | succ i =>
          have later : ∃! i : Nat, xs[i]? ≠ ys[i]? := by
            refine ⟨i, differ, fun j other => ?_⟩
            exact Nat.succ.inj (only (j + 1) other)
          obtain ⟨front, u, v, back, ne, left, right⟩ := ih (Nat.succ.inj lengths) later
          exact ⟨x :: front, u, v, back, ne, by rw [left]; rfl, by rw [right, first]; rfl⟩
      · have here : 0 = i := only 0 fun same => first (Option.some.inj same)
        have rest : xs = ys := by
          apply List.ext_getElem?
          intro j
          by_contra other
          have place := only (j + 1) other
          omega
        exact ⟨[], x, y, xs, first, rfl, by rw [rest]; rfl⟩

/-- The last of what some items set is what the items after the first set, or what the first one
sets. -/
theorem getLastD_filterMap {β : Type} (set : α → Option β) (item : α) (items : List α) (start : β) :
    ((item :: items).filterMap set).getLastD start =
      (items.filterMap set).getLastD ((set item).getD start) := by
  cases value : set item with
  | none => rw [List.filterMap_cons_none value, Option.getD_none]
  | some last => rw [List.filterMap_cons_some value, List.getLastD_cons, Option.getD_some]

/-- A part of the state that each item sets or leaves is what the last item that sets it says. -/
theorem foldl_last {β : Type} {part : σ → β} {set : α → Option β}
    (each : ∀ state item, part (step state item) = (set item).getD (part state))
    (items : List α) (state : σ) :
    part (items.foldl step state) = (items.filterMap set).getLastD (part state) := by
  induction items generalizing state with
  | nil => rfl
  | cons item items ih => rw [List.foldl_cons, ih, each, getLastD_filterMap]

end Folds
