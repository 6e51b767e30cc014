import Mathlib.Logic.Function.Basic

/-!
# Records kept by key

Events are about records that are kept by key. An event makes the record of its key if there is
none, and changes it. However the events of different keys are mixed, the record of a key is what
the events of that key have made of a new one.
-/

namespace Keyed

variable {κ ρ ε : Type} [DecidableEq κ] (key : ε → κ) (new : κ → ρ) (change : ρ → ε → ρ)

/-- The records after an event. -/
def update (table : κ → Option ρ) (event : ε) : κ → Option ρ :=
  Function.update table (key event)
    (some (change ((table (key event)).getD (new (key event))) event))

/-- The events of a key. -/
def history (k : κ) (events : List ε) : List ε := events.filter fun event => key event = k

/-- An event of another key changes nothing. -/
theorem update_of_ne {table : κ → Option ρ} {event : ε} {k : κ} (other : key event ≠ k) :
    update key new change table event k = table k :=
  Function.update_of_ne (Ne.symm other) _ _

/-- An event of a key changes its record. -/
theorem update_self {table : κ → Option ρ} {event : ε} {k : κ} (same : key event = k) :
    update key new change table event k = some (change ((table k).getD (new k)) event) := by
  subst same
  exact Function.update_self ..

/-- An event of a key is part of its history. -/
theorem history_cons_self {event : ε} {k : κ} (same : key event = k) (events : List ε) :
    history key k (event :: events) = event :: history key k events :=
  List.filter_cons_of_pos (decide_eq_true same)

/-- An event of another key is not. -/
theorem history_cons_of_ne {event : ε} {k : κ} (other : key event ≠ k) (events : List ε) :
    history key k (event :: events) = history key k events :=
  List.filter_cons_of_neg (by simpa using other)

/-- A key has a history exactly when there is an event of it. -/
theorem history_eq_nil_iff {k : κ} {events : List ε} :
    history key k events = [] ↔ ∀ event ∈ events, key event ≠ k := by
  simp [history]

/-- The record of a key that has one is changed by the events of the key. -/
theorem foldl_update_some (events : List ε) {table : κ → Option ρ} {k : κ} {record : ρ}
    (kept : table k = some record) :
    events.foldl (update key new change) table k =
      some ((history key k events).foldl change record) := by
  induction events generalizing table record with
  | nil => exact kept
  | cons event events ih =>
    rw [List.foldl_cons]
    by_cases same : key event = k
    · have changed := @update_self κ ρ ε _ key new change table event k same
      rw [kept, Option.getD_some] at changed
      rw [history_cons_self key same]
      exact ih changed
    · have left := @update_of_ne κ ρ ε _ key new change table event k same
      rw [history_cons_of_ne key same]
      exact ih (left.trans kept)

/-- There is a record of a key exactly when there is an event of it, and it is what the events of
the key have made of a new one. -/
theorem foldl_update_none (events : List ε) {table : κ → Option ρ} {k : κ}
    (absent : table k = none) :
    events.foldl (update key new change) table k =
      if history key k events = [] then none
      else some ((history key k events).foldl change (new k)) := by
  induction events generalizing table with
  | nil => exact absent
  | cons event events ih =>
    rw [List.foldl_cons]
    by_cases same : key event = k
    · have changed := @update_self κ ρ ε _ key new change table event k same
      rw [absent, Option.getD_none] at changed
      rw [history_cons_self key same, if_neg (List.cons_ne_nil _ _)]
      exact foldl_update_some key new change events changed
    · have left := @update_of_ne κ ρ ε _ key new change table event k same
      rw [history_cons_of_ne key same]
      exact ih (left.trans absent)

end Keyed
