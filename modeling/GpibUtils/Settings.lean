import Mathlib.Logic.Function.Basic

/-!
# Settings in memory and in flash

A device runs with active settings, starts with those in its flash memory, and knows the ones it
left the factory with. Each action moves settings from one place to another, or changes one that
is active.
-/

namespace Settings

/-- The settings of a device, each with its own type of values. -/
structure Store (ι : Type) (β : ι → Type) where
  active : (name : ι) → β name
  flash : (name : ι) → β name
  factory : (name : ι) → β name

/-- What can be done with settings. -/
inductive Action (ι : Type) (β : ι → Type) where
  /-- Change one active setting. -/
  | set (name : ι) (value : β name)
  /-- Make active what is in flash. -/
  | reload
  /-- Put what is active in flash. -/
  | commit
  /-- Put the factory settings in flash. -/
  | reset

variable {ι : Type} {β : ι → Type} [DecidableEq ι]

/-- The settings after an action. -/
def Store.act (store : Store ι β) : Action ι β → Store ι β
  | .set name value => { store with active := Function.update store.active name value }
  | .reload => { store with active := store.flash }
  | .commit => { store with flash := store.active }
  | .reset => { store with flash := store.factory }

/-- What was set is active. -/
@[simp] theorem Store.active_set (store : Store ι β) (name : ι) (value : β name) :
    (store.act (.set name value)).active name = value := Function.update_self ..

/-- Other settings stay as they are. -/
theorem Store.active_set_of_ne (store : Store ι β) {name other : ι} (different : other ≠ name)
    (value : β name) : (store.act (.set name value)).active other = store.active other :=
  Function.update_of_ne different ..

/-- Settings that are set one after the other, in any order, are active, and all others stay as they
are. -/
theorem Store.sets_spec (values : (name : ι) → β name) (names : List ι) (store : Store ι β) :
    let after := names.foldl (fun store name => store.act (.set name (values name))) store
    (∀ name, after.active name = if name ∈ names then values name else store.active name) ∧
      after.flash = store.flash ∧ after.factory = store.factory := by
  induction names generalizing store with
  | nil => exact ⟨fun name => (if_neg List.not_mem_nil).symm, rfl, rfl⟩
  | cons first names ih =>
    obtain ⟨active, flash, factory⟩ := ih (store.act (.set first (values first)))
    refine ⟨fun name => (active name).trans ?_, flash, factory⟩
    by_cases later : name ∈ names
    · rw [if_pos later, if_pos (List.mem_cons_of_mem first later)]
    · rw [if_neg later]
      by_cases same : name = first
      · rw [if_pos (same ▸ List.mem_cons_self), same, store.active_set]
      · have absent : name ∉ first :: names := by simp [same, later]
        rw [if_neg absent, store.active_set_of_ne same]

/-- A reload and a reset do the same only where both do nothing. -/
theorem reload_eq_reset_iff (store : Store ι β) :
    store.act .reload = store.act .reset ↔
      store.active = store.flash ∧ store.flash = store.factory := by
  constructor
  · intro same
    have active := congrArg Store.active same
    have flash := congrArg Store.flash same
    exact ⟨active.symm, flash⟩
  · intro ⟨clean, initial⟩
    simp only [Store.act]
    rw [← clean, ← initial, clean]

end Settings
