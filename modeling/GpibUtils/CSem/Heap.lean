import Mathlib.Data.List.Basic

/-!
# Blocks of memory

A block is what it has in its cells. Memory that is allocated has the size that was asked for, and
anything in it; a cell outside a block cannot be written.
-/

namespace CSem

/-- What allocates memory. -/
structure Heap (α : Type) where
  malloc : Nat → List α
  length_malloc : ∀ size, (malloc size).length = size

/-- Write a cell of a block. -/
def put {α : Type} (block : List α) (i : Nat) (value : α) : Option (List α) :=
  if i < block.length then some (block.set i value) else none

/-- The cell behind a front is written. -/
theorem put_append {α : Type} (front rest : List α) (old new : α) :
    put (front ++ old :: rest) front.length new = some (front ++ new :: rest) := by
  have inside : front.length < (front ++ old :: rest).length := by simp
  rw [put, if_pos inside, List.set_append_right _ _ (Nat.le_refl _), Nat.sub_self,
    List.set_cons_zero]

end CSem
