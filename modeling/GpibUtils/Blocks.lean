import Mathlib.Data.List.Basic

/-!
# Sequences in blocks

A sequence is kept in blocks, each of which stands for a run of its elements. Elements are counted
across blocks: a place in the sequence is a place in one block, and what is done there is done to
the sequence at that place.
-/

namespace Blocks

variable {β α : Type} (elems : β → List α)

/-- The sequence that blocks stand for. -/
def all (blocks : List β) : List α := blocks.flatMap elems

/-- A block among others, and a place in it. -/
structure Spot (β : Type) where
  before : List β
  block : β
  after : List β
  place : Nat

/-- The block that an element of the sequence is in. -/
def locate : List β → Nat → Option (Spot β)
  | [], _ => none
  | block :: blocks, n =>
    if n < (elems block).length then some ⟨[], block, blocks, n⟩
    else (locate blocks (n - (elems block).length)).map fun spot =>
      { spot with before := block :: spot.before }

@[simp] theorem all_nil : all elems [] = [] := rfl

@[simp] theorem all_cons (block : β) (blocks : List β) :
    all elems (block :: blocks) = elems block ++ all elems blocks := List.flatMap_cons

@[simp] theorem all_append (front back : List β) :
    all elems (front ++ back) = all elems front ++ all elems back := List.flatMap_append

variable {elems}

/-- Where a spot is. -/
theorem locate_spec {blocks : List β} {n : Nat} {spot : Spot β}
    (located : locate elems blocks n = some spot) :
    blocks = spot.before ++ spot.block :: spot.after ∧ spot.place < (elems spot.block).length ∧
      n = (all elems spot.before).length + spot.place := by
  induction blocks generalizing n spot with
  | nil => cases located
  | cons block blocks ih =>
    rw [locate] at located
    split at located
    · rename_i inside
      cases located
      exact ⟨rfl, inside, (Nat.zero_add _).symm⟩
    · rename_i behind
      obtain ⟨later, found, rfl⟩ := Option.map_eq_some_iff.mp located
      obtain ⟨split, inside, place⟩ := ih found
      refine ⟨congrArg (block :: ·) split, inside, ?_⟩
      rw [all_cons, List.length_append]
      dsimp only
      omega

/-- Every element of the sequence is in a block. -/
theorem locate_of_lt {blocks : List β} {n : Nat} (inside : n < (all elems blocks).length) :
    ∃ spot, locate elems blocks n = some spot := by
  induction blocks generalizing n with
  | nil => exact absurd inside (Nat.not_lt_zero _)
  | cons block blocks ih =>
    rw [all_cons, List.length_append] at inside
    rw [locate]
    by_cases first : n < (elems block).length
    · exact ⟨_, if_pos first⟩
    · obtain ⟨spot, found⟩ := ih (n := n - (elems block).length) (by omega)
      exact ⟨_, by rw [if_neg first, found]; rfl⟩

/-- The element at a place is the one at the place in its block. -/
theorem getElem?_all {blocks : List β} {n : Nat} {spot : Spot β}
    (located : locate elems blocks n = some spot) :
    (all elems blocks)[n]? = (elems spot.block)[spot.place]? := by
  obtain ⟨split, inside, rfl⟩ := locate_spec located
  rw [split, all_append, all_cons, List.getElem?_append_right (Nat.le_add_right _ _),
    Nat.add_sub_cancel_left, List.getElem?_append_left inside]

/-- The sequence without an element is that of the blocks with one of them without it. -/
theorem eraseIdx_all {blocks : List β} {n : Nat} {spot : Spot β}
    (located : locate elems blocks n = some spot) :
    (all elems blocks).eraseIdx n =
      all elems spot.before ++ ((elems spot.block).eraseIdx spot.place ++
        all elems spot.after) := by
  obtain ⟨split, inside, rfl⟩ := locate_spec located
  rw [split, all_append, all_cons, List.eraseIdx_append_of_length_le (Nat.le_add_right _ _),
    Nat.add_sub_cancel_left, List.eraseIdx_append_of_lt_length inside]

end Blocks
