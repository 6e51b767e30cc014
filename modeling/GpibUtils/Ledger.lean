import Mathlib.Data.List.Basic

/-!
# Ledgers of what is gained and spent

A ledger is the list, in order, of what an owner is given and what it gives away. It is covered
when nothing is given away that the owner did not have at the time, so each thing is given away
at most as often as it was gained, and never before.
-/

namespace Ledger

variable {α : Type}

/-- One entry of a ledger. -/
inductive Entry (α : Type) where
  | gain (a : α)
  | spend (a : α)
  deriving DecidableEq

section
variable [DecidableEq α]

/-- How often a thing was gained. -/
def gains (log : List (Entry α)) (a : α) : Nat := log.count (.gain a)

/-- How often a thing was spent. -/
def spends (log : List (Entry α)) (a : α) : Nat := log.count (.spend a)

/-- Everything spent had been gained, and not been spent since. -/
def Covered (log : List (Entry α)) : Prop :=
  ∀ before a after, log = before ++ .spend a :: after → spends before a < gains before a

@[simp] theorem gains_append (front back : List (Entry α)) (a : α) :
    gains (front ++ back) a = gains front a + gains back a := List.count_append

@[simp] theorem spends_append (front back : List (Entry α)) (a : α) :
    spends (front ++ back) a = spends front a + spends back a := List.count_append

@[simp] theorem gains_nil (a : α) : gains [] a = 0 := rfl

@[simp] theorem spends_nil (a : α) : spends [] a = 0 := rfl

@[simp] theorem gains_gain (a b : α) : gains [.gain a] b = if a = b then 1 else 0 := by
  by_cases same : a = b <;> simp [gains, same]

@[simp] theorem gains_spend (a b : α) : gains [.spend a] b = 0 := by
  simp [gains]

@[simp] theorem spends_gain (a b : α) : spends [.gain a] b = 0 := by
  simp [spends]

@[simp] theorem spends_spend (a b : α) : spends [.spend a] b = if a = b then 1 else 0 := by
  by_cases same : a = b <;> simp [spends, same]

/-- An empty ledger is covered. -/
theorem covered_nil : Covered ([] : List (Entry α)) := by
  intro before a after split
  simp at split

/-- One more entry keeps a ledger covered when it is no spending, or a covered one. -/
theorem Covered.snoc {log : List (Entry α)} (covered : Covered log) {entry : Entry α}
    (last : ∀ a, entry = .spend a → spends log a < gains log a) : Covered (log ++ [entry]) := by
  intro before a after split
  rcases after.eq_nil_or_concat with rfl | ⟨between, final, rfl⟩
  · obtain ⟨rfl, same⟩ := List.append_inj' split rfl
    exact last a (List.cons.inj same).1
  · have front : log ++ [entry] = (before ++ .spend a :: between) ++ [final] := by
      simpa using split
    obtain ⟨inner, -⟩ := List.append_inj' front rfl
    exact covered before a between inner

end

end Ledger
