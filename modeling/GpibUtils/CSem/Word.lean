import Mathlib.Algebra.Order.Ring.Int

/-!
# Machine integers of C on an LP64 host

An `int` is an integer reduced into its signed 32-bit range after every conversion; an
`unsigned long` is a 64-bit word. Values inside the range are untouched, so a proof about a
counter that never leaves it may forget the conversion; a counter that does leave it keeps
its residue, which is what an overshoot of the source computes with.
-/

namespace CSem

/-- Conversion to `int`: the representative in the signed 32-bit range. -/
def toInt (x : Int) : Int := x.bmod (2 ^ 32)

/-- The largest `int`. -/
def intMax : Int := 2 ^ 31 - 1

/-- Conversion to a `char` of a host whose `char` is signed. -/
def toSChar (x : Int) : Int := x.bmod (2 ^ 8)

/-- Conversion to `unsigned long`: the residue modulo the word size. -/
def toULong (x : Int) : UInt64 := UInt64.ofInt x

/-- An integer already in range is its own `int`. -/
@[simp] theorem toInt_of_range {x : Int} (low : -2 ^ 31 ≤ x) (high : x ≤ intMax) :
    toInt x = x := by
  unfold intMax at high
  exact Int.bmod_eq_of_le (by omega) (by omega)

/-- Every conversion lands in the signed range. -/
theorem toInt_range (x : Int) : -2 ^ 31 ≤ toInt x ∧ toInt x ≤ intMax := by
  have low : -((2 ^ 32 : Nat) : Int) / 2 ≤ x.bmod (2 ^ 32) := by
    have := Int.le_bmod (x := x) (m := 2 ^ 32) (by decide)
    omega
  have high := Int.bmod_lt (x := x) (m := 2 ^ 32) (by decide)
  simp only [toInt, intMax]
  omega

/-- Subtracting a converted operand is subtracting the operand itself. -/
@[simp] theorem toInt_sub_toInt (x y : Int) : toInt (x - toInt y) = toInt (x - y) :=
  Int.sub_bmod_bmod

/-- Adding a converted operand is adding the operand itself. -/
@[simp] theorem toInt_add_toInt (x y : Int) : toInt (x + toInt y) = toInt (x + y) :=
  Int.add_bmod_bmod

/-- A nonnegative integer below the word size survives the conversion to `unsigned long`. -/
theorem toNat_toULong {x : Int} (low : 0 ≤ x) (high : x < 2 ^ 64) :
    (toULong x).toNat = x.toNat := by
  obtain ⟨n, rfl⟩ := Int.eq_ofNat_of_zero_le low
  have small : n < 2 ^ 64 := by exact_mod_cast high
  simp only [toULong, UInt64.ofInt, Int.toNat_natCast]
  rw [Int.emod_eq_of_lt low high, Int.toNat_natCast]
  exact UInt64.toNat_ofNat_of_lt' small

/-- A difference of words is zero only for equal words, whichever way it wraps. -/
theorem sub_eq_zero_iff (left right : UInt64) : left - right = 0 ↔ left = right := by
  grind

/-- An unsigned word is never below zero. -/
@[simp] theorem le_zero_iff (word : UInt64) : word ≤ 0 ↔ word = 0 := by
  rw [UInt64.le_iff_toNat_le, ← UInt64.toNat_inj, UInt64.toNat_zero]
  omega

/-- Subtracting within the minuend does not wrap. -/
theorem toNat_sub {left right : UInt64} (fits : right.toNat ≤ left.toNat) :
    (left - right).toNat = left.toNat - right.toNat :=
  UInt64.toNat_sub_of_le left right (UInt64.le_iff_toNat_le.mpr fits)

/-- A 32-bit reply word read as a signed integer is zero exactly when the word is. -/
@[simp] theorem int32_toInt_eq_zero (word : Int32) : word.toInt = 0 ↔ word = 0 := by
  rw [← Int32.toInt_zero, Int32.toInt_inj]

end CSem
