import Mathlib.Data.List.TakeDrop

/-!
# `write_all`

`write_all` in `util.c` calls `write` until all of a buffer has been accepted, or a call fails or
accepts nothing, and returns the number of bytes accepted. That number is never negative, so
it does not tell its callers of a failure; they are told nothing at all when they do not compare
it with the length.
-/

namespace GpibUtils.Util

/-- What one `write` of a file descriptor comes to. -/
inductive SysWrite where
  /-- It accepts as many of the bytes offered as it has room for. -/
  | accepts (room : Nat)
  /-- An error of `EINTR`. -/
  | interrupted
  /-- Any other error. -/
  | failed
  deriving DecidableEq

/-- What a call of `write_all` leaves: the count returned, and the bytes accepted in order. -/
structure Written where
  bc : Nat
  accepted : List UInt8
  deriving DecidableEq

/-- The loop of `write_all` with some bytes accepted and the others left. A descriptor with nothing
more to say fails. -/
def writeLoop (accepted : List UInt8) : (left : List UInt8) → List SysWrite → Written
  | _, [] => ⟨accepted.length, accepted⟩
  | left, .interrupted :: later => writeLoop accepted left later
  | _, .failed :: _ => ⟨accepted.length, accepted⟩
  | left, .accepts room :: later =>
    let n := min room left.length
    let accepted := accepted ++ left.take n
    if 0 < n ∧ n < left.length then writeLoop accepted (left.drop n) later
    else ⟨accepted.length, accepted⟩

/-- `write_all` -/
def writeAll (buf : List UInt8) (writes : List SysWrite) : Written := writeLoop [] buf writes

/-- So many bytes are accepted before a write fails or accepts nothing. -/
def Suffice : Nat → List SysWrite → Prop
  | n, [] => n = 0
  | n, .interrupted :: later => Suffice n later
  | n, .failed :: _ => n = 0
  | n, .accepts room :: later => n ≤ room ∨ 0 < room ∧ Suffice (n - room) later

/-- Whether they are is found by going through the writes. -/
instance Suffice.decidable : (n : Nat) → (writes : List SysWrite) → Decidable (Suffice n writes)
  | n, [] => inferInstanceAs (Decidable (n = 0))
  | n, .interrupted :: later => Suffice.decidable n later
  | n, .failed :: _ => inferInstanceAs (Decidable (n = 0))
  | n, .accepts room :: later =>
    have := Suffice.decidable (n - room) later
    inferInstanceAs (Decidable (_ ∨ _ ∧ _))

/-- No byte is always accepted. -/
theorem Suffice.zero (writes : List SysWrite) : Suffice 0 writes := by
  induction writes with
  | nil => rfl
  | cons write later ih =>
    cases write with
    | interrupted => exact ih
    | failed => rfl
    | accepts room => exact .inl (Nat.zero_le room)

/-- The bytes accepted are the first ones of the buffer, as many as the count says. -/
theorem writeLoop_front (accepted left : List UInt8) (writes : List SysWrite) :
    (writeLoop accepted left writes).bc = (writeLoop accepted left writes).accepted.length ∧
      (writeLoop accepted left writes).accepted <+: accepted ++ left := by
  induction writes generalizing accepted left with
  | nil => exact ⟨rfl, List.prefix_append accepted left⟩
  | cons write later ih =>
    cases write with
    | interrupted => exact ih accepted left
    | failed => exact ⟨rfl, List.prefix_append accepted left⟩
    | accepts room =>
      have joined : accepted ++ left.take (min room left.length) ++
          left.drop (min room left.length) = accepted ++ left := by
        rw [List.append_assoc, List.take_append_drop]
      rw [writeLoop, ← joined]
      split
      · exact ih _ _
      · exact ⟨rfl, List.prefix_append _ _⟩

/-- So many bytes that are left are accepted exactly when no write fails or accepts nothing before
they are. -/
theorem le_length_writeLoop_iff (accepted left : List UInt8) (writes : List SysWrite) {n : Nat}
    (within : n ≤ left.length) :
    accepted.length + n ≤ (writeLoop accepted left writes).accepted.length ↔
      Suffice n writes := by
  induction writes generalizing accepted left n with
  | nil =>
    change accepted.length + n ≤ accepted.length ↔ n = 0
    omega
  | cons write later ih =>
    cases write with
    | interrupted => exact ih accepted left within
    | failed =>
      change accepted.length + n ≤ accepted.length ↔ n = 0
      omega
    | accepts room =>
      rw [writeLoop, Suffice]
      split
      · rename_i more
        have taken : (left.take (min room left.length)).length = room := by
          rw [List.length_take]
          omega
        have rest (k : Nat) (small : k ≤ left.length - room) :=
          @ih (accepted ++ left.take (min room left.length))
            (left.drop (min room left.length)) k (by rw [List.length_drop]; omega)
        simp only [List.length_append, taken] at rest
        have front := (rest 0 (Nat.zero_le _)).mpr (Suffice.zero later)
        rw [← rest (n - room) (by omega)]
        omega
      · rename_i ends
        rw [List.length_append, List.length_take]
        constructor
        · exact fun accepts => .inl (by omega)
        · rintro (whole | ⟨some, -⟩)
          · omega
          · omega

/-- `write_all` has so many bytes of a buffer accepted exactly when no write fails or accepts
nothing before that. -/
theorem le_length_writeAll_iff (buf : List UInt8) (writes : List SysWrite) {n : Nat}
    (within : n ≤ buf.length) :
    n ≤ (writeAll buf writes).accepted.length ↔ Suffice n writes := by
  have accepted := le_length_writeLoop_iff [] buf writes within
  rwa [List.length_nil, Nat.zero_add] at accepted

/-- `write_all` has the front of a buffer accepted, and all of it exactly when no write fails or
accepts nothing before that; the count it returns is that of the bytes accepted. -/
theorem writeAll_whole_iff (buf : List UInt8) (writes : List SysWrite) :
    (writeAll buf writes).bc = (writeAll buf writes).accepted.length ∧
      (writeAll buf writes).accepted <+: buf ∧
      ((writeAll buf writes).accepted = buf ↔ Suffice buf.length writes) := by
  have front := writeLoop_front [] buf writes
  refine ⟨front.1, front.2, ?_⟩
  rw [← le_length_writeAll_iff buf writes (Nat.le_refl _)]
  constructor
  · exact fun whole => Nat.le_of_eq (congrArg List.length whole.symm)
  · exact front.2.eq_of_length_le

end GpibUtils.Util
