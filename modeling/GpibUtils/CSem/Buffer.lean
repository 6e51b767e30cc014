import GpibUtils.CSem.Memory
import Mathlib.Data.List.DropRight

/-!
# Buffers with checked accesses

A buffer is its bytes, and every access to it is checked: one that is outside has no result. So a
function that has a result has stayed inside. A string in a buffer is what comes before the
first NUL, and looking for a NUL that is not there is an access outside.
-/

namespace CSem

/-- The bytes of a buffer. -/
abbrev Buffer := List UInt8

namespace Buffer

/-- Read the byte at an index. -/
def load (buf : Buffer) (i : Int) : Option UInt8 := if 0 ≤ i then buf[i.toNat]? else none

/-- Write the byte at an index. -/
def store (buf : Buffer) (i : Int) (byte : UInt8) : Option Buffer :=
  if 0 ≤ i ∧ i < buf.length then some (buf.set i.toNat byte) else none

/-- `strlen` -/
def strlen : Buffer → Option Nat
  | [] => none
  | byte :: rest => if byte = 0 then some 0 else (strlen rest).map (· + 1)

/-- Write bytes from an index on. -/
def storeAll (buf : Buffer) (i : Int) : List UInt8 → Option Buffer
  | [] => some buf
  | byte :: bytes => do
    let buf ← buf.store i byte
    storeAll buf (i + 1) bytes

/-- `strcat`, of the characters of a string without its NUL. -/
def strcat (dest : Buffer) (src : List UInt8) : Option Buffer := do
  let n ← dest.strlen
  dest.storeAll n (src ++ [0])

/-- The string in a buffer. -/
def str (buf : Buffer) : List UInt8 := buf.takeWhile (· ≠ 0)

/-- The byte behind a front is read. -/
theorem load_append (front rest : List UInt8) (byte : UInt8) :
    load (front ++ byte :: rest) front.length = some byte := by
  simp [load]

/-- An access in front of a buffer has no result. -/
theorem load_neg (buf : Buffer) {i : Int} (before : i < 0) : buf.load i = none :=
  if_neg (Int.not_le.mpr before)

/-- The byte behind a front is written. -/
theorem store_append (front rest : List UInt8) (byte new : UInt8) :
    store (front ++ byte :: rest) front.length new = some (front ++ new :: rest) := by
  have inside : 0 ≤ (front.length : Int) ∧
      (front.length : Int) < (front ++ byte :: rest).length := by
    rw [List.length_append, List.length_cons]
    omega
  rw [store, if_pos inside, Int.toNat_natCast, List.set_append_right _ _ (Nat.le_refl _),
    Nat.sub_self, List.set_cons_zero]

/-- A string is followed by its NUL. -/
theorem strlen_append {s : List UInt8} (plain : ∀ byte ∈ s, byte ≠ 0) (rest : List UInt8) :
    strlen (s ++ 0 :: rest) = some s.length := by
  induction s with
  | nil => rfl
  | cons byte s ih =>
    have later := ih fun other member => plain other (List.mem_cons_of_mem _ member)
    rw [List.cons_append, strlen, if_neg (plain byte List.mem_cons_self), later]
    rfl

/-- Bytes are written over those behind a front. -/
theorem storeAll_append (front : List UInt8) {old bytes : List UInt8} (rest : List UInt8)
    (lengths : old.length = bytes.length) :
    storeAll (front ++ (old ++ rest)) front.length bytes = some (front ++ (bytes ++ rest)) := by
  induction bytes generalizing front old with
  | nil =>
    rw [List.length_eq_zero_iff.mp lengths]
    rfl
  | cons byte bytes ih =>
    cases old with
    | nil => cases lengths
    | cons first old =>
      have later := ih (front ++ [byte]) (Nat.succ.inj lengths)
      rw [List.append_assoc, List.append_assoc, List.length_append] at later
      rw [storeAll, List.cons_append, store_append]
      exact later

/-- A string is appended where there is room for it. -/
theorem strcat_append {out : List UInt8} (plain : ∀ byte ∈ out, byte ≠ 0) {src rest : List UInt8}
    (room : src.length ≤ rest.length) :
    strcat (out ++ 0 :: rest) src = some (out ++ src ++ 0 :: rest.drop src.length) := by
  have lengths : (0 :: rest.take src.length).length = (src ++ [0]).length := by
    simp [room]
  have stored := storeAll_append out (rest.drop src.length) lengths
  rw [List.cons_append, List.take_append_drop] at stored
  rw [strcat, strlen_append plain]
  simpa using stored

/-- The string before a NUL. -/
theorem str_append {s : List UInt8} (plain : ∀ byte ∈ s, byte ≠ 0) (rest : List UInt8) :
    str (s ++ 0 :: rest) = s := by
  have inside : ∀ byte ∈ s, decide (byte ≠ 0) = true :=
    fun byte member => decide_eq_true (plain byte member)
  rw [str, List.takeWhile_append_of_pos inside]
  simp

/-- What has a NUL in it, or one behind it, is a string, a NUL, and something more. -/
theorem exists_str (bytes rest : List UInt8) :
    ∃ more, bytes ++ 0 :: rest = str bytes ++ 0 :: more ∧ ∀ byte ∈ str bytes, byte ≠ 0 := by
  have plain : ∀ byte ∈ str bytes, byte ≠ 0 := fun byte member => by
    simpa using List.mem_takeWhile_imp member
  have split : str bytes ++ bytes.dropWhile (· ≠ 0) = bytes := List.takeWhile_append_dropWhile
  cases after : bytes.dropWhile (· ≠ 0) with
  | nil =>
    rw [after, List.append_nil] at split
    exact ⟨rest, by rw [split], plain⟩
  | cons byte more =>
    have zero : byte = 0 := by
      have first := List.head?_dropWhile_not (fun byte : UInt8 => decide (byte ≠ 0)) bytes
      rw [after] at first
      simpa using first
    rw [after, zero] at split
    refine ⟨more ++ 0 :: rest, ?_, plain⟩
    calc
      bytes ++ 0 :: rest = (str bytes ++ 0 :: more) ++ 0 :: rest := by rw [split]
      _ = str bytes ++ 0 :: (more ++ 0 :: rest) := List.append_assoc _ _ _

/-- What is behind a NUL is not part of the string. -/
theorem str_nul (bytes rest : List UInt8) : str (bytes ++ 0 :: rest) = str bytes := by
  obtain ⟨more, split, plain⟩ := exists_str bytes rest
  rw [split, str_append plain]

end Buffer

/-- Bytes copied to the front of a buffer are followed by what was there. -/
theorem Memory.slice_memcpy_front (mem : Memory) {bytes : List UInt8} {n : Nat}
    (fits : bytes.length ≤ n) :
    (mem.memcpy 0 bytes).slice 0 n = bytes ++ (mem.slice 0 n).drop bytes.length := by
  obtain ⟨more, rfl⟩ := Nat.exists_eq_add_of_le fits
  have behind : (mem.memcpy 0 bytes).slice bytes.length more = mem.slice bytes.length more := by
    apply slice_congr
    intro i _
    have outside :
        ¬((0 : Int) ≤ bytes.length + i ∧ (bytes.length : Int) + i < 0 + bytes.length) := by
      omega
    exact if_neg outside
  have front : (mem.slice 0 bytes.length).length = bytes.length := length_slice mem 0 _
  rw [slice_add, slice_memcpy, slice_add, Int.zero_add, behind, List.drop_left' front]

end CSem
