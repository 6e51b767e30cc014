import GpibUtils.CSem.Word

/-!
# Bytes around a pointer

Memory is a total map from offsets to bytes, an offset counting from the start of the buffer
a caller passed in, so a pointer that has been moved in front of the buffer or past its end
still reads what lies there. Bounds are stated apart, as `Inside`; a copy described here
says what the bytes become, not that the copy was allowed.
-/

namespace CSem

/-- Memory seen from the start of one buffer. -/
abbrev Memory := Int → UInt8

/-- The `n` bytes from `ptr` lie in a buffer of `len` bytes. -/
def Inside (len ptr : Int) (n : Nat) : Prop := ∀ i : Nat, i < n → 0 ≤ ptr + i ∧ ptr + i < len

/-- Bounds of a region that is not empty are the bounds of its ends. -/
theorem inside_iff {len ptr : Int} {n : Nat} (some : 0 < n) :
    Inside len ptr n ↔ 0 ≤ ptr ∧ ptr + n ≤ len := by
  constructor
  · intro inside
    have first := inside 0 some
    have last := inside (n - 1) (by omega)
    omega
  · intro bounds i below
    omega

/-- An empty region lies anywhere. -/
@[simp] theorem inside_zero (len ptr : Int) : Inside len ptr 0 :=
  fun _ below => absurd below (by simp)

namespace Memory

/-- The `n` bytes from `ptr`. -/
def slice (mem : Memory) (ptr : Int) (n : Nat) : List UInt8 :=
  (List.range n).map fun i : Nat => mem (ptr + i)

/-- Copy some bytes from elsewhere to `ptr`. -/
def memcpy (mem : Memory) (ptr : Int) (bytes : List UInt8) : Memory := fun a =>
  if ptr ≤ a ∧ a < ptr + bytes.length then bytes.getD (a - ptr).toNat 0 else mem a

/-- Copy `n` bytes from `src` to `dst`; the regions may overlap. -/
def memmove (mem : Memory) (dst src : Int) (n : Nat) : Memory := fun a =>
  if dst ≤ a ∧ a < dst + n then mem (src + (a - dst)) else mem a

/-- A buffer with these bytes at its start and zeros around them. -/
def ofBytes (bytes : List UInt8) : Memory := memcpy (fun _ => 0) 0 bytes

variable (mem : Memory)

@[simp] theorem length_slice (ptr : Int) (n : Nat) : (mem.slice ptr n).length = n := by
  simp [slice]

@[simp] theorem slice_zero (ptr : Int) : mem.slice ptr 0 = [] := rfl

/-- A region is its front followed by the rest. -/
theorem slice_add (ptr : Int) (m n : Nat) :
    mem.slice ptr (m + n) = mem.slice ptr m ++ mem.slice (ptr + m) n := by
  simp only [slice, List.range_add, List.map_append, List.map_map]
  congr 1
  apply List.map_congr_left
  intro i _
  simp [Int.add_assoc]

/-- Regions read the same bytes when the memories agree on them. -/
theorem slice_congr {mem other : Memory} {ptr : Int} {n : Nat}
    (same : ∀ i : Nat, i < n → mem (ptr + i) = other (ptr + i)) :
    mem.slice ptr n = other.slice ptr n := by
  apply List.map_congr_left
  intro i member
  exact same i (List.mem_range.mp member)

/-- Copied bytes are read back. -/
@[simp] theorem slice_memcpy (ptr : Int) (bytes : List UInt8) :
    (mem.memcpy ptr bytes).slice ptr bytes.length = bytes := by
  apply List.ext_getElem (by simp)
  intro i _ below
  simp [slice, memcpy, below]

/-- A copy leaves every region in front of it as it was. -/
theorem slice_memcpy_before {ptr base : Int} {n : Nat} {bytes : List UInt8}
    (before : base + n ≤ ptr) : (mem.memcpy ptr bytes).slice base n = mem.slice base n := by
  apply slice_congr
  intro i below
  have outside : ¬(ptr ≤ base + i) := by omega
  simp [memcpy, outside]

/-- The bytes from `ptr` on start with these. -/
def Holds (ptr : Int) (bytes : List UInt8) : Prop := mem.slice ptr bytes.length = bytes

variable {mem}

/-- A first byte, and the bytes after it. -/
theorem holds_cons {ptr : Int} {byte : UInt8} {bytes : List UInt8} :
    mem.Holds ptr (byte :: bytes) ↔ mem ptr = byte ∧ mem.Holds (ptr + 1) bytes := by
  have split := slice_add mem ptr 1 bytes.length
  have first : mem.slice ptr 1 = [mem ptr] := by simp [slice]
  rw [Holds, List.length_cons, Nat.add_comm, split, first, List.singleton_append,
    List.cons.injEq]
  rfl

/-- Bytes in two parts. -/
theorem holds_append {ptr : Int} {front back : List UInt8} :
    mem.Holds ptr (front ++ back) ↔ mem.Holds ptr front ∧ mem.Holds (ptr + front.length) back := by
  rw [Holds, List.length_append, slice_add]
  constructor
  · intro both
    exact List.append_inj both (length_slice mem ptr front.length)
  · rintro ⟨left, right⟩
    rw [left, right]

/-- A buffer holds the bytes it was given. -/
theorem holds_ofBytes (bytes : List UInt8) : (ofBytes bytes).Holds 0 bytes :=
  slice_memcpy _ 0 bytes

variable (mem)

/-- The destination of a move reads what the source did, even where the two overlap. -/
theorem slice_memmove (dst src : Int) (n : Nat) :
    (mem.memmove dst src n).slice dst n = mem.slice src n := by
  apply List.map_congr_left
  intro i member
  have below := List.mem_range.mp member
  have inside : dst ≤ dst + (i : Int) ∧ dst + (i : Int) < dst + n := by omega
  have offset : dst + (i : Int) - dst = i := by omega
  simp only [memmove, if_pos inside, offset]

end Memory

end CSem
