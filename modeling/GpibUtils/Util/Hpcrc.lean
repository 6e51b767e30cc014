import GpibUtils.CSem.Buffer
import GpibUtils.Folds

/-!
# The checksum of the hp1630

`hpcrc` goes over a buffer with a table of 256 words, and keeps the high byte of the checksum where
it is. Every word of the table is an exclusive or of shifts of its index, and of a constant for an
odd number of bits (`hpcrcTable_get`); so the checksum is linear, and a word gives its index away
by its low byte alone (`low_hpcrcWord_injective`), which is why no difference is ever lost.
-/

namespace GpibUtils.Util

open CSem Function

/-- `hpcrc_table` -/
def hpcrcTable : List UInt16 := [
  0x0000, 0x8005, 0x800f, 0x000a, 0x801b, 0x001e, 0x0014, 0x8011,
  0x8033, 0x0036, 0x003c, 0x8039, 0x0028, 0x802d, 0x8027, 0x0022,
  0x8063, 0x0066, 0x006c, 0x8069, 0x0078, 0x807d, 0x8077, 0x0072,
  0x0050, 0x8055, 0x805f, 0x005a, 0x804b, 0x004e, 0x0044, 0x8041,
  0x80c3, 0x00c6, 0x00cc, 0x80c9, 0x00d8, 0x80dd, 0x80d7, 0x00d2,
  0x00f0, 0x80f5, 0x80ff, 0x00fa, 0x80eb, 0x00ee, 0x00e4, 0x80e1,
  0x00a0, 0x80a5, 0x80af, 0x00aa, 0x80bb, 0x00be, 0x00b4, 0x80b1,
  0x8093, 0x0096, 0x009c, 0x8099, 0x0088, 0x808d, 0x8087, 0x0082,
  0x8183, 0x0186, 0x018c, 0x8189, 0x0198, 0x819d, 0x8197, 0x0192,
  0x01b0, 0x81b5, 0x81bf, 0x01ba, 0x81ab, 0x01ae, 0x01a4, 0x81a1,
  0x01e0, 0x81e5, 0x81ef, 0x01ea, 0x81fb, 0x01fe, 0x01f4, 0x81f1,
  0x81d3, 0x01d6, 0x01dc, 0x81d9, 0x01c8, 0x81cd, 0x81c7, 0x01c2,
  0x0140, 0x8145, 0x814f, 0x014a, 0x815b, 0x015e, 0x0154, 0x8151,
  0x8173, 0x0176, 0x017c, 0x8179, 0x0168, 0x816d, 0x8167, 0x0162,
  0x8123, 0x0126, 0x012c, 0x8129, 0x0138, 0x813d, 0x8137, 0x0132,
  0x0110, 0x8115, 0x811f, 0x011a, 0x810b, 0x010e, 0x0104, 0x8101,
  0x8303, 0x0306, 0x030c, 0x8309, 0x0318, 0x831d, 0x8317, 0x0312,
  0x0330, 0x8335, 0x833f, 0x033a, 0x832b, 0x032e, 0x0324, 0x8321,
  0x0360, 0x8365, 0x836f, 0x036a, 0x837b, 0x037e, 0x0374, 0x8371,
  0x8353, 0x0356, 0x035c, 0x8359, 0x0348, 0x834d, 0x8347, 0x0342,
  0x03c0, 0x83c5, 0x83cf, 0x03ca, 0x83db, 0x03de, 0x03d4, 0x83d1,
  0x83f3, 0x03f6, 0x03fc, 0x83f9, 0x03e8, 0x83ed, 0x83e7, 0x03e2,
  0x83a3, 0x03a6, 0x03ac, 0x83a9, 0x03b8, 0x83bd, 0x83b7, 0x03b2,
  0x0390, 0x8395, 0x839f, 0x039a, 0x838b, 0x038e, 0x0384, 0x8381,
  0x0280, 0x8285, 0x828f, 0x028a, 0x829b, 0x029e, 0x0294, 0x8291,
  0x82b3, 0x02b6, 0x02bc, 0x82b9, 0x02a8, 0x82ad, 0x82a7, 0x02a2,
  0x82e3, 0x02e6, 0x02ec, 0x82e9, 0x02f8, 0x82fd, 0x82f7, 0x02f2,
  0x02d0, 0x82d5, 0x82df, 0x02da, 0x82cb, 0x02ce, 0x02c4, 0x82c1,
  0x8243, 0x0246, 0x024c, 0x8249, 0x0258, 0x825d, 0x8257, 0x0252,
  0x0270, 0x8275, 0x827f, 0x027a, 0x826b, 0x026e, 0x0264, 0x8261,
  0x0220, 0x8225, 0x822f, 0x022a, 0x823b, 0x023e, 0x0234, 0x8231,
  0x8213, 0x0216, 0x021c, 0x8219, 0x0208, 0x820d, 0x8207, 0x0202]

set_option maxRecDepth 1024 in
/-- The table has 256 words. -/
theorem length_hpcrcTable : hpcrcTable.length = 256 := by rfl

/-- What is masked with `0xff` is a byte. -/
theorem masked_lt (word : UInt16) : (word &&& 0xff).toNat < 256 := by
  rw [UInt16.toNat_and]
  exact Nat.lt_succ_of_le Nat.and_le_right

/-- A byte is an index of the table. -/
theorem index_lt (word : UInt16) : (word &&& 0xff).toNat < hpcrcTable.length :=
  Nat.lt_of_lt_of_eq (masked_lt word) length_hpcrcTable.symm

/-- The body of the loop of `hpcrc`. -/
def hpcrcStep (crc : UInt16) (byte : UInt8) : UInt16 :=
  (crc &&& 0xff00) ^^^
    hpcrcTable.get ⟨((crc ^^^ byte.toUInt16) &&& 0xff).toNat, index_lt (crc ^^^ byte.toUInt16)⟩

/-- The loop of `hpcrc` from an index on; a read outside the buffer has no result. -/
def hpcrcLoop (buffer : Buffer) : Nat → Nat → UInt16 → Option UInt16
  | 0, _, crc => some crc
  | len + 1, i, crc => do
    let byte ← buffer.load i
    hpcrcLoop buffer len (i + 1) (hpcrcStep crc byte)

/-- `hpcrc` -/
def hpcrc (buffer : Buffer) (len : Nat) : Option UInt16 := hpcrcLoop buffer len 0 0

/-- The loop is a fold over what is left of the buffer. -/
theorem hpcrcLoop_eq (front back : Buffer) (crc : UInt16) :
    hpcrcLoop (front ++ back) back.length front.length crc = some (back.foldl hpcrcStep crc) := by
  induction back generalizing front crc with
  | nil => rfl
  | cons byte back ih =>
    have next := ih (front ++ [byte]) (hpcrcStep crc byte)
    rw [List.append_assoc, List.length_append] at next
    rw [List.length_cons, hpcrcLoop, Buffer.load_append]
    exact next

/-- `hpcrc` is a fold over the buffer. -/
theorem hpcrc_eq (buffer : Buffer) :
    hpcrc buffer buffer.length = some (buffer.foldl hpcrcStep 0) :=
  hpcrcLoop_eq [] buffer 0

/-- Whether the number of bits that are set is odd. -/
def parity (byte : UInt8) : Bool :=
  (List.range 8).foldr (fun k odd => byte.toBitVec.getLsbD k ^^ odd) false

/-- The word at an index, without the table. -/
def hpcrcWord (index : UInt8) : UInt16 :=
  index.toUInt16 <<< 1 ^^^ index.toUInt16 <<< 2 ^^^ if parity index then 0x8003 else 0

/-- Every word of the table is what its index says. -/
theorem hpcrcTable_get (i : Fin 256) :
    hpcrcTable.get (i.cast length_hpcrcTable.symm) = hpcrcWord (UInt8.ofFin i) := by
  decide +revert +kernel

/-- The loop looks the low byte up, changed by the byte of the buffer. -/
theorem hpcrcStep_eq (crc : UInt16) (byte : UInt8) :
    hpcrcStep crc byte = (crc &&& 0xff00) ^^^ hpcrcWord (crc.toUInt8 ^^^ byte) := by
  have low : ((crc ^^^ byte.toUInt16) &&& 0xff).toUInt8 = crc.toUInt8 ^^^ byte := by
    rw [UInt16.toUInt8_and, UInt16.toUInt8_xor, UInt8.toUInt8_toUInt16]
    exact UInt8.and_neg_one
  have masked := masked_lt (crc ^^^ byte.toUInt16)
  have index : UInt8.ofFin ⟨((crc ^^^ byte.toUInt16) &&& 0xff).toNat, masked⟩ =
      crc.toUInt8 ^^^ byte := by
    rw [← low]
    apply UInt8.toNat_inj.mp
    rw [UInt16.toNat_toUInt8, Nat.mod_eq_of_lt masked]
    rfl
  have found := hpcrcTable_get ⟨((crc ^^^ byte.toUInt16) &&& 0xff).toNat, masked⟩
  rw [index] at found
  rw [hpcrcStep, ← found]
  rfl

/-- The parity is linear. -/
theorem parity_xor (a b : UInt8) : parity (a ^^^ b) = (parity a ^^ parity b) := by
  rw [parity, parity, parity]
  induction List.range 8 with
  | nil => rfl
  | cons k bits ih =>
    rw [List.foldr_cons, List.foldr_cons, List.foldr_cons, ih, UInt8.toBitVec_xor,
      BitVec.getLsbD_xor]
    simp only [Bool.xor_assoc, Bool.xor_left_comm]

/-- The words are linear in the index. -/
theorem hpcrcWord_xor (a b : UInt8) : hpcrcWord (a ^^^ b) = hpcrcWord a ^^^ hpcrcWord b := by
  have odd : (if parity (a ^^^ b) then 0x8003 else 0 : UInt16) =
      (if parity a then 0x8003 else 0) ^^^ if parity b then 0x8003 else 0 := by
    rw [parity_xor]
    cases parity a <;> cases parity b <;> rfl
  rw [hpcrcWord, odd, UInt8.toUInt16_xor, UInt16.shiftLeft_xor, UInt16.shiftLeft_xor, hpcrcWord,
    hpcrcWord]
  ac_rfl

/-- Only the first word has a low byte of zero. -/
theorem low_hpcrcWord_eq_zero (i : Fin 256) (zero : (hpcrcWord (UInt8.ofFin i)).toUInt8 = 0) :
    i = 0 := by
  decide +revert +kernel

/-- A word gives its index away by its low byte. -/
theorem low_hpcrcWord_injective : Injective fun index => (hpcrcWord index).toUInt8 := by
  intro a b same
  have zero : (hpcrcWord (a ^^^ b)).toUInt8 = 0 := by
    rw [hpcrcWord_xor, UInt16.toUInt8_xor]
    exact UInt8.xor_eq_zero_iff.mpr same
  have first := low_hpcrcWord_eq_zero (a ^^^ b).toFin zero
  exact UInt8.xor_eq_zero_iff.mp (UInt8.toFin_inj.mp first)

/-- The loop is linear. -/
theorem hpcrcStep_xor (crc other : UInt16) (a b : UInt8) :
    hpcrcStep (crc ^^^ other) (a ^^^ b) = hpcrcStep crc a ^^^ hpcrcStep other b := by
  have index : (crc ^^^ other).toUInt8 ^^^ (a ^^^ b) =
      (crc.toUInt8 ^^^ a) ^^^ (other.toUInt8 ^^^ b) := by
    rw [UInt16.toUInt8_xor]
    ac_rfl
  have high : (crc ^^^ other) &&& 0xff00 = (crc &&& 0xff00) ^^^ (other &&& 0xff00) := by
    apply UInt16.toBitVec_inj.mp
    apply BitVec.eq_of_getLsbD_eq
    intro i _
    simp [Bool.and_xor_distrib_right]
  simp only [hpcrcStep_eq]
  rw [index, hpcrcWord_xor, high]
  ac_rfl

/-- The low byte after a pass is that of a word. -/
theorem low_hpcrcStep (crc : UInt16) (byte : UInt8) :
    (hpcrcStep crc byte).toUInt8 = (hpcrcWord (crc.toUInt8 ^^^ byte)).toUInt8 := by
  rw [hpcrcStep_eq, UInt16.toUInt8_xor, UInt16.toUInt8_and]
  exact UInt8.and_zero.symm ▸ UInt8.zero_xor

/-- Different bytes give different checksums. -/
theorem hpcrcStep_byte (crc : UInt16) : Injective (hpcrcStep crc) := by
  intro a b same
  have low := congrArg UInt16.toUInt8 same
  rw [low_hpcrcStep, low_hpcrcStep] at low
  exact (UInt8.xor_right_inj crc.toUInt8).mp (low_hpcrcWord_injective low)

/-- Which bits the mask of the high byte has. -/
theorem high_mask (i : Nat) (below : i < 16) : (0xff00#16).getLsbD i = decide (8 ≤ i) := by
  decide +revert

/-- A word is its high byte and its low byte. -/
theorem split_bytes (crc : UInt16) : (crc &&& 0xff00) ^^^ crc.toUInt8.toUInt16 = crc := by
  apply UInt16.toBitVec_inj.mp
  apply BitVec.eq_of_getLsbD_eq
  intro i below
  have high : (crc &&& 0xff00).toBitVec.getLsbD i = (crc.toBitVec.getLsbD i && decide (8 ≤ i)) := by
    rw [← high_mask i below]
    exact BitVec.getLsbD_and
  have low : crc.toUInt8.toUInt16.toBitVec.getLsbD i =
      (decide (i < 8) && crc.toBitVec.getLsbD i) := by
    rw [UInt8.toBitVec_toUInt16, UInt16.toBitVec_toUInt8, BitVec.getLsbD_setWidth,
      BitVec.getLsbD_setWidth, decide_eq_true below, Bool.true_and]
  rw [UInt16.toBitVec_xor, BitVec.getLsbD_xor, high, low]
  by_cases upper : 8 ≤ i
  · simp [upper, Nat.not_lt.mpr upper]
  · simp [upper, Nat.lt_of_not_le upper]

/-- Different checksums stay different. -/
theorem hpcrcStep_state (byte : UInt8) : Injective fun crc => hpcrcStep crc byte := by
  intro crc other same
  have low := congrArg UInt16.toUInt8 same
  rw [low_hpcrcStep, low_hpcrcStep] at low
  have index := low_hpcrcWord_injective low
  simp only [hpcrcStep_eq, index] at same
  have highs := (UInt16.xor_left_inj _).mp same
  have lows := (UInt8.xor_left_inj byte).mp index
  rw [← split_bytes crc, ← split_bytes other, highs, lows]

/-- `hpcrc` is linear, and tells buffers that differ in one byte apart. -/
theorem hpcrc_detects {a b : Buffer} (lengths : a.length = b.length) :
    ∃ crc other, hpcrc a a.length = some crc ∧ hpcrc b b.length = some other ∧
      ((∃! i : Nat, a[i]? ≠ b[i]?) → crc ≠ other) ∧
      hpcrc (List.zipWith (· ^^^ ·) a b) a.length = some (crc ^^^ other) := by
  refine ⟨_, _, hpcrc_eq a, hpcrc_eq b, ?_, ?_⟩
  · intro once
    obtain ⟨front, x, y, back, differ, left, right⟩ := Folds.exists_split lengths once
    rw [left, right]
    exact Folds.foldl_ne hpcrcStep_state hpcrcStep_byte 0 front back differ
  · have whole : (List.zipWith (· ^^^ ·) a b).length = a.length := by
      rw [List.length_zipWith, ← lengths, Nat.min_self]
    have linear := Folds.foldl_zipWith hpcrcStep_xor lengths 0 0
    rw [← whole, hpcrc_eq]
    exact congrArg some linear

/-- Buffers that differ in their second byte. -/
theorem hpcrc_detects_one : ∃ crc other, hpcrc [1, 2, 3] 3 = some crc ∧
    hpcrc [1, 7, 3] 3 = some other ∧ crc ≠ other ∧ hpcrc [0, 5, 0] 3 = some (crc ^^^ other) := by
  have once : ∃! i : Nat, ([1, 2, 3] : Buffer)[i]? ≠ ([1, 7, 3] : Buffer)[i]? := by
    refine ⟨1, by decide, ?_⟩
    intro i differ
    match i with
    | 0 => exact absurd rfl differ
    | 1 => rfl
    | 2 => exact absurd rfl differ
    | i + 3 => exact absurd rfl differ
  obtain ⟨crc, other, left, right, apart, both⟩ :=
    hpcrc_detects (a := [1, 2, 3]) (b := [1, 7, 3]) rfl
  exact ⟨crc, other, left, right, apart once, both⟩

end GpibUtils.Util
