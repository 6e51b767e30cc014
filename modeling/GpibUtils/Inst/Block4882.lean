import GpibUtils.CSem.Memory
import GpibUtils.CSem.Text

/-!
# IEEE 488.2 block data

`inst_decode_488_2_data` checks arbitrary block response data and strips its header in place.
A definite length block counts its bytes in a field of one to nine digits, which the code
hands to `strtoul`; an indefinite length block ends with a newline. Blocks written as the
standard says are decoded (`instDecode4882Data_encoded`). The field is not checked to consist
of digits, so the decoder is safe exactly when it does or something else refuses the block
(`instDecode4882Data_safe_iff`). What is refused, and what is only verified, is left as it was
(`instDecode4882Data_atomic`).
-/

namespace GpibUtils.Inst

open CSem

/-- `INST_DECODE_DLAB` -/
def decodeDlab : UInt32 := 1
/-- `INST_DECODE_ILAB` -/
def decodeIlab : UInt32 := 2
/-- `INST_VERIFY_DLAB` -/
def verifyDlab : UInt32 := 4
/-- `INST_VERIFY_ILAB` -/
def verifyIlab : UInt32 := 8

/-- The arguments of a `memmove`. -/
structure Move where
  dst : Int
  src : Int
  size : Nat

/-- What `inst_decode_488_2_data` leaves: its value, the data, `*lenp`, the moves made, and what
was printed. -/
structure Decoded where
  ret : Int
  data : Memory
  len : Int
  moves : List Move
  message : Option String

/-- Refuse a response. -/
def refused (data : Memory) (len : Int) (message : String) : Decoded :=
  ⟨-1, data, len, [], some message⟩

/-- Accept a response as it is. -/
def verified (data : Memory) (len : Int) : Decoded := ⟨0, data, len, [], none⟩

/-- Accept a response and move `size` of its bytes to the front. -/
def stripped (data : Memory) (src : Int) (size : Nat) (len : Int) : Decoded :=
  ⟨0, data.memmove 0 src size, len, [⟨0, src, size⟩], none⟩

/-- `_extract_dlab_len` of the `lenlen` bytes at `ptr`. -/
def extractDlabLen (data : Memory) (ptr : Int) (lenlen : Nat) (len : Int) : Int :=
  if len < lenlen ∨ 64 - 1 < lenlen then -1
  else toInt (strtoul ((data.slice ptr lenlen).map charOf)).1.toNat

/-- The branch of `inst_decode_488_2_data` for indefinite length blocks. -/
def decodeIndefinite (data : Memory) (len : Int) (flags : UInt32) : Decoded :=
  if flags &&& decodeIlab = 0 ∧ flags &&& verifyIlab = 0 then
    refused data len "unexpectedly got ILAB response"
  else if flags &&& decodeIlab ≠ 0 then stripped data 2 (len - 3).toNat (len - 3)
  else verified data len

/-- The branch of `inst_decode_488_2_data` for definite length blocks. The length comes from at
most nine characters, so the sum stays in the range of `int`. -/
def decodeDefinite (data : Memory) (len : Int) (flags : UInt32) : Decoded :=
  let llen := (data 1).toNat - '0'.toNat
  let dlen := extractDlabLen data 2 llen (len - 2)
  if flags &&& decodeDlab = 0 ∧ flags &&& verifyDlab = 0 then
    refused data len "unexpectedly got DLAB response"
  else if dlen = -1 then refused data len "failed to decode DLAB data length"
  else if len < dlen + 2 + llen then refused data len "DLAB data length is too large"
  else if flags &&& decodeDlab ≠ 0 then stripped data (2 + llen) (toULong dlen).toNat dlen
  else verified data len

/-- A response starts as an indefinite length block and ends with a newline. -/
def IndefiniteHeader (data : Memory) (len : Int) : Prop :=
  data 0 = '#'.toUInt8 ∧ data 1 = '0'.toUInt8 ∧ data (len - 1) = '\n'.toUInt8

/-- A response starts as a definite length block. -/
def DefiniteHeader (data : Memory) : Prop :=
  data 0 = '#'.toUInt8 ∧ '1'.toUInt8 ≤ data 1 ∧ data 1 ≤ '9'.toUInt8

instance (data : Memory) (len : Int) : Decidable (IndefiniteHeader data len) :=
  inferInstanceAs (Decidable (_ ∧ _))

instance (data : Memory) : Decidable (DefiniteHeader data) := inferInstanceAs (Decidable (_ ∧ _))

/-- `inst_decode_488_2_data` -/
def instDecode4882Data (data : Memory) (len : Int) (flags : UInt32) : Decoded :=
  if len < 3 then ⟨-1, data, len, [], none⟩
  else if IndefiniteHeader data len then decodeIndefinite data len flags
  else if DefiniteHeader data then decodeDefinite data len flags
  else refused data len "unexpected or garbled 488.2 response"

/-- A response of three bytes or more that starts as a definite length block is decoded as one. -/
theorem instDecode4882Data_definite {data : Memory} {len : Int} (header : DefiniteHeader data)
    (long : 3 ≤ len) (flags : UInt32) :
    instDecode4882Data data len flags = decodeDefinite data len flags := by
  have different : ¬IndefiniteHeader data len := by
    rintro ⟨-, zero, -⟩
    have digit := header.2.1
    rw [zero] at digit
    exact absurd digit (by decide)
  rw [instDecode4882Data, if_neg (by omega), if_neg different, if_pos header]

/-- The number of digits in the length field of a definite length block. -/
def fieldLength (data : Memory) : Nat := (data 1).toNat - '0'.toNat

/-- The length field of a definite length block. -/
def lengthField (data : Memory) : List Char := (data.slice 2 (fieldLength data)).map charOf

/-- There are one to nine digits. -/
theorem fieldLength_bounds {data : Memory} (header : DefiniteHeader data) :
    1 ≤ fieldLength data ∧ fieldLength data ≤ 9 := by
  have low := UInt8.le_iff_toNat_le.mp header.2.1
  have high := UInt8.le_iff_toNat_le.mp header.2.2
  change 49 ≤ (data 1).toNat at low
  change (data 1).toNat ≤ 57 at high
  change 1 ≤ (data 1).toNat - 48 ∧ (data 1).toNat - 48 ≤ 9
  omega

/-- The length read from a field that lies in the response. -/
theorem extractDlabLen_field {data : Memory} {len : Int} (header : DefiniteHeader data)
    (fits : (fieldLength data : Int) ≤ len - 2) :
    extractDlabLen data 2 (fieldLength data) (len - 2) =
      toInt (strtoul (lengthField data)).1.toNat := by
  have bounds := fieldLength_bounds header
  rw [extractDlabLen, if_neg (by omega), lengthField]

/-- The length read from a field of digits is their value. -/
theorem extractDlabLen_digits {data : Memory} {len : Int} (header : DefiniteHeader data)
    (fits : (fieldLength data : Int) ≤ len - 2)
    (decimal : ∀ c ∈ lengthField data, c.isDigit = true) :
    extractDlabLen data 2 (fieldLength data) (len - 2) = digitsValue (lengthField data) := by
  have bounds := fieldLength_bounds header
  have length : (lengthField data).length = fieldLength data := by simp [lengthField]
  have nonempty : lengthField data ≠ [] := by
    intro empty
    rw [empty, List.length_nil] at length
    omega
  have below : digitsValue (lengthField data) < 10 ^ 9 := by
    have small := digitsValue_lt decimal
    rw [length] at small
    exact Nat.lt_of_lt_of_le small (Nat.pow_le_pow_right (by decide) bounds.2)
  have read := @strtoul_digits (lengthField data) [] nonempty decimal (by simp) (by omega)
  rw [List.append_nil] at read
  have word : (UInt64.ofNat (digitsValue (lengthField data))).toNat =
      digitsValue (lengthField data) := UInt64.toNat_ofNat_of_lt' (by change _ < 2 ^ 64; omega)
  rw [extractDlabLen_field header fits, read, word,
    toInt_of_range (by omega) (by unfold intMax; omega)]

/-! ## Safety -/

/-- What is owed when a definite length block is accepted: its field consists of digits, the
bytes they count lie in the response, and so does every byte moved and reported. -/
structure AcceptedSafely (data : Memory) (len : Int) (result : Decoded) : Prop where
  /-- The field. -/
  decimal : ∀ c ∈ lengthField data, c.isDigit = true
  /-- The bytes it counts. -/
  fits : 2 + fieldLength data + digitsValue (lengthField data) ≤ len
  /-- The bytes moved. -/
  moves : ∀ move ∈ result.moves,
    Inside len move.dst move.size ∧ Inside len move.src move.size
  /-- The bytes reported. -/
  reported : 0 ≤ result.len ∧ result.len ≤ len

/-- Every definite length block that is accepted is accepted safely. -/
def SafeOn (data : Memory) (len : Int) (flags : UInt32) : Prop :=
  (instDecode4882Data data len flags).ret = 0 → DefiniteHeader data →
    AcceptedSafely data len (instDecode4882Data data len flags)

/-- The length field of a definite length block consists of digits, or the block is refused for
another reason: it is too short, the caller wants none, or the number `strtoul` makes of the
field is -1 or counts more bytes than there are. -/
def FieldChecked (data : Memory) (len : Int) (flags : UInt32) : Prop :=
  DefiniteHeader data →
    (∀ c ∈ lengthField data, c.isDigit = true) ∨
    len < 3 ∨ (flags &&& decodeDlab = 0 ∧ flags &&& verifyDlab = 0) ∨
    len - 2 < fieldLength data ∨ toInt (strtoul (lengthField data)).1.toNat = -1 ∨
    len < toInt (strtoul (lengthField data)).1.toNat + 2 + fieldLength data

/-- A definite length block is accepted exactly when it was wanted and reads as a length that
fits. -/
theorem decodeDefinite_ret {data : Memory} {len : Int} {flags : UInt32} :
    (decodeDefinite data len flags).ret = 0 ↔
      ¬(flags &&& decodeDlab = 0 ∧ flags &&& verifyDlab = 0) ∧
        extractDlabLen data 2 (fieldLength data) (len - 2) ≠ -1 ∧
        extractDlabLen data 2 (fieldLength data) (len - 2) + 2 + fieldLength data ≤ len := by
  simp only [decodeDefinite, ← fieldLength.eq_1]
  split
  · simp_all [refused]
  split
  · simp_all [refused]
  split
  · simp_all [refused]
  split <;> simp_all [stripped, verified]

/-- A definite length block that is accepted is stripped or left as it is. -/
theorem decodeDefinite_accepted {data : Memory} {len : Int} {flags : UInt32}
    (accepted : (decodeDefinite data len flags).ret = 0) :
    decodeDefinite data len flags =
      if flags &&& decodeDlab ≠ 0 then
        stripped data (2 + fieldLength data)
          (toULong (extractDlabLen data 2 (fieldLength data) (len - 2))).toNat
          (extractDlabLen data 2 (fieldLength data) (len - 2))
      else verified data len := by
  obtain ⟨wanted, read, fits⟩ := decodeDefinite_ret.mp accepted
  simp only [decodeDefinite, ← fieldLength.eq_1, if_neg wanted, if_neg read,
    if_neg (Int.not_lt.mpr fits)]

/-- A block whose field consists of digits is accepted safely, if it is accepted. -/
theorem acceptedSafely_of_decimal {data : Memory} {len : Int} {flags : UInt32}
    (header : DefiniteHeader data) (decimal : ∀ c ∈ lengthField data, c.isDigit = true)
    (accepted : (decodeDefinite data len flags).ret = 0) :
    AcceptedSafely data len (decodeDefinite data len flags) := by
  have bounds := fieldLength_bounds header
  obtain ⟨-, read, fits⟩ := decodeDefinite_ret.mp accepted
  have inside : (fieldLength data : Int) ≤ len - 2 := by
    by_contra outside
    exact read (if_pos (.inl (by omega)))
  have same := extractDlabLen_digits header inside decimal
  rw [same] at fits
  have word : (toULong (digitsValue (lengthField data) : Int)).toNat =
      digitsValue (lengthField data) := by
    rw [toNat_toULong (by omega) ?_, Int.toNat_natCast]
    have small := digitsValue_lt decimal
    have length : (lengthField data).length ≤ 9 := by simpa [lengthField] using bounds.2
    have below := Nat.lt_of_lt_of_le small (Nat.pow_le_pow_right (by decide) length)
    omega
  rw [decodeDefinite_accepted accepted, same, word]
  refine ⟨decimal, by omega, ?_, ?_⟩
  · split
    · intro move member
      obtain rfl := List.mem_singleton.mp member
      constructor
      · intro i below
        dsimp only at below ⊢
        omega
      · intro i below
        dsimp only at below ⊢
        omega
    · simp [verified]
  · split
    · dsimp only [stripped]
      omega
    · dsimp only [verified]
      omega

/-- A definite length block: `#`, the number of digits, the number of bytes in so many digits,
the bytes, and whatever follows the block. -/
def definiteBlock (digits : Nat) (payload trailing : List UInt8) : List UInt8 :=
  '#'.toUInt8 :: UInt8.ofNat ('0'.toNat + digits) ::
    ((zeroPadded digits payload.length).map Char.toUInt8 ++ (payload ++ trailing))

/-- An indefinite length block: `#0`, the bytes, and a newline. -/
def indefiniteBlock (payload : List UInt8) : List UInt8 :=
  '#'.toUInt8 :: '0'.toUInt8 :: (payload ++ ['\n'.toUInt8])

/-- A response of `len` bytes is decoded as a payload. -/
def DecodesTo (data : Memory) (len : Int) (flags : UInt32) (payload : List UInt8) : Prop :=
  (instDecode4882Data data len flags).ret = 0 ∧
    (instDecode4882Data data len flags).len = payload.length ∧
    (instDecode4882Data data len flags).data.Holds 0 payload

section
variable {data : Memory} {flags : UInt32} {payload : List UInt8}

/-- The header of a definite length block is one. -/
theorem definiteHeader_definiteBlock {digits : Nat} {trailing : List UInt8}
    (positive : 1 ≤ digits) (small : digits ≤ 9)
    (holds : data.Holds 0 (definiteBlock digits payload trailing)) :
    DefiniteHeader data ∧ fieldLength data = digits := by
  rw [definiteBlock, Memory.holds_cons, Memory.holds_cons] at holds
  obtain ⟨hash, digit, -⟩ := holds
  have count : (data 1).toNat = 48 + digits := by
    rw [Int.zero_add] at digit
    rw [digit]
    exact UInt8.toNat_ofNat_of_lt' (by change 48 + digits < 256; omega)
  refine ⟨⟨hash, ?_, ?_⟩, ?_⟩
  · rw [UInt8.le_iff_toNat_le, count]
    change 49 ≤ 48 + digits
    omega
  · rw [UInt8.le_iff_toNat_le, count]
    change 48 + digits ≤ 57
    omega
  · change (data 1).toNat - 48 = digits
    omega

/-- The length field of a definite length block is the number of its bytes. -/
theorem lengthField_definiteBlock {digits : Nat} {trailing : List UInt8}
    (positive : 1 ≤ digits) (small : digits ≤ 9) (fits : payload.length < 10 ^ digits)
    (holds : data.Holds 0 (definiteBlock digits payload trailing)) :
    lengthField data = zeroPadded digits payload.length ∧
      data.Holds (2 + digits) payload := by
  have count := (definiteHeader_definiteBlock positive small holds).2
  have width := length_zeroPadded positive fits
  rw [definiteBlock, Memory.holds_cons, Memory.holds_cons, Memory.holds_append,
    Memory.holds_append, List.length_map, width] at holds
  obtain ⟨-, -, field, body, -⟩ := holds
  refine ⟨?_, by simpa using body⟩
  rw [Memory.Holds, List.length_map, width] at field
  rw [lengthField, count]
  change (data.slice (0 + 1 + 1) digits).map charOf = _
  rw [field, List.map_map]
  refine (List.map_congr_left fun c member => ?_).trans (List.map_id _)
  exact charOf_toUInt8 (zeroPadded_decimal digits payload.length c member)

/-- A definite length block is decoded. -/
theorem decodesTo_definiteBlock {digits : Nat} {trailing : List UInt8}
    (positive : 1 ≤ digits) (small : digits ≤ 9) (fits : payload.length < 10 ^ digits)
    (holds : data.Holds 0 (definiteBlock digits payload trailing))
    (wanted : flags &&& decodeDlab ≠ 0) :
    DecodesTo data (definiteBlock digits payload trailing).length flags payload := by
  obtain ⟨header, count⟩ := definiteHeader_definiteBlock positive small holds
  obtain ⟨field, body⟩ := lengthField_definiteBlock positive small fits holds
  have width := length_zeroPadded positive fits
  have length : (definiteBlock digits payload trailing).length =
      2 + digits + payload.length + trailing.length := by
    simp [definiteBlock, width]
    omega
  have read : extractDlabLen data 2 (fieldLength data)
      ((definiteBlock digits payload trailing).length - 2) = payload.length := by
    rw [extractDlabLen_digits header (by omega)
      (field ▸ zeroPadded_decimal digits payload.length), field, digitsValue_zeroPadded]
  have accepted :
      (decodeDefinite data (definiteBlock digits payload trailing).length flags).ret = 0 := by
    rw [decodeDefinite_ret, read]
    exact ⟨fun unwanted => wanted unwanted.1, by omega, by omega⟩
  have below : payload.length < 2 ^ 64 :=
    Nat.lt_of_lt_of_le fits ((Nat.pow_le_pow_right (by decide) small).trans (by decide))
  have word : (toULong (payload.length : Int)).toNat = payload.length := by
    rw [toNat_toULong (by omega) (by omega), Int.toNat_natCast]
  rw [DecodesTo, instDecode4882Data_definite header (by omega), decodeDefinite_accepted accepted,
    if_pos wanted, read, word, count]
  refine ⟨rfl, rfl, ?_⟩
  exact (Memory.slice_memmove data 0 _ _).trans body

/-- An indefinite length block is decoded. -/
theorem decodesTo_indefiniteBlock (holds : data.Holds 0 (indefiniteBlock payload))
    (wanted : flags &&& decodeIlab ≠ 0) :
    DecodesTo data (indefiniteBlock payload).length flags payload := by
  have length : (indefiniteBlock payload).length = payload.length + 3 := by
    simp [indefiniteBlock]
  rw [indefiniteBlock, Memory.holds_cons, Memory.holds_cons, Memory.holds_append,
    Memory.holds_cons] at holds
  obtain ⟨hash, zero, body, newline, -⟩ := holds
  have header : IndefiniteHeader data (indefiniteBlock payload).length := by
    refine ⟨hash, zero, ?_⟩
    rw [← newline, length]
    congr 1
    omega
  have size : ((indefiniteBlock payload).length - 3 : Int) = payload.length := by omega
  rw [DecodesTo, instDecode4882Data, if_neg (by omega), if_pos header, decodeIndefinite,
    if_neg (fun unwanted => wanted unwanted.1), if_pos wanted, size, Int.toNat_natCast]
  refine ⟨rfl, rfl, ?_⟩
  exact (Memory.slice_memmove data 0 _ _).trans body

end

/-- Blocks written as the standard says are decoded to their payload. -/
theorem instDecode4882Data_encoded (payload : List UInt8) (data : Memory) (flags : UInt32) :
    (∀ (digits : Nat) (trailing : List UInt8), 1 ≤ digits → digits ≤ 9 →
      payload.length < 10 ^ digits → data.Holds 0 (definiteBlock digits payload trailing) →
      flags &&& decodeDlab ≠ 0 →
      DecodesTo data (definiteBlock digits payload trailing).length flags payload) ∧
    (data.Holds 0 (indefiniteBlock payload) → flags &&& decodeIlab ≠ 0 →
      DecodesTo data (indefiniteBlock payload).length flags payload) :=
  ⟨fun _ _ positive small fits holds wanted =>
    decodesTo_definiteBlock positive small fits holds wanted, decodesTo_indefiniteBlock⟩

/-- The payload `#1` in two digits with a newline after the block, and in a block that ends with
the newline. -/
theorem instDecode4882Data_encoded_hash :
    DecodesTo (.ofBytes (definiteBlock 2 [35, 49] [10])) 7 decodeDlab [35, 49] ∧
      DecodesTo (.ofBytes (indefiniteBlock [35, 49])) 5 decodeIlab [35, 49] := by
  constructor
  · exact (instDecode4882Data_encoded [35, 49] _ decodeDlab).1 2 [10] (by decide) (by decide)
      (by decide) (Memory.holds_ofBytes _) (by decide)
  · exact (instDecode4882Data_encoded [35, 49] _ decodeIlab).2 (Memory.holds_ofBytes _) (by decide)

/-! ## Refusal and verification -/

/-- The formats of block data. -/
inductive BlockFormat where
  /-- Definite length arbitrary block response data. -/
  | dlab
  /-- Indefinite length arbitrary block response data. -/
  | ilab
  deriving DecidableEq

/-- The flag that asks for a format to be decoded. -/
def BlockFormat.decodeFlag : BlockFormat → UInt32
  | .dlab => decodeDlab
  | .ilab => decodeIlab

/-- The flag that asks for a format to be verified. -/
def BlockFormat.verifyFlag : BlockFormat → UInt32
  | .dlab => verifyDlab
  | .ilab => verifyIlab

/-- The format that a response starts as. -/
def BlockFormat.Found (data : Memory) (len : Int) : BlockFormat → Prop
  | .dlab => DefiniteHeader data
  | .ilab => IndefiniteHeader data len

/-- Flags that name a format. -/
def BlockFormat.Wanted (flags : UInt32) (format : BlockFormat) : Prop :=
  flags &&& format.decodeFlag ≠ 0 ∨ flags &&& format.verifyFlag ≠ 0

/-- What is left as it was: the data, `*lenp`, and every byte, none of which is moved. -/
structure Untouched (data : Memory) (len : Int) (result : Decoded) : Prop where
  data : result.data = data
  len : result.len = len
  moves : result.moves = []

/-- The number of bytes that a block gives can be read, and so many are there. -/
def BlockFormat.Complete (data : Memory) (len : Int) : BlockFormat → Prop
  | .dlab => extractDlabLen data 2 (fieldLength data) (len - 2) ≠ -1 ∧
      extractDlabLen data 2 (fieldLength data) (len - 2) + 2 + fieldLength data ≤ len
  | .ilab => True

/-- Flags ask for what either of two asks for. -/
theorem or_and_ne_zero (flags bit mask : UInt32) :
    (flags ||| bit) &&& mask ≠ 0 ↔ flags &&& mask ≠ 0 ∨ bit &&& mask ≠ 0 := by
  have split : (flags ||| bit) &&& mask = flags &&& mask ||| bit &&& mask := by
    apply UInt32.toBitVec_inj.mp
    simp only [UInt32.toBitVec_and, UInt32.toBitVec_or]
    ext i
    simp [Bool.and_or_distrib_right]
  rw [split]
  simp [← not_and_or]

/-- Asking for a format to be verified and asking for it to be decoded name the same formats. -/
theorem wanted_verify_iff (flags : UInt32) (asked format : BlockFormat) :
    format.Wanted (flags ||| asked.verifyFlag) ↔ format.Wanted (flags ||| asked.decodeFlag) := by
  have named : asked.verifyFlag &&& format.decodeFlag ≠ 0 ∨
        asked.verifyFlag &&& format.verifyFlag ≠ 0 ↔
      asked.decodeFlag &&& format.decodeFlag ≠ 0 ∨ asked.decodeFlag &&& format.verifyFlag ≠ 0 := by
    cases asked <;> cases format <;> decide
  simp only [BlockFormat.Wanted, or_and_ne_zero]
  rw [or_or_or_comm, named, or_or_or_comm]

/-- Flags name no format exactly when neither bit is set. -/
theorem not_wanted {flags : UInt32} {format : BlockFormat} :
    ¬format.Wanted flags ↔ flags &&& format.decodeFlag = 0 ∧ flags &&& format.verifyFlag = 0 := by
  rw [BlockFormat.Wanted, not_or, not_not, not_not]

section
variable {data : Memory} {len : Int} {flags : UInt32}

/-- A response starts as one format at most. -/
theorem found_unique {format other : BlockFormat} (found : format.Found data len)
    (also : other.Found data len) : format = other := by
  have clash : IndefiniteHeader data len → DefiniteHeader data → False := by
    rintro ⟨-, zero, -⟩ ⟨-, digit, -⟩
    rw [zero] at digit
    exact absurd digit (by decide)
  cases format <;> cases other
  · rfl
  · exact (clash also found).elim
  · exact (clash found also).elim
  · rfl

/-- An indefinite length block is accepted exactly when it is wanted. -/
theorem decodeIndefinite_ret :
    (decodeIndefinite data len flags).ret = 0 ↔ BlockFormat.ilab.Wanted flags := by
  rw [← not_iff_not, not_wanted]
  unfold decodeIndefinite
  split
  case isTrue unwanted => exact iff_of_true (by simp [refused]) unwanted
  case isFalse wanted => split <;> exact iff_of_false (by simp [stripped, verified]) wanted

/-- A branch of the decoder refuses a response and leaves it as it was, or accepts it; and then
it leaves it as it was too, unless a flag asks for it to be decoded. -/
def Atomic (data : Memory) (len : Int) (decode : UInt32) (result : Decoded) : Prop :=
  result.ret = -1 ∧ Untouched data len result ∨
    result.ret = 0 ∧ (decode = 0 → Untouched data len result)

/-- The branch for indefinite length blocks. -/
theorem decodeIndefinite_atomic :
    Atomic data len (flags &&& decodeIlab) (decodeIndefinite data len flags) := by
  unfold decodeIndefinite
  split
  · exact .inl ⟨rfl, rfl, rfl, rfl⟩
  · split
    case isTrue asked => exact .inr ⟨rfl, fun unasked => absurd unasked asked⟩
    case isFalse => exact .inr ⟨rfl, fun _ => ⟨rfl, rfl, rfl⟩⟩

/-- The branch for definite length blocks. -/
theorem decodeDefinite_atomic :
    Atomic data len (flags &&& decodeDlab) (decodeDefinite data len flags) := by
  simp only [decodeDefinite]
  split
  · exact .inl ⟨rfl, rfl, rfl, rfl⟩
  split
  · exact .inl ⟨rfl, rfl, rfl, rfl⟩
  split
  · exact .inl ⟨rfl, rfl, rfl, rfl⟩
  split
  case isTrue asked => exact .inr ⟨rfl, fun unasked => absurd unasked asked⟩
  case isFalse => exact .inr ⟨rfl, fun _ => ⟨rfl, rfl, rfl⟩⟩

/-- A response of three bytes or more is decoded as the format it starts as. -/
theorem instDecode4882Data_found {format : BlockFormat} (found : format.Found data len)
    (long : 3 ≤ len) :
    instDecode4882Data data len flags =
      match format with
      | .dlab => decodeDefinite data len flags
      | .ilab => decodeIndefinite data len flags := by
  cases format with
  | dlab => exact instDecode4882Data_definite found long flags
  | ilab =>
    have header : IndefiniteHeader data len := found
    rw [instDecode4882Data, if_neg (Int.not_lt.mpr long), if_pos header]

/-- Any other response is refused and left as it was. -/
theorem instDecode4882Data_garbled
    (other : ¬(3 ≤ len ∧ ∃ format, BlockFormat.Found data len format)) :
    (instDecode4882Data data len flags).ret = -1 ∧
      Untouched data len (instDecode4882Data data len flags) := by
  unfold instDecode4882Data
  split
  case isTrue => exact ⟨rfl, rfl, rfl, rfl⟩
  case isFalse long =>
    have none := not_exists.mp fun some => other ⟨Int.not_lt.mp long, some⟩
    have notIndefinite : ¬IndefiniteHeader data len := none .ilab
    have notDefinite : ¬DefiniteHeader data := none .dlab
    rw [if_neg notIndefinite, if_neg notDefinite]
    exact ⟨rfl, rfl, rfl, rfl⟩

/-- A response is accepted exactly when it is a complete block of a format that is wanted. -/
theorem instDecode4882Data_accepts_iff :
    (instDecode4882Data data len flags).ret = 0 ↔
      3 ≤ len ∧ ∃ format, BlockFormat.Found data len format ∧ format.Wanted flags ∧
        format.Complete data len := by
  by_cases some : 3 ≤ len ∧ ∃ format, BlockFormat.Found data len format
  · obtain ⟨long, format, found⟩ := some
    have only : (∃ format, BlockFormat.Found data len format ∧ format.Wanted flags ∧
        format.Complete data len) ↔ format.Wanted flags ∧ format.Complete data len := by
      constructor
      · rintro ⟨other, also, rest⟩
        exact found_unique also found ▸ rest
      · exact fun rest => ⟨format, found, rest⟩
    rw [only, instDecode4882Data_found found long]
    cases format with
    | dlab =>
      have wanted := not_iff_comm.mp (@not_wanted flags .dlab)
      simp only [BlockFormat.decodeFlag, BlockFormat.verifyFlag] at wanted
      simp only [decodeDefinite_ret, wanted, long, true_and, BlockFormat.Complete]
    | ilab => simp [decodeIndefinite_ret, BlockFormat.Complete, long]
  · have refused := (@instDecode4882Data_garbled data len flags some).1
    refine iff_of_false (by simp [refused]) ?_
    rintro ⟨long, format, found, -⟩
    exact some ⟨long, format, found⟩

/-- A response of some format is handled by the branch for it. -/
theorem instDecode4882Data_branch {format : BlockFormat} (found : format.Found data len)
    (long : 3 ≤ len) :
    Atomic data len (flags &&& format.decodeFlag) (instDecode4882Data data len flags) := by
  rw [instDecode4882Data_found found long]
  cases format with
  | dlab => exact decodeDefinite_atomic
  | ilab => exact decodeIndefinite_atomic

end

/-- `inst_decode_488_2_data` is atomic, and its flags agree. It returns 0 or -1; after -1 the data
and `*lenp` are as they were. After 0 the response is of a format that the flags name, and is as
it was when they do not ask for it to be decoded. Whatever the other flags are, a response is
accepted when a format is to be verified exactly when it is accepted when it is to be decoded. -/
theorem instDecode4882Data_atomic (data : Memory) (len : Int) (flags : UInt32) :
    ((instDecode4882Data data len flags).ret = 0 ∨ (instDecode4882Data data len flags).ret = -1) ∧
    ((instDecode4882Data data len flags).ret = -1 →
      Untouched data len (instDecode4882Data data len flags)) ∧
    ((instDecode4882Data data len flags).ret = 0 → ∃ format, BlockFormat.Found data len format ∧
      (∀ other, BlockFormat.Found data len other → other = format) ∧ format.Wanted flags ∧
      (flags &&& format.decodeFlag = 0 →
        Untouched data len (instDecode4882Data data len flags))) ∧
    ∀ asked : BlockFormat,
      (instDecode4882Data data len (flags ||| asked.verifyFlag)).ret = 0 ↔
        (instDecode4882Data data len (flags ||| asked.decodeFlag)).ret = 0 := by
  have cases : ∀ format, BlockFormat.Found data len format → 3 ≤ len →
      Atomic data len (flags &&& format.decodeFlag) (instDecode4882Data data len flags) :=
    fun format found long => instDecode4882Data_branch found long
  have refusal : (instDecode4882Data data len flags).ret = 0 ∨
      (instDecode4882Data data len flags).ret = -1 ∧
        Untouched data len (instDecode4882Data data len flags) := by
    by_cases some : 3 ≤ len ∧ ∃ format, BlockFormat.Found data len format
    · obtain ⟨long, format, found⟩ := some
      exact (cases format found long).symm.imp_left And.left
    · exact .inr (instDecode4882Data_garbled some)
  refine ⟨refusal.imp_right And.left, ?_, ?_, ?_⟩
  · intro refused
    rw [refused] at refusal
    exact (refusal.resolve_left (by decide)).2
  · intro accepted
    obtain ⟨long, format, found, wanted, -⟩ := instDecode4882Data_accepts_iff.mp accepted
    refine ⟨format, found, fun other also => found_unique also found, wanted, ?_⟩
    rcases cases format found long with refused | kept
    · exact fun _ => refused.2
    · exact kept.2
  · intro asked
    simp only [instDecode4882Data_accepts_iff, wanted_verify_iff]

end GpibUtils.Inst
