import GpibUtils.CSem.Buffer
import GpibUtils.CSem.Word

/-!
# Formatting into memory

`hvsprintf` has a text formatted into a buffer that it makes larger by one chunk after another until
the text fits. How long the text is it learns from `vsnprintf`, which says so in C99 also when the
text was cut, and in older libraries says only that it was. Either way the text is whole in the end,
in the smallest number of chunks that has room for it, unless there is no memory for them, which
ends the program, or the text has a NUL in it (`hvsprintf_whole`).
-/

namespace GpibUtils

open CSem

/-! ## The code -/

/-- `CHUNKSIZE` -/
def chunkSize : Nat := 80

/-- What one call of `malloc` or `realloc` adds to the buffer, with whatever is in it. -/
abbrev Chunk := {bytes : Buffer // bytes.length = chunkSize}

/-- `vsnprintf`, of a format and its arguments: what it returns for a buffer and its size, and the
buffer after it. -/
abbrev Vsnprintf := Buffer → Int → Int × Buffer

/-- What `hvsprintf` comes to. -/
inductive Formatted where
  /-- It returns the buffer. -/
  | text (str : Buffer)
  /-- There is no more memory: `lsd_nomem_error` prints a message and exits with status 1. -/
  | exited
  /-- Its assertion fails. -/
  | assertion
  /-- It looks for a NUL behind the buffer. -/
  | outside
  deriving DecidableEq

/-- The loop of `hvsprintf`, with the chunks that can be allocated yet. -/
def hvsprintfLoop (vsnprintf : Vsnprintf) : (chunks : List Chunk) → (str : Buffer) → (size : Int) →
    Formatted
  | [], _, _ => .exited
  | chunk :: chunks, str, size =>
    let str := str ++ chunk.val
    let size := toInt (size + chunkSize)
    let (len, str) := vsnprintf str size
    if len = -1 ∨ len ≥ size then hvsprintfLoop vsnprintf chunks str size
    else
      match str.strlen with
      | none => .outside
      | some n => if len = n then .text str else .assertion

/-- `hvsprintf` -/
def hvsprintf (vsnprintf : Vsnprintf) (chunks : List Chunk) : Formatted :=
  hvsprintfLoop vsnprintf chunks [] 0

/-! ## Whole texts -/

/-- A format and its arguments make a text: as much of it as there is room for is stored with a NUL
behind it. Its length is returned when it fits; when it does not, its length is returned, or -1 by
an older library. -/
structure Formats (vsnprintf : Vsnprintf) (text : List UInt8) : Prop where
  stores : ∀ str : Buffer, str ≠ [] → (vsnprintf str str.length).2 =
    text.take (str.length - 1) ++ 0 :: str.drop (min text.length (str.length - 1) + 1)
  fits : ∀ str : Buffer, text.length < str.length → (vsnprintf str str.length).1 = text.length
  cut : ∀ str : Buffer, str.length ≤ text.length →
    (vsnprintf str str.length).1 = -1 ∨ (vsnprintf str str.length).1 = text.length

section

variable {vsnprintf : Vsnprintf} {text : List UInt8} (formats : Formats vsnprintf text)
include formats

/-- The buffer keeps its size. -/
theorem Formats.length {str : Buffer} (nonempty : str ≠ []) :
    (vsnprintf str str.length).2.length = str.length := by
  have positive := List.length_pos_iff.mpr nonempty
  rw [formats.stores str nonempty, List.length_append, List.length_cons, List.length_take,
    List.length_drop]
  omega

/-- A text that fits is in the buffer, with a NUL behind it. -/
theorem Formats.whole {str : Buffer} (room : text.length < str.length) :
    ∃ rest, (vsnprintf str str.length).2 = text ++ 0 :: rest := by
  have nonempty : str ≠ [] := List.length_pos_iff.mp (by omega)
  rw [formats.stores str nonempty, List.take_of_length_le (by omega)]
  exact ⟨_, rfl⟩

end

/-- What a text comes to when so many chunks can be allocated: the end of the program when they have
no room for it, and else the text with a NUL behind it, in as few chunks as have room for both. A
text that has a NUL in it makes the assertion fail. -/
def Whole (text : List UInt8) (chunks : Nat) (result : Formatted) : Prop :=
  if chunks ≤ text.length / chunkSize then result = .exited
  else if 0 ∈ text then result = .assertion
  else ∃ rest, result = .text (text ++ 0 :: rest) ∧
    (text ++ 0 :: rest).length = chunkSize * (text.length / chunkSize + 1)

/-- The string in front of a NUL is as long as the text there exactly when the text has no NUL. -/
theorem strlen_text (text rest : List UInt8) :
    ∃ n, Buffer.strlen (text ++ 0 :: rest) = some n ∧ (n = text.length ↔ 0 ∉ text) := by
  obtain ⟨more, split, plain⟩ := Buffer.exists_str text rest
  refine ⟨(Buffer.str text).length, by rw [split, Buffer.strlen_append plain], ?_⟩
  constructor
  · intro same zero
    have whole : Buffer.str text = text := (List.takeWhile_prefix _).eq_of_length same
    rw [← whole] at zero
    exact plain 0 zero rfl
  · intro without
    have each : ∀ byte ∈ text, decide (byte ≠ 0) = true := fun byte member =>
      decide_eq_true fun zero => without (zero ▸ member)
    rw [Buffer.str, List.takeWhile_eq_self_iff.mpr each]

/-- The loop goes on while the chunks that it has are not enough, and ends as soon as they are. -/
theorem hvsprintfLoop_whole {vsnprintf : Vsnprintf} {text : List UInt8}
    (formats : Formats vsnprintf text) (small : (text.length : Int) + chunkSize ≤ intMax)
    (chunks : List Chunk) {str : Buffer} {rounds : Nat} (length : str.length = chunkSize * rounds)
    (short : str.length ≤ text.length) :
    Whole text (rounds + chunks.length) (hvsprintfLoop vsnprintf chunks str str.length) := by
  unfold chunkSize at small length
  induction chunks generalizing str rounds with
  | nil =>
    have all : rounds + 0 ≤ text.length / chunkSize := by
      unfold chunkSize
      omega
    exact (if_pos all).mpr rfl
  | cons chunk chunks ih =>
    have added : chunk.val.length = 80 := chunk.property
    have grown : (str ++ chunk.val).length = 80 * (rounds + 1) := by
      rw [List.length_append, length, added]
      omega
    have nonempty : str ++ chunk.val ≠ [] := List.length_pos_iff.mp (by omega)
    have size : toInt ((str.length : Int) + chunkSize) = (str ++ chunk.val).length := by
      unfold chunkSize
      rw [toInt_of_range (by omega) (by omega), grown, length]
      omega
    have counted : rounds + (chunk :: chunks).length = rounds + 1 + chunks.length := by
      rw [List.length_cons]
      omega
    rw [hvsprintfLoop, size, counted]
    dsimp only
    by_cases fits : text.length < (str ++ chunk.val).length
    · have enough : ¬rounds + 1 + chunks.length ≤ text.length / chunkSize := by
        unfold chunkSize
        omega
      have inside : ¬((text.length : Int) = -1 ∨
          (text.length : Int) ≥ (str ++ chunk.val).length) := by omega
      obtain ⟨rest, whole⟩ := formats.whole fits
      have kept := formats.length nonempty
      obtain ⟨n, strlen, same⟩ := strlen_text text rest
      rw [Whole, if_neg enough, formats.fits _ fits, if_neg inside, whole, strlen]
      dsimp only
      by_cases zero : 0 ∈ text
      · rw [if_pos zero, if_neg fun equal => same.mp (Int.ofNat_inj.mp equal).symm zero]
      · rw [if_neg zero, if_pos (by rw [same.mpr zero])]
        refine ⟨rest, rfl, ?_⟩
        unfold chunkSize
        rw [← whole, kept, grown]
        omega
    · have again : (vsnprintf (str ++ chunk.val) (str ++ chunk.val).length).1 = -1 ∨
          (vsnprintf (str ++ chunk.val) (str ++ chunk.val).length).1 ≥
            (str ++ chunk.val).length := by
        rcases formats.cut (str ++ chunk.val) (by omega) with cut | cut
        · exact .inl cut
        · rw [cut]
          exact .inr (by omega)
      have kept := formats.length nonempty
      have next := ih (kept.trans grown) (by omega)
      rw [kept] at next
      rwa [if_pos again]

/-- Whatever the text, and whichever way the library tells that it was cut, it is returned whole, in
as few chunks as have room for it. The program ends when these cannot be allocated, and the
assertion fails for a text that has a NUL in it; nothing is looked for behind the buffer. -/
theorem hvsprintf_whole {vsnprintf : Vsnprintf} {text : List UInt8}
    (formats : Formats vsnprintf text) (small : (text.length : Int) + chunkSize ≤ intMax)
    (chunks : List Chunk) : Whole text chunks.length (hvsprintf vsnprintf chunks) := by
  have loop := @hvsprintfLoop_whole vsnprintf text formats small chunks [] 0 rfl (Nat.zero_le _)
  rwa [Nat.zero_add] at loop

end GpibUtils
