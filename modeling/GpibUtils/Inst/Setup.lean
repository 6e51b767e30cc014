import GpibUtils.Inst.Strings
import GpibUtils.Util.WriteAll

/-!
# Saving and restoring a setup

`inst_488_2_lrn` writes the response of an instrument to `*LRN?` to standard output, and
`inst_488_2_restore` is to send what it reads from standard input to the instrument. The count that
the query returns includes the NUL it puts behind a response, and carriage returns and newlines at
its end are overwritten by NULs, so these are written too. The restore keeps a truth value in place
of the count, and sends nothing (`setup_saved_iff`).
-/

namespace GpibUtils.Inst

open CSem Util

/-! ## The code -/

/-- The size of both buffers. -/
def setupSize : Nat := 32768

/-- An `int` counts up to it. -/
theorem setupSize_small : (setupSize : Int) - 1 ≤ intMax := by
  unfold setupSize intMax
  omega

/-- `*LRN?` and a newline. -/
def lrnQuery : List UInt8 := [42, 76, 82, 78, 63, 10]

/-- `inst_488_2_lrn`: what standard output accepts; `none` is the exit after a write error. -/
def inst4882Lrn (line : Line) (buf : Buffer) (stdout : List SysWrite) :
    Except Stop (Option (List UInt8)) := do
  let (len, buf) ← instQrystr line lrnQuery buf buf.length
  let written := writeAll (buf.take len.toNat) stdout
  if (written.bc : Int) < 0 then .ok none else .ok (some written.accepted)

/-- `inst_488_2_restore`: the bytes given to `inst_wrt`; `none` is the exit after a read error. The
comparison is made before the assignment, so `len` is its truth value. -/
def inst4882Restore (stdin : List SysRead) : Option (List UInt8) :=
  let (bc, buf) := readAll setupSize (Memory.ofBytes []) 0 stdin
  let len : Int := if bc < 0 then 1 else 0
  if len ≠ 0 then none else some (buf.slice 0 len.toNat)

/-! ## Saving -/

/-- A response is saved: but for carriage returns and newlines at its end all of it is written, and
nothing that the instrument did not send. -/
def Saved (response out : List UInt8) : Prop :=
  (∃ tail, response = out ++ tail ∧ ∀ byte ∈ tail, isTerminator byte = true) ∧
    ∀ byte ∈ out, byte ∈ response

/-- What is written for a response to a query with so much room: a NUL for every terminator, and the
one put behind it. -/
def lrnImage (room : Int) (response : List UInt8) : List UInt8 :=
  response.rdropWhile isTerminator ++
    List.replicate (terminators response + if (response.length : Int) < room then 1 else 0) 0

/-- The text of a response and its terminators are all of it. -/
theorem length_rdropWhile (response : List UInt8) :
    (response.rdropWhile isTerminator).length + terminators response = response.length := by
  have shorter := (List.rdropWhile_prefix isTerminator response).length_le
  unfold terminators
  omega

/-- The buffer of `inst_qrystr` begins with the image of the response. -/
theorem take_zapped {response : List UInt8} (plain : ∀ byte ∈ response, byte ≠ 0) {room : Int}
    {rest after : List UInt8}
    (zapped : zapTrailingTerminators (terminated response room ++ 0 :: rest) = some after) :
    after.take (terminated response room).length = lrnImage room response := by
  have text := length_rdropWhile response
  have last : response.getLast? ≠ some 0 := fun ends => plain 0 (List.mem_of_getLast? ends) rfl
  by_cases shorter : (response.length : Int) < room
  · have behind : terminated response room = response ++ [0] := if_pos ⟨shorter, last⟩
    rw [behind, List.append_assoc, List.singleton_append,
      zapTrailingTerminators_append plain] at zapped
    have split : response.rdropWhile isTerminator ++
        (List.replicate (terminators response) 0 ++ 0 :: 0 :: rest) =
          lrnImage room response ++ 0 :: rest := by
      rw [lrnImage, if_pos shorter, List.replicate_succ']
      simp
    have length : (response ++ [0]).length = (lrnImage room response).length := by
      simp only [lrnImage, if_pos shorter, List.length_append, List.length_replicate,
        List.length_singleton]
      omega
    rw [← Option.some.inj zapped, behind, split, length, List.take_left]
  · have behind : terminated response room = response := if_neg fun both => shorter both.1
    rw [behind, zapTrailingTerminators_append plain] at zapped
    have split : response.rdropWhile isTerminator ++
        (List.replicate (terminators response) 0 ++ 0 :: rest) =
          lrnImage room response ++ 0 :: rest := by
      rw [lrnImage, if_neg shorter, Nat.add_zero, List.append_assoc]
    have length : response.length = (lrnImage room response).length := by
      simp only [lrnImage, if_neg shorter, List.length_append, List.length_replicate]
      omega
    rw [← Option.some.inj zapped, behind, split, length, List.take_left]

/-- `inst_488_2_lrn` gives standard output the image of a response. -/
theorem inst4882Lrn_delivers {line : Line} (accepts : line.write lrnQuery = .ok ()) {buf : Buffer}
    {response : List UInt8} (nonempty : response ≠ []) (plain : ∀ byte ∈ response, byte ≠ 0)
    (delivers : line.Delivers response (buf.length - 1)) (stdout : List SysWrite) :
    inst4882Lrn line buf stdout =
      .ok (some (writeAll (lrnImage (buf.length - 1) response) stdout).accepted) := by
  obtain ⟨rest, after, zapped, query⟩ := instQrystr_delivers accepts nonempty delivers
  have image := take_zapped plain zapped
  have never : ¬((writeAll (lrnImage (buf.length - 1) response) stdout).bc : Int) < 0 := by omega
  simp only [inst4882Lrn, query, bind, Except.bind, Int.toNat_natCast, image, if_neg never]

/-- Terminators at the end make no difference to what comes before them. -/
theorem rdropWhile_tail (front : List UInt8) {tail : List UInt8}
    (ends : ∀ byte ∈ tail, isTerminator byte = true) :
    (front ++ tail).rdropWhile isTerminator = front.rdropWhile isTerminator := by
  induction tail using List.reverseRecOn with
  | nil => rw [List.append_nil]
  | append_singleton tail byte ih =>
    have last := ends byte (by simp)
    rw [← List.append_assoc, List.rdropWhile_concat_pos _ _ _ last]
    exact ih fun other member => ends other (List.mem_append_left _ member)

/-- What is accepted of the image saves a response exactly when it is the text. -/
theorem saved_iff {response out : List UInt8} (plain : ∀ byte ∈ response, byte ≠ 0) {room : Int}
    (front : out <+: lrnImage room response) :
    Saved response out ↔ out.length = (response.rdropWhile isTerminator).length := by
  have whole : response.rdropWhile isTerminator ++ response.rtakeWhile isTerminator = response :=
    List.rdropWhile_append_rtakeWhile
  constructor
  · rintro ⟨⟨tail, split, ends⟩, sent⟩
    have text : response.rdropWhile isTerminator = out.rdropWhile isTerminator := by
      rw [split, rdropWhile_tail out ends]
    have shorter : (response.rdropWhile isTerminator).length ≤ out.length := by
      rw [text]
      exact (List.rdropWhile_prefix isTerminator out).length_le
    have begins := List.prefix_of_prefix_length_le (List.prefix_append _ _) front shorter
    obtain ⟨more, joined⟩ := begins
    -- What is accepted behind the text are NULs, which the instrument did not send.
    cases more with
    | nil => rw [← joined, List.append_nil]
    | cons byte more =>
      rw [← joined, lrnImage, List.prefix_append_right_inj] at front
      have zero : byte = 0 := List.eq_of_mem_replicate (front.subset List.mem_cons_self)
      have member : byte ∈ out := by
        rw [← joined]
        simp
      exact absurd zero (plain byte (sent byte member))
  · intro length
    have text : out = response.rdropWhile isTerminator :=
      (List.prefix_of_prefix_length_le front (List.prefix_append _ _)
        (Nat.le_of_eq length)).eq_of_length length
    refine ⟨⟨response.rtakeWhile isTerminator, ?_, ?_⟩, ?_⟩
    · rw [text, whole]
    · exact fun byte member => List.mem_rtakeWhile_imp member
    · intro byte member
      rw [text] at member
      exact (List.rdropWhile_prefix _ _).subset member

/-- A response is saved exactly when standard output accepts its text and no more; it can accept
no more when the text is the whole image. -/
theorem saved_writeAll_iff {response : List UInt8} (plain : ∀ byte ∈ response, byte ≠ 0)
    {room : Int} (fits : response.length ≤ room) (stdout : List SysWrite) :
    let text := (response.rdropWhile isTerminator).length
    Saved response (writeAll (lrnImage room response) stdout).accepted ↔
      Suffice text stdout ∧
        (Suffice (text + 1) stdout → response.length = room ∧ terminators response = 0) := by
  intro text
  let image := lrnImage room response
  have front := (Util.writeAll_whole_iff image stdout).2.1
  have size : image.length =
      text + (terminators response + if (response.length : Int) < room then 1 else 0) := by
    rw [show image = lrnImage room response from rfl, lrnImage, List.length_append,
      List.length_replicate]
  have shorter : text + terminators response = response.length := length_rdropWhile response
  have accepted : text ≤ (writeAll image stdout).accepted.length ↔ Suffice text stdout :=
    le_length_writeAll_iff image stdout (by omega)
  rw [saved_iff plain front, ← accepted]
  by_cases whole : response.length = room ∧ terminators response = 0
  · have most := front.length_le
    have full : ¬(response.length : Int) < room := by omega
    rw [if_neg full] at size
    constructor
    · exact fun same => ⟨Nat.le_of_eq same.symm, fun _ => whole⟩
    · exact fun both => Nat.le_antisymm (by omega) both.1
  · have more : text + 1 ≤ image.length := by
      split at size <;> omega
    have accepted' := le_length_writeAll_iff image stdout more
    rw [← accepted']
    constructor
    · exact fun same => ⟨Nat.le_of_eq same.symm, fun beyond => by omega⟩
    · intro ⟨least, most⟩
      by_contra different
      exact whole (most (by omega))

/-! ## Restoring -/

/-- Reads of a file descriptor that give these bytes and then the end. -/
def Provides : List UInt8 → List SysRead → Prop
  | bytes, [] => bytes = []
  | bytes, .interrupted :: later => Provides bytes later
  | _, .failed :: _ => False
  | bytes, .data read :: later =>
    read = [] ∧ bytes = [] ∨ read ≠ [] ∧ ∃ rest, bytes = read ++ rest ∧ Provides rest later

/-- `read_all` counts the bytes that there is room for. -/
theorem readAll_count {len bc : Int} (small : len ≤ intMax) (start : 0 ≤ bc) {bytes : List UInt8}
    {reads : List SysRead} (provides : Provides bytes reads) (fits : bc + bytes.length ≤ len)
    (mem : Memory) : (readAll len mem bc reads).1 = bc + bytes.length := by
  induction reads generalizing bytes bc mem with
  | nil =>
    have none : bytes = [] := provides
    simp [readAll, none]
  | cons read later ih =>
    cases read with
    | interrupted => exact ih start provides fits mem
    | failed => exact absurd provides id
    | data read =>
      have same : read.length ≤ bytes.length → toInt (bc + read.length) = bc + read.length :=
        fun shorter => toInt_of_range (by omega) (by omega)
      rw [readAll]
      rcases provides with ⟨rfl, rfl⟩ | ⟨some, rest, rfl, provides⟩
      · simpa using same (Nat.le_refl _)
      · rw [List.length_append] at fits same ⊢
        rw [same (Nat.le_add_right _ _)]
        split
        · rw [ih (by omega) provides (by omega)]
          omega
        · rename_i full
          have filled : ¬bc + read.length < len := fun more => full ⟨some, more⟩
          show bc + (read.length : Int) = _
          omega

/-- `inst_488_2_restore` sends nothing. -/
theorem inst4882Restore_provides {bytes : List UInt8} {stdin : List SysRead}
    (provides : Provides bytes stdin) (fits : bytes.length ≤ setupSize) :
    inst4882Restore stdin = some [] := by
  have count := @readAll_count setupSize 0 (by decide) (Int.le_refl 0) bytes stdin provides
    (by omega) (Memory.ofBytes [])
  have never : ¬(readAll setupSize (Memory.ofBytes []) 0 stdin).1 < 0 := by omega
  simp [inst4882Restore, never]

/-! ## Both -/

/-- A response that is not empty, has no NUL and fits the buffer is saved exactly when standard
output accepts what comes before the terminators at its end, and accepts nothing behind that unless
there is nothing: the response leaves no room in the buffer and does not end with a terminator. A
setup of any size that fits the buffer is restored exactly when it is empty. -/
theorem setup_saved_iff (line : Line) (accepts : line.write lrnQuery = .ok ()) (buf : Buffer)
    (size : buf.length = setupSize) (response : List UInt8) (nonempty : response ≠ [])
    (plain : ∀ byte ∈ response, byte ≠ 0) (delivers : line.Delivers response (setupSize - 1))
    (stdout : List SysWrite) :
    let text := (response.rdropWhile isTerminator).length
    (∃ out, inst4882Lrn line buf stdout = .ok (some out) ∧
      (Saved response out ↔ Suffice text stdout ∧
        (Suffice (text + 1) stdout →
          response.length = setupSize - 1 ∧ terminators response = 0))) ∧
    ∀ setup stdin, Provides setup stdin → setup.length ≤ setupSize →
      (inst4882Restore stdin = some setup ↔ setup = []) := by
  intro text
  have fits := delivers.1
  have counted : (response.length : Int) = setupSize - 1 ↔ response.length = setupSize - 1 := by
    unfold setupSize
    omega
  refine ⟨⟨_, inst4882Lrn_delivers accepts nonempty plain (by rwa [size]) stdout, ?_⟩,
    fun setup stdin provides small => ?_⟩
  · have saved := saved_writeAll_iff plain fits stdout
    rw [counted] at saved
    rw [size]
    exact saved
  · rw [inst4882Restore_provides provides small, Option.some.injEq, eq_comm]

/-- The response `A`, to a standard output that fails after one byte. -/
theorem setup_saved_one :
    ∃ out, inst4882Lrn (answering [65] false) (List.replicate setupSize 0) [.accepts 1, .failed] =
        .ok (some out) ∧ Saved [65] out := by
  have saved := (setup_saved_iff (answering [65] false) rfl (List.replicate setupSize 0)
    List.length_replicate [65] (by decide) (by simp)
    (answering_delivers false (by simp [setupSize]) setupSize_small) [.accepts 1, .failed]).1
  have ⟨out, written, both⟩ := saved
  refine ⟨out, written, both.mpr ⟨.inl (by decide), fun more => ?_⟩⟩
  exact absurd more (by decide)

/-- The response `A` with a newline is written with two NULs in place of the newline, and what is
read to restore `A` is not sent. -/
theorem setup_lost :
    inst4882Lrn (answering [65, 10] false) (List.replicate setupSize 0) [.accepts 32768] =
        .ok (some [65, 0, 0]) ∧
      ¬Saved [65, 10] [65, 0, 0] ∧ inst4882Restore [.data [65]] = some [] := by
  have room : ((List.replicate setupSize (0 : UInt8)).length : Int) - 1 = setupSize - 1 := by
    rw [List.length_replicate]
  have delivers : (answering [65, 10] false).Delivers [65, 10]
      ((List.replicate setupSize (0 : UInt8)).length - 1) := by
    rw [room]
    exact answering_delivers false (by simp [setupSize]) setupSize_small
  have sent := @inst4882Lrn_delivers (answering [65, 10] false) rfl (List.replicate setupSize 0)
    [65, 10] (by decide) (by simp) delivers [.accepts 32768]
  rw [room] at sent
  refine ⟨sent, ?_, inst4882Restore_provides (.inr ⟨by decide, [], rfl, rfl⟩) (by decide)⟩
  intro saved
  exact absurd (saved.2 0 (by decide)) (by decide)

end GpibUtils.Inst
