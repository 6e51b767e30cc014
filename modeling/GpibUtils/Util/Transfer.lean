import GpibUtils.Inst.GenericRead
import GpibUtils.Runs
import GpibUtils.Util.WriteAll
import Mathlib.Data.List.Forall2

/-!
# `read_all` and `write_all`, call by call

Both functions of `util.c` are the same two loops, one inside the other, around another system call:
the inner one repeats a call that was interrupted, and the outer one goes on behind the bytes that
have been moved. Every call is made for what is left of the buffer, the bytes moved are the front of
the buffer in order, and the functions stop short only after a call that failed or moved nothing;
such a call ends them. The result is that of the models in which the calls are not recorded
(`transfers_contiguous`).
-/

namespace GpibUtils.Util.Transfer

open CSem Runs
open Inst (SysRead)

/-! ## The code -/

/-- What a system call answers. -/
inductive Answer where
  /-- The bytes that were moved; none is the end of a file, or a zero. -/
  | moved (bytes : List UInt8)
  /-- An error of `EINTR`. -/
  | interrupted
  /-- Any other error. -/
  | failed
  deriving DecidableEq

/-- The result of a system call, kept in an `int`. -/
def Answer.n : Answer → Int
  | .moved bytes => toInt bytes.length
  | _ => -1

/-- A system call that was made: its offset in the buffer, the number of bytes it was asked for, and
its answer. -/
structure SysCall where
  offset : Int
  count : UInt64
  answer : Answer
  deriving DecidableEq

/-- A system call: its answer and the memory after it, for the memory before, the offset, the number
of bytes asked for, and what it comes to. -/
abbrev Syscall (ω : Type) := Memory → Int → UInt64 → ω → Answer × Memory

/-- `read`, which gives no more than it is asked for. -/
def sysRead : Syscall SysRead := fun mem offset count read =>
  match read with
  | .data bytes =>
    let bytes := bytes.take count.toNat
    (.moved bytes, mem.memcpy offset bytes)
  | .interrupted => (.interrupted, mem)
  | .failed => (.failed, mem)

/-- `write`, which accepts no more than it is given. -/
def sysWrite : Syscall SysWrite := fun mem offset count write =>
  match write with
  | .accepts room => (.moved (mem.slice offset (min room count.toNat)), mem)
  | .interrupted => (.interrupted, mem)
  | .failed => (.failed, mem)

/-- What the inner loop leaves: the calls it made, the answer to the last one, the memory, and what
later calls come to. -/
structure Pass (ω : Type) where
  calls : List SysCall
  answer : Answer
  mem : Memory
  later : List ω

/-- What one of the functions leaves: the count returned, the memory, and the calls made. -/
structure Transferred where
  bc : Int
  mem : Memory
  calls : List SysCall

section
variable {ω : Type} (call : Syscall ω)

/-- The inner loop; it does not end when every call is interrupted. -/
def retry (bc : Int) (count : UInt64) : (mem : Memory) → List ω → Option (Pass ω)
  | _, [] => none
  | mem, x :: later =>
    let answer := (call mem bc count x).1
    let mem := (call mem bc count x).2
    let made : SysCall := ⟨bc, count, answer⟩
    if answer = .interrupted then
      (retry bc count mem later).map fun pass => { pass with calls := made :: pass.calls }
    else some ⟨[made], answer, mem, later⟩

/-- The inner loop uses up what its calls come to. -/
theorem retry_shorter {bc : Int} {count : UInt64} {mem : Memory} {outcomes : List ω}
    {pass : Pass ω} (ended : retry call bc count mem outcomes = some pass) :
    pass.later.length < outcomes.length := by
  induction outcomes generalizing mem pass with
  | nil => cases ended
  | cons x later ih =>
    rw [retry] at ended
    split at ended
    · obtain ⟨inner, again, rfl⟩ := Option.map_eq_some_iff.mp ended
      have shorter := ih again
      exact Nat.lt_succ_of_lt shorter
    · cases ended
      exact Nat.lt_succ_self _

/-- The outer loop, with some bytes counted already. -/
def transferLoop (len : Int) (mem : Memory) (bc : Int) (outcomes : List ω) : Option Transferred :=
  match ended : retry call bc (toULong (len - bc)) mem outcomes with
  | none => none
  | some pass =>
    have _shorter := retry_shorter call ended
    let n := pass.answer.n
    let bc := if 0 < n then toInt (bc + n) else bc
    if 0 < n ∧ bc < len then
      (transferLoop len pass.mem bc pass.later).map fun t =>
        { t with calls := pass.calls ++ t.calls }
    else some ⟨bc, pass.mem, pass.calls⟩
termination_by outcomes.length

/-- The outer loop, less the reason why it ends. -/
theorem transferLoop_eq (len : Int) (mem : Memory) (bc : Int) (outcomes : List ω) :
    transferLoop call len mem bc outcomes =
      (retry call bc (toULong (len - bc)) mem outcomes).bind fun pass =>
        let n := pass.answer.n
        let bc := if 0 < n then toInt (bc + n) else bc
        if 0 < n ∧ bc < len then
          (transferLoop call len pass.mem bc pass.later).map fun t =>
            { t with calls := pass.calls ++ t.calls }
        else some ⟨bc, pass.mem, pass.calls⟩ := by
  rw [transferLoop]
  split
  · rename_i none
    rw [none]
    rfl
  · rename_i pass ended
    simp only [ended, Option.bind_some]

end

/-- `read_all`, when it returns for these results of `read`. -/
def readAll (mem : Memory) (len : Int) (reads : List SysRead) : Option Transferred :=
  transferLoop sysRead len mem 0 reads

/-- `write_all`, when it returns for these results of `write`. -/
def writeAll (mem : Memory) (len : Int) (writes : List SysWrite) : Option Transferred :=
  transferLoop sysWrite len mem 0 writes

/-! ## A prefix -/

/-- The bytes an answer tells of. -/
def Answer.bytes : Answer → List UInt8
  | .moved bytes => bytes
  | _ => []

/-- The bytes that some calls moved, in order. -/
def movedBytes (calls : List SysCall) : List UInt8 := calls.flatMap fun call => call.answer.bytes

/-- The last call failed or moved nothing. -/
def StoppedShort (calls : List SysCall) : Prop :=
  ∃ last ∈ calls.getLast?, last.answer = .failed ∨ last.answer = .moved []

/-- The functions move a prefix of a buffer once: every call is made behind the bytes moved so far,
for what is left of the buffer; the bytes moved are as many as are counted, and are the front of the
buffer in order, which is all of the memory that has changed; and less than the whole is moved only
when the last call failed or moved nothing. -/
structure MovesPrefix (len : Int) (mem : Memory) (t : Transferred) : Prop where
  calls : ∀ before (call : SysCall) after, t.calls = before ++ call :: after →
    call.offset = (movedBytes before).length ∧ (call.count.toNat : Int) = len - call.offset
  counted : t.bc = (movedBytes t.calls).length
  within : t.bc ≤ len
  front : t.mem.slice 0 t.bc.toNat = movedBytes t.calls
  frame : ∀ a, a < 0 ∨ t.bc ≤ a → t.mem a = mem a
  short : t.bc < len → StoppedShort t.calls

/-- Some calls are answered by what comes first, one each and in order, and every answer is that of
the system call, which is cut to the number of bytes it is asked for. What comes behind is not
looked at. -/
def Answered {ω : Type} (call : Syscall ω) (mem : Memory)
    (transfer : List ω → Option Transferred) (outcomes : List ω) (t : Transferred) : Prop :=
  ∃ used unused, outcomes = used ++ unused ∧
    List.Forall₂ (fun x made => made.answer = (call mem made.offset made.count x).1) used t.calls ∧
    ∀ other, transfer (used ++ other) = some t

/-! ## System calls -/

/-- A system call moves no more than it is asked for, what it moves is then in the buffer at its
offset, and the rest of the memory is as it was. -/
structure Lawful {ω : Type} (call : Syscall ω) : Prop where
  most : ∀ mem offset count x, (call mem offset count x).1.bytes.length ≤ count.toNat
  holds : ∀ mem offset count x,
    (call mem offset count x).2.Holds offset (call mem offset count x).1.bytes
  frame : ∀ mem offset count x a,
    a < offset ∨ offset + (call mem offset count x).1.bytes.length ≤ a →
      (call mem offset count x).2 a = mem a

/-- `read` stores what it gives. -/
theorem sysRead_lawful : Lawful sysRead := by
  constructor
  · intro mem offset count read
    cases read with
    | data bytes => exact List.length_take_le _ _
    | interrupted => exact Nat.zero_le _
    | failed => exact Nat.zero_le _
  · intro mem offset count read
    cases read with
    | data bytes => exact Memory.slice_memcpy mem offset _
    | interrupted => rfl
    | failed => rfl
  · intro mem offset count read a outside
    cases read with
    | data bytes =>
      apply if_neg
      show ¬(offset ≤ a ∧ a < offset + (bytes.take count.toNat).length)
      have outside : a < offset ∨ offset + (bytes.take count.toNat).length ≤ a := outside
      omega
    | interrupted => rfl
    | failed => rfl

/-- `write` takes what is there. -/
theorem sysWrite_lawful : Lawful sysWrite := by
  constructor
  · intro mem offset count write
    cases write with
    | accepts room =>
      show (mem.slice offset (min room count.toNat)).length ≤ count.toNat
      rw [Memory.length_slice]
      exact Nat.min_le_right _ _
    | interrupted => exact Nat.zero_le _
    | failed => exact Nat.zero_le _
  · intro mem offset count write
    cases write with
    | accepts room =>
      show mem.slice offset (mem.slice offset (min room count.toNat)).length = _
      rw [Memory.length_slice]
      rfl
    | interrupted => rfl
    | failed => rfl
  · intro mem offset count write a _
    cases write <;> rfl

/-- `write` leaves the memory as it is. -/
theorem sysWrite_mem (mem : Memory) (offset : Int) (count : UInt64) (write : SysWrite) :
    (sysWrite mem offset count write).2 = mem := by
  cases write <;> rfl

section
variable {ω : Type} {call : Syscall ω} {mem : Memory} {bc len : Int} {count : UInt64}
  {outcomes : List ω}

/-- A call that moves nothing leaves the memory as it is. -/
theorem Lawful.idle (lawful : Lawful call) {offset : Int} {x : ω}
    (none : (call mem offset count x).1.bytes = []) : (call mem offset count x).2 = mem := by
  funext a
  apply lawful.frame
  rw [none, List.length_nil]
  omega

/-! ## The inner loop -/

/-- What the inner loop comes to: calls at one place that were interrupted, and one that was not,
which is all that has changed the memory. -/
structure Retried (call : Syscall ω) (bc : Int) (count : UInt64) (mem : Memory) (pass : Pass ω) :
    Prop where
  calls : ∃ times, pass.calls =
    List.replicate times ⟨bc, count, .interrupted⟩ ++ [⟨bc, count, pass.answer⟩]
  answered : pass.answer ≠ .interrupted
  last : ∃ x, call mem bc count x = (pass.answer, pass.mem)

/-- The inner loop, when it ends. -/
theorem retry_spec (lawful : Lawful call) {pass : Pass ω}
    (ended : retry call bc count mem outcomes = some pass) : Retried call bc count mem pass := by
  induction outcomes generalizing mem pass with
  | nil => cases ended
  | cons x later ih =>
    rw [retry] at ended
    split at ended
    · rename_i interrupted
      obtain ⟨inner, again, rfl⟩ := Option.map_eq_some_iff.mp ended
      have same : (call mem bc count x).2 = mem := lawful.idle (by rw [interrupted]; rfl)
      rw [same] at again
      obtain ⟨⟨times, calls⟩, answered, last⟩ := ih again
      refine ⟨⟨times + 1, ?_⟩, answered, last⟩
      simp only [interrupted, calls]
      rfl
    · rename_i answered
      cases ended
      exact ⟨⟨0, rfl⟩, answered, x, rfl⟩

/-- Its calls move what the last one does. -/
theorem Retried.movedBytes {pass : Pass ω} (retried : Retried call bc count mem pass) :
    movedBytes pass.calls = pass.answer.bytes := by
  obtain ⟨times, calls⟩ := retried.calls
  rw [calls, Transfer.movedBytes, List.flatMap_append, List.flatMap_replicate]
  simp [Answer.bytes]

/-- What the last one moved is in the buffer. -/
theorem Retried.holds (lawful : Lawful call) {pass : Pass ω}
    (retried : Retried call bc count mem pass) : pass.mem.Holds bc pass.answer.bytes := by
  obtain ⟨x, last⟩ := retried.last
  have holds := lawful.holds mem bc count x
  rwa [last] at holds

/-- The rest of the memory is as it was. -/
theorem Retried.frame (lawful : Lawful call) {pass : Pass ω}
    (retried : Retried call bc count mem pass) {a : Int}
    (outside : a < bc ∨ bc + pass.answer.bytes.length ≤ a) : pass.mem a = mem a := by
  obtain ⟨x, last⟩ := retried.last
  have frame := lawful.frame mem bc count x a
  rw [last] at frame
  exact frame outside

/-- It does not change it when no call does. -/
theorem Retried.same (keeps : ∀ mem offset count x, (call mem offset count x).2 = mem)
    {pass : Pass ω} (retried : Retried call bc count mem pass) : pass.mem = mem := by
  obtain ⟨x, last⟩ := retried.last
  have kept := keeps mem bc count x
  rwa [last] at kept

/-- A place in a buffer whose length is an `int`. -/
structure Placed (len bc : Int) : Prop where
  start : 0 ≤ bc
  within : bc ≤ len
  small : len ≤ intMax

/-- What is left of the buffer, as a call is asked for it. -/
theorem Placed.left (placed : Placed len bc) : ((toULong (len - bc)).toNat : Int) = len - bc := by
  obtain ⟨start, within, small⟩ := placed
  unfold intMax at small
  rw [toNat_toULong (by omega) (by omega)]
  omega

/-- No more is moved than is left of the buffer. -/
theorem Placed.next (placed : Placed len bc) (lawful : Lawful call) {pass : Pass ω}
    (retried : Retried call bc (toULong (len - bc)) mem pass) :
    Placed len (bc + pass.answer.bytes.length) := by
  obtain ⟨x, last⟩ := retried.last
  have most := lawful.most mem bc (toULong (len - bc)) x
  rw [last] at most
  have most : pass.answer.bytes.length ≤ (toULong (len - bc)).toNat := most
  have left := placed.left
  have start := placed.start
  exact ⟨by omega, by omega, placed.small⟩

/-- A count at a place in the buffer is an `int`. -/
theorem Placed.counted (placed : Placed len bc) : toInt bc = bc := by
  obtain ⟨start, within, small⟩ := placed
  exact toInt_of_range (by omega) (by omega)

/-- The result is positive when some bytes were moved, and counts them then. -/
theorem Answer.n_of_bytes {answer : Answer} (some : answer.bytes ≠ [])
    (small : answer.bytes.length ≤ intMax) : 0 < answer.n ∧ answer.n = answer.bytes.length := by
  cases answer with
  | moved bytes =>
    have positive := List.length_pos_iff.mpr some
    have same : toInt bytes.length = bytes.length := toInt_of_range (by omega) small
    rw [Answer.n, Answer.bytes, same]
    exact ⟨by exact_mod_cast positive, rfl⟩
  | interrupted => exact absurd rfl some
  | failed => exact absurd rfl some

/-- Otherwise it is not. -/
theorem Answer.n_of_none {answer : Answer} (none : answer.bytes = []) : ¬0 < answer.n := by
  cases answer with
  | moved bytes =>
    rw [Answer.bytes] at none
    rw [none]
    exact (by decide : ¬0 < toInt ([] : List UInt8).length)
  | interrupted => exact (by decide : ¬(0 : Int) < -1)
  | failed => exact (by decide : ¬(0 : Int) < -1)

/-- A call that was not interrupted and moved nothing failed, or answered so. -/
theorem Answer.short_of_none {answer : Answer} (answered : answer ≠ .interrupted)
    (none : answer.bytes = []) : answer = .failed ∨ answer = .moved [] := by
  cases answer with
  | moved bytes => exact .inr (congrArg Answer.moved none)
  | interrupted => exact absurd rfl answered
  | failed => exact .inl rfl

/-! ## The outer loop -/

/-- One pass of the outer loop: while bytes are moved and some are left there is another one behind
them. -/
theorem transferLoop_cases (lawful : Lawful call) (placed : Placed len bc) {t : Transferred}
    (returned : transferLoop call len mem bc outcomes = some t) :
    ∃ pass, Retried call bc (toULong (len - bc)) mem pass ∧
      pass.later.length < outcomes.length ∧
      ((pass.answer.bytes ≠ [] ∧ bc + pass.answer.bytes.length < len ∧
          ∃ rest, transferLoop call len pass.mem (bc + pass.answer.bytes.length) pass.later =
            some rest ∧ t = { rest with calls := pass.calls ++ rest.calls }) ∨
        (bc + pass.answer.bytes.length < len → pass.answer.bytes = []) ∧
          t = ⟨bc + pass.answer.bytes.length, pass.mem, pass.calls⟩) := by
  rw [transferLoop] at returned
  split at returned
  · cases returned
  · rename_i pass ended
    have retried := retry_spec lawful ended
    have next := placed.next lawful retried
    refine ⟨pass, retried, retry_shorter call ended, ?_⟩
    by_cases none : pass.answer.bytes = []
    · have stops := Answer.n_of_none none
      simp only [stops, false_and, if_false] at returned
      cases returned
      right
      simp [none]
    · have small : pass.answer.bytes.length ≤ intMax := by
        have start := placed.start
        have within := next.within
        have small := placed.small
        omega
      obtain ⟨positive, counts⟩ := Answer.n_of_bytes none small
      have advanced : toInt (bc + pass.answer.n) = bc + pass.answer.bytes.length := by
        rw [counts]
        exact next.counted
      simp only [positive, if_true, true_and, advanced] at returned
      split at returned
      · rename_i more
        obtain ⟨rest, again, rfl⟩ := Option.map_eq_some_iff.mp returned
        exact .inl ⟨none, more, rest, again, rfl⟩
      · rename_i all
        cases returned
        exact .inr ⟨fun more => absurd more all, rfl⟩

/-- What one pass of the outer loop keeps in front of the passes behind it, the loop keeps. -/
theorem transferLoop_rule (lawful : Lawful call)
    {motive : (bc : Int) → (mem : Memory) → Transferred → Prop}
    (last : ∀ {bc mem} {pass : Pass ω}, Placed len bc →
      Retried call bc (toULong (len - bc)) mem pass →
      (bc + pass.answer.bytes.length < len → pass.answer.bytes = []) →
        motive bc mem ⟨bc + pass.answer.bytes.length, pass.mem, pass.calls⟩)
    (more : ∀ {bc mem} {pass : Pass ω} {rest : Transferred}, Placed len bc →
      Retried call bc (toULong (len - bc)) mem pass → pass.answer.bytes ≠ [] →
      bc + pass.answer.bytes.length < len →
      motive (bc + pass.answer.bytes.length) pass.mem rest →
        motive bc mem { rest with calls := pass.calls ++ rest.calls })
    (placed : Placed len bc) {t : Transferred}
    (returned : transferLoop call len mem bc outcomes = some t) : motive bc mem t := by
  induction size : outcomes.length using Nat.strong_induction_on
    generalizing outcomes mem bc t with
  | _ size ih =>
    obtain ⟨pass, retried, shorter, ⟨moved, behind, rest, again, rfl⟩ | ⟨stops, rfl⟩⟩ :=
      transferLoop_cases lawful placed returned
    · have kept := ih _ (size ▸ shorter) (placed.next lawful retried) again rfl
      exact more placed retried moved behind kept
    · exact last placed retried stops

/-- Where the next call is made. -/
def advance (bc : Int) (made : SysCall) : Int := bc + made.answer.bytes.length

/-- A call is made there, for what is left of the buffer. -/
def InPlace (len bc : Int) (made : SysCall) : Prop :=
  made.offset = bc ∧ (made.count.toNat : Int) = len - bc

/-- Calls go as far as the bytes they move. -/
theorem run_advance (bc : Int) (calls : List SysCall) :
    run advance bc calls = bc + (movedBytes calls).length := by
  induction calls generalizing bc with
  | nil => exact (Int.add_zero bc).symm
  | cons made later ih =>
    have rest := ih (advance bc made)
    show run advance (advance bc made) later = _
    rw [rest, advance, Transfer.movedBytes, Transfer.movedBytes, List.flatMap_cons,
      List.length_append]
    omega

/-- Two runs of calls move the bytes of both. -/
theorem movedBytes_append (before after : List SysCall) :
    movedBytes (before ++ after) = movedBytes before ++ movedBytes after :=
  List.flatMap_append

/-- The calls of the inner loop are made in place. -/
theorem Retried.along (placed : Placed len bc) {pass : Pass ω}
    (retried : Retried call bc (toULong (len - bc)) mem pass) :
    Along advance (InPlace len) bc pass.calls := by
  obtain ⟨times, calls⟩ := retried.calls
  rw [calls]
  clear calls
  induction times with
  | zero => exact ⟨⟨rfl, placed.left⟩, trivial⟩
  | succ times ih =>
    refine ⟨⟨rfl, placed.left⟩, ?_⟩
    rw [show advance bc ⟨bc, toULong (len - bc), .interrupted⟩ = bc from Int.add_zero bc]
    exact ih

/-- The last call of the inner loop. -/
theorem Retried.getLast? {pass : Pass ω} (retried : Retried call bc count mem pass) :
    pass.calls.getLast? = some ⟨bc, count, pass.answer⟩ := by
  obtain ⟨times, calls⟩ := retried.calls
  rw [calls, List.getLast?_concat]

/-- What the outer loop keeps, from where it goes on. -/
structure Moves (len bc : Int) (mem : Memory) (t : Transferred) : Prop where
  along : Along advance (InPlace len) bc t.calls
  counted : t.bc = bc + (movedBytes t.calls).length
  within : t.bc ≤ len
  holds : t.mem.Holds bc (movedBytes t.calls)
  frame : ∀ a, a < bc ∨ t.bc ≤ a → t.mem a = mem a
  short : t.bc < len → StoppedShort t.calls

/-- A pass in front of what the loop keeps behind it. -/
theorem Moves.prepend (lawful : Lawful call) (placed : Placed len bc) {pass : Pass ω}
    (retried : Retried call bc (toULong (len - bc)) mem pass) {rest : Transferred}
    (moves : Moves len (bc + pass.answer.bytes.length) pass.mem rest) :
    Moves len bc mem { rest with calls := pass.calls ++ rest.calls } := by
  have all : movedBytes (pass.calls ++ rest.calls) =
      pass.answer.bytes ++ movedBytes rest.calls := by
    rw [movedBytes_append, retried.movedBytes]
  have counted := moves.counted
  constructor
  · refine Along.append.mpr ⟨retried.along placed, ?_⟩
    rw [run_advance, retried.movedBytes]
    exact moves.along
  · show rest.bc = _
    rw [all, List.length_append]
    omega
  · exact moves.within
  · show rest.mem.Holds bc (movedBytes (pass.calls ++ rest.calls))
    rw [all, Memory.holds_append]
    refine ⟨?_, moves.holds⟩
    -- The later calls do not touch what this one has moved.
    have kept : rest.mem.slice bc pass.answer.bytes.length =
        pass.mem.slice bc pass.answer.bytes.length :=
      Memory.slice_congr fun i below => moves.frame _ (.inl (by omega))
    exact kept.trans (retried.holds lawful)
  · intro a outside
    have outside : a < bc ∨ rest.bc ≤ a := outside
    rw [← retried.frame lawful (by omega : a < bc ∨ bc + pass.answer.bytes.length ≤ a)]
    exact moves.frame a (by omega)
  · intro less
    obtain ⟨last, final, stopped⟩ := moves.short less
    refine ⟨last, ?_, stopped⟩
    rw [List.getLast?_append, Option.mem_def.mp final]
    rfl

/-- The last pass. -/
theorem Retried.moves (lawful : Lawful call) (placed : Placed len bc) {pass : Pass ω}
    (retried : Retried call bc (toULong (len - bc)) mem pass)
    (stops : bc + pass.answer.bytes.length < len → pass.answer.bytes = []) :
    Moves len bc mem ⟨bc + pass.answer.bytes.length, pass.mem, pass.calls⟩ := by
  constructor
  · exact retried.along placed
  · rw [retried.movedBytes]
  · exact (placed.next lawful retried).within
  · rw [retried.movedBytes]
    exact retried.holds lawful
  · exact fun a outside => retried.frame lawful outside
  · intro less
    refine ⟨_, retried.getLast?, ?_⟩
    exact Answer.short_of_none retried.answered (stops less)

/-- The outer loop, when it returns. -/
theorem transferLoop_moves (lawful : Lawful call) (placed : Placed len bc) {t : Transferred}
    (returned : transferLoop call len mem bc outcomes = some t) : Moves len bc mem t := by
  refine transferLoop_rule lawful ?_ ?_ placed returned
  · intro bc mem pass placed retried stops
    exact retried.moves lawful placed stops
  · intro bc mem pass rest placed retried _ _ moves
    exact moves.prepend lawful placed retried

/-- Calls that keep the memory do so in the loop. -/
theorem transferLoop_mem (keeps : ∀ mem offset count x, (call mem offset count x).2 = mem)
    (lawful : Lawful call) (placed : Placed len bc) {t : Transferred}
    (returned : transferLoop call len mem bc outcomes = some t) : t.mem = mem := by
  refine transferLoop_rule lawful (motive := fun _ mem t => t.mem = mem) ?_ ?_ placed returned
  · intro bc mem pass _ retried _
    exact retried.same keeps
  · intro bc mem pass rest _ retried _ _ same
    exact same.trans (retried.same keeps)

/-! ## Whether they return -/

/-- What a call comes to ends the inner loop when it is never an interruption, if no other has. -/
theorem retry_returns {x : ω} (answers : ∀ mem, (call mem bc count x).1 ≠ .interrupted)
    (there : x ∈ outcomes) :
    ∃ pass, retry call bc count mem outcomes = some pass ∧
      (x ∈ pass.later ∨ ∃ mem, pass.answer = (call mem bc count x).1) := by
  induction outcomes generalizing mem with
  | nil => cases there
  | cons y later ih =>
    rw [retry]
    by_cases interrupted : (call mem bc count y).1 = .interrupted
    · rw [if_pos interrupted]
      rcases List.mem_cons.mp there with rfl | there
      · exact absurd interrupted (answers mem)
      · obtain ⟨pass, ended, left⟩ := ih there
        refine ⟨{ pass with calls := ⟨bc, count, (call mem bc count y).1⟩ :: pass.calls }, ?_, left⟩
        rw [ended]
        rfl
    · rw [if_neg interrupted]
      refine ⟨_, rfl, ?_⟩
      rcases List.mem_cons.mp there with rfl | there
      · exact .inr ⟨mem, rfl⟩
      · exact .inl there

/-- What a call comes to ends the outer loop when it always stops it, if no other has. -/
theorem transferLoop_returns {x : ω}
    (stops : ∀ mem offset count, (call mem offset count x).1 = .failed ∨
      (call mem offset count x).1 = .moved [])
    (there : x ∈ outcomes) : ∃ t, transferLoop call len mem bc outcomes = some t := by
  have answers : ∀ mem offset count, (call mem offset count x).1 ≠ .interrupted := by
    intro mem offset count interrupted
    rcases stops mem offset count with failed | ended
    · cases interrupted.symm.trans failed
    · cases interrupted.symm.trans ended
  have none : ∀ mem offset count, (call mem offset count x).1.bytes = [] := by
    intro mem offset count
    rcases stops mem offset count with failed | ended
    · rw [failed]
      rfl
    · rw [ended]
      rfl
  induction size : outcomes.length using Nat.strong_induction_on
    generalizing outcomes mem bc with
  | _ size ih =>
    have inner : ∀ mem, (call mem bc (toULong (len - bc)) x).1 ≠ .interrupted :=
      fun mem => answers mem bc (toULong (len - bc))
    obtain ⟨pass, ended, left⟩ := @retry_returns _ _ mem _ _ _ _ inner there
    rw [transferLoop]
    split
    · rename_i never
      cases never.symm.trans ended
    · rename_i pass' ended'
      cases ended'.symm.trans ended
      rcases left with behind | ⟨mem', answered⟩
      · dsimp only
        generalize (if 0 < pass.answer.n then toInt (bc + pass.answer.n) else bc) = reached
        split
        · obtain ⟨t, again⟩ := ih _ (size ▸ retry_shorter call ended) behind rfl
          rw [again]
          exact ⟨_, rfl⟩
        · exact ⟨_, rfl⟩
      · have still : ¬0 < pass.answer.n := Answer.n_of_none (answered ▸ none mem' _ _)
        simp only [still, false_and, if_false]
        exact ⟨_, rfl⟩

end

/-! ## What answers the calls -/

section
variable {ω : Type} {call : Syscall ω} {first : Memory} {P : Memory → Prop}
  (same : ∀ mem, P mem → ∀ offset count x,
    (call mem offset count x).1 = (call first offset count x).1 ∧ P (call mem offset count x).2)
include same

/-- The calls of the inner loop are answered by what it uses up, and it does not look at the
rest. -/
theorem retry_answered {bc : Int} {count : UInt64} {mem : Memory} (keeps : P mem)
    {outcomes : List ω} {pass : Pass ω} (ended : retry call bc count mem outcomes = some pass) :
    P pass.mem ∧ ∃ used, outcomes = used ++ pass.later ∧
      List.Forall₂ (fun x made => made.answer = (call first made.offset made.count x).1) used
        pass.calls ∧
      ∀ other, retry call bc count mem (used ++ other) = some { pass with later := other } := by
  induction outcomes generalizing mem pass with
  | nil => cases ended
  | cons x later ih =>
    obtain ⟨answered, kept'⟩ := same mem keeps bc count x
    rw [retry] at ended
    split at ended
    · rename_i interrupted
      obtain ⟨inner, again, rfl⟩ := Option.map_eq_some_iff.mp ended
      obtain ⟨final, used, split, each, alone⟩ := ih kept' again
      refine ⟨final, x :: used, congrArg (x :: ·) split, .cons answered each, fun other => ?_⟩
      rw [List.cons_append, retry, if_pos interrupted, alone other]
      rfl
    · rename_i answers
      cases ended
      refine ⟨kept', [x], rfl, .cons answered .nil, fun other => ?_⟩
      rw [List.cons_append, retry, if_neg answers]
      rfl

/-- So are those of the outer loop. -/
theorem transferLoop_answered {len bc : Int} {mem : Memory} (keeps : P mem)
    {outcomes : List ω} {t : Transferred}
    (returned : transferLoop call len mem bc outcomes = some t) :
    Answered call first (transferLoop call len mem bc) outcomes t := by
  induction size : outcomes.length using Nat.strong_induction_on
    generalizing outcomes mem bc t with
  | _ size ih =>
    rw [transferLoop_eq] at returned
    obtain ⟨pass, ended, returned⟩ := Option.bind_eq_some_iff.mp returned
    obtain ⟨kept', used, split, each, alone⟩ := retry_answered same keeps ended
    have shorter := retry_shorter call ended
    by_cases goes : 0 < pass.answer.n ∧
        (if 0 < pass.answer.n then toInt (bc + pass.answer.n) else bc) < len
    · rw [if_pos goes] at returned
      obtain ⟨rest, again, rfl⟩ := Option.map_eq_some_iff.mp returned
      obtain ⟨used', unused, split', each', alone'⟩ := ih _ (size ▸ shorter) kept' again rfl
      refine ⟨used ++ used', unused, ?_, List.rel_append each each', fun other => ?_⟩
      · rw [split, split', List.append_assoc]
      · rw [transferLoop_eq, List.append_assoc, alone, Option.bind_some]
        dsimp only
        rw [if_pos goes, alone' other]
        rfl
    · rw [if_neg goes] at returned
      cases returned
      refine ⟨used, pass.later, split, each, fun other => ?_⟩
      rw [transferLoop_eq, alone, Option.bind_some]
      exact if_neg goes

end

/-- What is read does not depend on the memory. -/
theorem readAll_answered {len : Int} {mem : Memory} {reads : List SysRead} {t : Transferred}
    (returned : readAll mem len reads = some t) :
    Answered sysRead mem (readAll mem len) reads t := by
  refine transferLoop_answered (P := fun _ => True) (fun mem' _ offset count read => ?_)
    trivial returned
  cases read <;> exact ⟨rfl, trivial⟩

/-- What is written is what is in memory before the first call. -/
theorem writeAll_answered {len : Int} {mem : Memory} {writes : List SysWrite} {t : Transferred}
    (returned : writeAll mem len writes = some t) :
    Answered sysWrite mem (writeAll mem len) writes t := by
  refine transferLoop_answered (P := fun mem' => mem' = mem) ?_ rfl returned
  rintro mem' rfl offset count write
  exact ⟨rfl, sysWrite_mem mem' offset count write⟩

/-- The functions return for any length when some call fails or comes to nothing. -/
theorem transfers_return (len : Int) (mem : Memory) :
    (∀ reads, .failed ∈ reads ∨ .data [] ∈ reads → ∃ t, readAll mem len reads = some t) ∧
      ∀ writes, .failed ∈ writes ∨ .accepts 0 ∈ writes →
        ∃ t, writeAll mem len writes = some t := by
  constructor
  · intro reads there
    rcases there with there | there
    · exact transferLoop_returns (fun _ _ _ => .inl rfl) there
    · refine transferLoop_returns (fun mem offset count => .inr ?_) there
      show Answer.moved (([] : List UInt8).take count.toNat) = _
      rw [List.take_nil]
  · intro writes there
    rcases there with there | there
    · exact transferLoop_returns (fun _ _ _ => .inl rfl) there
    · refine transferLoop_returns (fun mem offset count => .inr ?_) there
      show Answer.moved (mem.slice offset (min 0 count.toNat)) = _
      rw [Nat.zero_min]
      rfl

/-- What the outer loop keeps is the promise, when it begins at the front of the buffer. -/
theorem Moves.isPrefix {len : Int} {mem : Memory} {t : Transferred} (moves : Moves len 0 mem t) :
    MovesPrefix len mem t := by
  have counted : t.bc = (movedBytes t.calls).length := moves.counted.trans (Int.zero_add _)
  refine ⟨?_, counted, moves.within, ?_, moves.frame, moves.short⟩
  · intro before made after split
    have place := (split ▸ moves.along).split.2
    rw [run_advance, Int.zero_add] at place
    exact ⟨place.1, place.1 ▸ place.2⟩
  · rw [counted, Int.toNat_natCast]
    exact moves.holds

/-! ## The other models -/

/-- What a `read` came to. -/
def Answer.asRead : Answer → SysRead
  | .moved bytes => .data bytes
  | .interrupted => .interrupted
  | .failed => .failed

/-- What a `write` came to. -/
def Answer.asWrite : Answer → SysWrite
  | .moved bytes => .accepts bytes.length
  | .interrupted => .interrupted
  | .failed => .failed

/-- The answers of the inner loop, seen as something else. -/
theorem Retried.map {ω β : Type} {call : Syscall ω} {bc : Int} {count : UInt64} {mem : Memory}
    {pass : Pass ω} (retried : Retried call bc count mem pass) (view : Answer → β) :
    ∃ times, pass.calls.map (fun made => view made.answer) =
      List.replicate times (view .interrupted) ++ [view pass.answer] := by
  obtain ⟨times, calls⟩ := retried.calls
  exact ⟨times, by rw [calls, List.map_append, List.map_replicate]; rfl⟩

/-- Copying nothing changes nothing. -/
theorem memcpy_nil (mem : Memory) (ptr : Int) : mem.memcpy ptr [] = mem := by
  funext a
  apply if_neg
  rw [List.length_nil]
  omega

/-- `read` copies what it gives to the buffer. -/
theorem sysRead_mem (mem : Memory) (offset : Int) (count : UInt64) (read : SysRead) :
    (sysRead mem offset count read).2 =
      mem.memcpy offset (sysRead mem offset count read).1.bytes := by
  cases read with
  | data bytes => rfl
  | interrupted => exact (memcpy_nil mem offset).symm
  | failed => exact (memcpy_nil mem offset).symm

/-- The inner loop of `read_all` copies what it gives. -/
theorem Retried.copied {bc : Int} {count : UInt64} {mem : Memory} {pass : Pass SysRead}
    (retried : Retried sysRead bc count mem pass) :
    pass.mem = mem.memcpy bc pass.answer.bytes := by
  obtain ⟨x, last⟩ := retried.last
  have copied := sysRead_mem mem bc count x
  rwa [last] at copied

/-- One pass of the other model of `read_all`. -/
theorem readAll_pass (len : Int) {bc : Int} (mem : Memory) (times : Nat) {answer : Answer}
    (answered : answer ≠ .interrupted)
    (counted : toInt (bc + answer.bytes.length) = bc + answer.bytes.length)
    (later : List SysRead) :
    Inst.readAll len mem bc (List.replicate times .interrupted ++ answer.asRead :: later) =
      if answer.bytes ≠ [] ∧ bc + answer.bytes.length < len then
        Inst.readAll len (mem.memcpy bc answer.bytes) (bc + answer.bytes.length) later
      else (bc + answer.bytes.length, mem.memcpy bc answer.bytes) := by
  induction times with
  | succ times ih => exact ih
  | zero =>
    cases answer with
    | moved bytes =>
      have counted : toInt (bc + bytes.length) = bc + bytes.length := counted
      show Inst.readAll len mem bc (.data bytes :: later) = _
      rw [Inst.readAll, counted]
      rfl
    | interrupted => exact absurd rfl answered
    | failed =>
      show (bc, mem) = _
      simp [Answer.bytes, memcpy_nil]

/-- The loop of `read_all` comes to what it does in the model of `_generic_read`, for the same
answers. -/
theorem readLoop_agrees {len bc : Int} (placed : Placed len bc) {mem : Memory}
    {reads : List SysRead} {t : Transferred}
    (returned : transferLoop sysRead len mem bc reads = some t) :
    Inst.readAll len mem bc (t.calls.map fun made => made.answer.asRead) = (t.bc, t.mem) := by
  refine transferLoop_rule sysRead_lawful
    (motive := fun bc mem t =>
      Inst.readAll len mem bc (t.calls.map fun made => made.answer.asRead) = (t.bc, t.mem))
    ?_ ?_ placed returned
  · intro bc mem pass placed retried stops
    obtain ⟨times, calls⟩ := retried.map Answer.asRead
    have counted := (placed.next sysRead_lawful retried).counted
    have one := readAll_pass len mem times retried.answered counted []
    rw [calls, retried.copied]
    exact one.trans (if_neg fun both => both.1 (stops both.2))
  · intro bc mem pass rest placed retried moved behind agrees
    obtain ⟨times, calls⟩ := retried.map Answer.asRead
    have counted := (placed.next sysRead_lawful retried).counted
    rw [retried.copied] at agrees
    rw [List.map_append, calls, List.append_assoc]
    have one := readAll_pass len mem times retried.answered counted
    exact (one _).trans ((if_pos ⟨moved, behind⟩).trans agrees)

/-- `read_all` comes to what it does in the model of `_generic_read`, for the same answers. -/
theorem readAll_agrees {len : Int} (nonneg : 0 ≤ len) (small : len ≤ intMax) {mem : Memory}
    {reads : List SysRead} {t : Transferred} (returned : readAll mem len reads = some t) :
    Inst.readAll len mem 0 (t.calls.map fun made => made.answer.asRead) = (t.bc, t.mem) :=
  readLoop_agrees ⟨Int.le_refl 0, nonneg, small⟩ returned

/-- `write` takes what is at its offset. -/
theorem sysWrite_taken (mem : Memory) (offset : Int) (count : UInt64) (write : SysWrite) :
    (sysWrite mem offset count write).1.bytes =
      mem.slice offset (sysWrite mem offset count write).1.bytes.length := by
  cases write with
  | accepts room =>
    show mem.slice offset (min room count.toNat) =
      mem.slice offset (mem.slice offset (min room count.toNat)).length
    rw [Memory.length_slice]
  | interrupted => rfl
  | failed => rfl

/-- The inner loop of `write_all` takes what is at its offset. -/
theorem Retried.taken {bc : Int} {count : UInt64} {mem : Memory} {pass : Pass SysWrite}
    (retried : Retried sysWrite bc count mem pass) :
    pass.answer.bytes = mem.slice bc pass.answer.bytes.length := by
  obtain ⟨x, last⟩ := retried.last
  have taken := sysWrite_taken mem bc count x
  rwa [last] at taken

/-- One pass of the other model of `write_all`. -/
theorem writeLoop_pass (accepted : List UInt8) {len bc : Int} (mem : Memory) (times : Nat)
    {answer : Answer} (answered : answer ≠ .interrupted)
    (taken : answer.bytes = mem.slice bc answer.bytes.length)
    (most : bc + answer.bytes.length ≤ len) (later : List SysWrite) :
    writeLoop accepted (mem.slice bc (len - bc).toNat)
        (List.replicate times .interrupted ++ answer.asWrite :: later) =
      if answer.bytes ≠ [] ∧ bc + answer.bytes.length < len then
        writeLoop (accepted ++ answer.bytes)
          (mem.slice (bc + answer.bytes.length) (len - (bc + answer.bytes.length)).toNat) later
      else ⟨(accepted ++ answer.bytes).length, accepted ++ answer.bytes⟩ := by
  induction times with
  | succ times ih => exact ih
  | zero =>
    cases answer with
    | moved bytes =>
      have taken : bytes = mem.slice bc bytes.length := taken
      have most : bc + bytes.length ≤ len := most
      have left : mem.slice bc (len - bc).toNat =
          bytes ++ mem.slice (bc + bytes.length) (len - (bc + bytes.length)).toNat := by
        have parts : (len - bc).toNat = bytes.length + (len - (bc + bytes.length)).toNat := by
          omega
        rw [parts, Memory.slice_add, ← taken]
      have size := Memory.length_slice mem bc (len - bc).toNat
      have room : min bytes.length (mem.slice bc (len - bc).toNat).length = bytes.length := by
        omega
      have front : (mem.slice bc (len - bc).toNat).take bytes.length = bytes := by
        rw [left, List.take_left]
      have behind : (mem.slice bc (len - bc).toNat).drop bytes.length =
          mem.slice (bc + bytes.length) (len - (bc + bytes.length)).toNat := by
        rw [left, List.drop_left]
      have more : bytes.length < (mem.slice bc (len - bc).toNat).length ↔
          bc + bytes.length < len := by omega
      show writeLoop accepted (mem.slice bc (len - bc).toNat) (.accepts bytes.length :: later) = _
      rw [writeLoop]
      simp only [room, front, behind, more, List.length_pos_iff]
      rfl
    | interrupted => exact absurd rfl answered
    | failed =>
      show Written.mk accepted.length accepted = _
      simp [Answer.bytes]

/-- The loop of `write_all` comes to what it does in the model of the bytes accepted, for the same
answers. -/
theorem writeLoop_agrees {len bc : Int} (placed : Placed len bc) {mem : Memory}
    {writes : List SysWrite} {t : Transferred}
    (returned : transferLoop sysWrite len mem bc writes = some t) (accepted : List UInt8) :
    writeLoop accepted (mem.slice bc (len - bc).toNat)
        (t.calls.map fun made => made.answer.asWrite) =
      ⟨(accepted ++ movedBytes t.calls).length, accepted ++ movedBytes t.calls⟩ := by
  refine transferLoop_rule sysWrite_lawful
    (motive := fun bc mem t => ∀ accepted,
      writeLoop accepted (mem.slice bc (len - bc).toNat)
          (t.calls.map fun made => made.answer.asWrite) =
        ⟨(accepted ++ movedBytes t.calls).length, accepted ++ movedBytes t.calls⟩)
    ?_ ?_ placed returned accepted
  · intro bc mem pass placed retried stops accepted
    obtain ⟨times, calls⟩ := retried.map Answer.asWrite
    have most := (placed.next sysWrite_lawful retried).within
    have one := writeLoop_pass accepted mem times retried.answered retried.taken most []
    rw [calls, retried.movedBytes]
    exact one.trans (if_neg fun both => both.1 (stops both.2))
  · intro bc mem pass rest placed retried moved behind agrees accepted
    obtain ⟨times, calls⟩ := retried.map Answer.asWrite
    have most := (placed.next sysWrite_lawful retried).within
    have one := writeLoop_pass accepted mem times retried.answered retried.taken most
    have agrees := agrees (accepted ++ pass.answer.bytes)
    rw [retried.same sysWrite_mem] at agrees
    rw [List.map_append, calls, List.append_assoc, movedBytes_append, retried.movedBytes,
      ← List.append_assoc accepted]
    exact (one _).trans ((if_pos ⟨moved, behind⟩).trans agrees)

/-- `write_all` comes to what it does in the model of the bytes accepted, for the same answers. -/
theorem writeAll_agrees {len : Int} (nonneg : 0 ≤ len) (small : len ≤ intMax) {mem : Memory}
    {writes : List SysWrite} {t : Transferred} (returned : writeAll mem len writes = some t) :
    Util.writeAll (mem.slice 0 len.toNat) (t.calls.map fun made => made.answer.asWrite) =
      ⟨(movedBytes t.calls).length, movedBytes t.calls⟩ := by
  have agrees := writeLoop_agrees ⟨Int.le_refl 0, nonneg, small⟩ returned []
  rwa [Int.sub_zero] at agrees

/-! ## Both functions -/

/-- `read_all` and `write_all` move a prefix of a buffer of any length once, whatever their system
calls come to, when they return. Their calls are answered by what comes first, and what comes behind
is left for others. `write_all` changes nothing. The models in which the calls are not recorded come
to the same for these answers, and both functions do return when some call fails or comes to
nothing. -/
theorem transfers_contiguous {len : Int} (nonneg : 0 ≤ len) (small : len ≤ intMax) (mem : Memory) :
    (∀ reads t, readAll mem len reads = some t →
      MovesPrefix len mem t ∧ Answered sysRead mem (readAll mem len) reads t ∧
        Inst.readAll len mem 0 (t.calls.map fun made => made.answer.asRead) = (t.bc, t.mem)) ∧
    (∀ writes t, writeAll mem len writes = some t →
      MovesPrefix len mem t ∧ Answered sysWrite mem (writeAll mem len) writes t ∧ t.mem = mem ∧
        Util.writeAll (mem.slice 0 len.toNat) (t.calls.map fun made => made.answer.asWrite) =
          ⟨(movedBytes t.calls).length, movedBytes t.calls⟩) ∧
    (∀ reads, .failed ∈ reads ∨ .data [] ∈ reads → ∃ t, readAll mem len reads = some t) ∧
      ∀ writes, .failed ∈ writes ∨ .accepts 0 ∈ writes →
        ∃ t, writeAll mem len writes = some t := by
  have placed : Placed len 0 := ⟨Int.le_refl 0, nonneg, small⟩
  refine ⟨?_, ?_, transfers_return len mem⟩
  · intro reads t returned
    exact ⟨(transferLoop_moves sysRead_lawful placed returned).isPrefix, readAll_answered returned,
      readAll_agrees nonneg small returned⟩
  · intro writes t returned
    have moves := transferLoop_moves sysWrite_lawful placed returned
    exact ⟨moves.isPrefix, writeAll_answered returned,
      transferLoop_mem sysWrite_mem sysWrite_lawful placed returned,
      writeAll_agrees nonneg small returned⟩

/-- Five bytes are read by three calls, one of them interrupted, and three of five are written
before a call fails. -/
theorem transfers_contiguous_five :
    (∃ t, readAll (Memory.ofBytes []) 5 [.data [1, 2], .interrupted, .data [3, 4, 5]] = some t ∧
      t.bc = 5 ∧ MovesPrefix 5 (Memory.ofBytes []) t) ∧
    ∃ t, writeAll (Memory.ofBytes [1, 2, 3, 4, 5]) 5
        [.accepts 2, .interrupted, .accepts 1, .failed] = some t ∧
      t.bc = 3 ∧ MovesPrefix 5 (Memory.ofBytes [1, 2, 3, 4, 5]) t := by
  have small : (5 : Int) ≤ intMax := by decide
  have one : toInt 1 = 1 := by decide
  have two : toInt 2 = 2 := by decide
  have three : toInt 3 = 3 := by decide
  have five : toInt 5 = 5 := by decide
  have read : ∃ t, readAll (Memory.ofBytes []) 5 [.data [1, 2], .interrupted, .data [3, 4, 5]] =
      some t ∧ t.bc = 5 := by
    simp [readAll, transferLoop, retry, sysRead, Answer.n, toNat_toULong, two, three, five]
  have written : ∃ t, writeAll (Memory.ofBytes [1, 2, 3, 4, 5]) 5
      [.accepts 2, .interrupted, .accepts 1, .failed] = some t ∧ t.bc = 3 := by
    simp [writeAll, transferLoop, retry, sysWrite, Answer.n, toNat_toULong, one, two, three]
  obtain ⟨t, returned, bc⟩ := read
  obtain ⟨t', returned', bc'⟩ := written
  exact ⟨⟨t, returned, bc, ((transfers_contiguous (by decide) small _).1 _ t returned).1⟩,
    t', returned', bc', ((transfers_contiguous (by decide) small _).2.1 _ t' returned').1⟩

end GpibUtils.Util.Transfer
