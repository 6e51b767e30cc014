import GpibUtils.CSem.Decimal
import GpibUtils.CSem.Heap
import GpibUtils.CSem.Word
import GpibUtils.Ics.Reader

/-!
# The error log of ICS instruments

The reply to `error_logger` has room for 100 entries, and a count that nothing checks.
`ics_error_logger` copies as many entries as the count says, and `icsconfig errlog` prints a line
for each. Both stay within the reply exactly when the count is no more than the entries there are
(`errorLog_sound_iff`). Allocation succeeds.
-/

namespace GpibUtils.Ics

open CSem

/-- `Error_Log_Resp` -/
structure ErrorLogResp where
  error : UInt32
  count : UInt32
  errors : Vector UInt32 100

/-- `memcpy` of so many bytes from the start of an array of words to that of another; it has no
result when one of them is too small. -/
def memcpyWords (dst src : List UInt32) (size : UInt64) : Option (List UInt32) :=
  let n := size.toNat / 4
  if n ≤ src.length ∧ n ≤ dst.length then some (src.take n ++ dst.drop n) else none

/-- `ics_error_logger`: what it returns when that is an error, and otherwise `*errp` and `*countp`.
It has no result when it reads or writes outside an array. -/
def icsErrorLogger (heap : Heap UInt32) (r : Option ErrorLogResp) :
    Option (Except Int (List UInt32 × Int)) :=
  match r with
  | none => some (.error icsErrorClnt)
  | some r =>
    if r.error ≠ 0 then some (.error r.error.toInt32.toInt)
    else do
      let size := r.count.toUInt64 * 4
      let errp ← memcpyWords (heap.malloc (size.toNat / 4)) r.errors.toList size
      some (.ok (errp, r.count.toInt32.toInt))

end GpibUtils.Ics

namespace GpibUtils.Icsconfig

open CSem Ics

/-- The table `ICS_ERRLOG`. -/
def errtab : List (Int × String) := [
  (1, "VXI-11 syntax error"),
  (3, "GPIB device not accessible"),
  (4, "invalid VXI-11 link ID"),
  (5, "VXI-11 parameter error"),
  (6, "invalid VXI-11 channel, channel not established"),
  (8, "invalid VXI-11 operation"),
  (9, "insufficient resources"),
  (11, "device locked by another link ID"),
  (12, "device not locked"),
  (15, "I/O timeout error"),
  (17, "I/O error"),
  (21, "invalid GPIB address specified"),
  (23, "operation aborted (indicator, not a true error)"),
  (29, "channel already established"),
  (60, "channel not active"),
  (110, "device already locked"),
  (111, "timeout attempting to gain a device lock"),
  (999, "unspecified/unknown error"),
  (1000, "VXI-11 protocol error"),
  (2000, "RPC protocol error"),
  (2001, "unsupported RPC function"),
  (2002, "insufficient RPC message length")]

/-- A number as `%d` prints it. -/
def signedText (n : Int) : List Char :=
  if n < 0 then '-' :: decimalText n.natAbs else decimalText n.natAbs

/-- `findstr` -/
def findstr (tab : List (Int × String)) (num : Int) : List Char :=
  ((tab.lookup num).map String.toList).getD ("unknown code ".toList ++ signedText num)

/-- What `_errlog` prints for an entry. -/
def errlogLine (i : Nat) (entry : UInt32) : List Char :=
  '[' :: decimalText i ++ "] ".toList ++ findstr errtab entry.toInt32.toInt ++ ['\n']

/-- The loop of `_errlog`, with so many passes to go: what is printed, one text for each call of
`printf`. It has no result when it reads outside the array. -/
def errlogLoop (tmperr : List UInt32) : Nat → Nat → Option (List (List Char))
  | 0, _ => some []
  | left + 1, i => do
    let entry ← tmperr[i]?
    let later ← errlogLoop tmperr left (i + 1)
    some (errlogLine i entry :: later)

/-- How `_errlog` ends: at its usage, with an error message, or with what has been printed. -/
inductive Errlog where
  | usage
  | failed (text : List Char)
  | printed (lines : List (List Char))
  deriving DecidableEq

/-- `_errlog`; a count below zero is one that no index is below. -/
def errlog (server : Server) (heap : Heap UInt32) (argv : List (List Char))
    (r : Option ErrorLogResp) : Option Errlog :=
  if 0 < argv.length then some .usage
  else do
    match ← icsErrorLogger heap r with
    | .error rc => some (.failed ("errlog: ".toList ++ icsStrerror server rc ++ ['\n']))
    | .ok (tmperr, tmpcount) =>
      let lines ← errlogLoop tmperr tmpcount.toNat 0
      some (.printed lines)

/-! ## Within bounds -/

/-- A text that is one line. -/
def OneLine (text : List Char) : Prop := ∃ line, text = line ++ ['\n'] ∧ '\n' ∉ line

/-- The log is copied and printed within its bounds: the function returns an error, or a count from
0 to 100 and as many entries, of which each is printed on a line. -/
def Sound (server : Server) (heap : Heap UInt32) (r : Option ErrorLogResp) : Prop :=
  (∃ rc, rc ≠ 0 ∧ icsErrorLogger heap r = some (.error rc)) ∨
    ∃ resp countp entries, r = some resp ∧ 0 ≤ countp ∧ countp ≤ 100 ∧
      entries = resp.errors.toList.take countp.toNat ∧
      icsErrorLogger heap r = some (.ok (entries, countp)) ∧
      errlog server heap [] r = some (.printed (entries.mapIdx errlogLine)) ∧
      ∀ text ∈ entries.mapIdx errlogLine, OneLine text

/-- A count that is no more than the entries there are. -/
def CountFits (r : Option ErrorLogResp) : Prop :=
  ∀ resp ∈ r, resp.error = 0 → resp.count ≤ 100

/-- The size of the copy is that of the entries, which no count makes wrap. -/
theorem size_div_four (count : UInt32) : (count.toUInt64 * 4).toNat / 4 = count.toNat := by
  have small : count.toNat * 4 < 2 ^ 64 := by
    have word := count.toNat_lt
    omega
  rw [UInt64.toNat_mul, UInt32.toNat_toUInt64]
  change count.toNat * 4 % 2 ^ 64 / 4 = count.toNat
  rw [Nat.mod_eq_of_lt small, Nat.mul_div_cancel _ (by decide)]

/-- Entries are copied exactly when there are as many in the reply. -/
theorem icsErrorLogger_ok (heap : Heap UInt32) {r : ErrorLogResp} (success : r.error = 0) :
    icsErrorLogger heap (some r) =
      if r.count ≤ 100 then some (.ok (r.errors.toList.take r.count.toNat, r.count.toNat))
      else none := by
  have entries : r.errors.toList.length = 100 := Vector.length_toList
  have block := heap.length_malloc r.count.toNat
  have bound : r.count ≤ 100 ↔ r.count.toNat ≤ 100 := UInt32.le_iff_toNat_le
  rw [icsErrorLogger, if_neg (not_not.mpr success)]
  simp only [memcpyWords, size_div_four, entries, block, Nat.le_refl, and_true, bound]
  by_cases fits : r.count.toNat ≤ 100
  · have signed : r.count.toInt32.toInt = r.count.toNat := by
      have half : 2 * r.count.toBitVec.toNat < 2 ^ 32 := by
        have word : r.count.toBitVec.toNat ≤ 100 := fits
        omega
      exact BitVec.toInt_eq_toNat_of_lt half
    have rest : (heap.malloc r.count.toNat).drop r.count.toNat = [] :=
      List.drop_eq_nil_of_le (Nat.le_of_eq block)
    rw [if_pos fits, if_pos fits, rest, List.append_nil, signed]
    rfl
  · rw [if_neg fits, if_neg fits]
    rfl

/-- The loop prints the entries from an index on. -/
theorem errlogLoop_eq (front entries : List UInt32) :
    errlogLoop (front ++ entries) entries.length front.length =
      some (entries.mapIdx fun i => errlogLine (front.length + i)) := by
  induction entries generalizing front with
  | nil => rfl
  | cons entry entries ih =>
    have later := ih (front ++ [entry])
    rw [List.append_assoc, List.length_append] at later
    have first : (front ++ entry :: entries)[front.length]? = some entry := by simp
    have indices : (fun i => errlogLine (front.length + [entry].length + i)) =
        fun i => errlogLine (front.length + (i + 1)) := by
      funext i
      rw [List.length_singleton, Nat.add_assoc, Nat.add_comm 1 i]
    rw [indices] at later
    rw [List.length_cons, errlogLoop, first, List.mapIdx_cons]
    change (errlogLoop (front ++ ([entry] ++ entries)) entries.length (front.length + 1)).bind
      (fun later => some (errlogLine front.length entry :: later)) = _
    rw [show front.length + 1 = front.length + [entry].length from rfl, later]
    rfl

/-- A digit is no newline. -/
theorem newline_not_mem_decimalText (n : Nat) : '\n' ∉ decimalText n := by
  intro member
  exact absurd (isDigit_decimalText member) (by decide)

/-- A number that is printed has no newline in it. -/
theorem newline_not_mem_signedText (n : Int) : '\n' ∉ signedText n := by
  rw [signedText]
  split
  · intro member
    rcases List.mem_cons.mp member with sign | digit
    · exact absurd sign (by decide)
    · exact newline_not_mem_decimalText _ digit
  · exact newline_not_mem_decimalText _

/-- What an entry is called has no newline in it. -/
theorem findstr_line (num : Int) : '\n' ∉ findstr errtab num := by
  rw [findstr]
  cases found : errtab.lookup num with
  | none =>
    intro member
    rcases List.mem_append.mp member with letter | digit
    · exact absurd letter (by decide)
    · exact newline_not_mem_signedText num digit
  | some text =>
    have member : (num, text) ∈ errtab := by
      obtain ⟨before, after, split, _⟩ := List.lookup_eq_some_iff.mp found
      rw [split]
      exact List.mem_append_right _ List.mem_cons_self
    have lines : ∀ entry ∈ errtab, '\n' ∉ entry.2.toList := by decide
    exact lines _ member

/-- An entry is printed on a line. -/
theorem errlogLine_oneLine (i : Nat) (entry : UInt32) : OneLine (errlogLine i entry) := by
  refine ⟨_, rfl, ?_⟩
  have index := newline_not_mem_decimalText i
  have name := findstr_line entry.toInt32.toInt
  simp [index, name]

/-- What is copied within bounds is printed, a line for each entry. -/
theorem errlog_printed (server : Server) (heap : Heap UInt32) {r : ErrorLogResp}
    (success : r.error = 0) (fits : r.count ≤ 100) :
    errlog server heap [] (some r) =
      some (.printed ((r.errors.toList.take r.count.toNat).mapIdx errlogLine)) := by
  have copied := icsErrorLogger_ok heap success
  rw [if_pos fits] at copied
  have length : (r.errors.toList.take r.count.toNat).length = r.count.toNat := by
    have bound : r.count.toNat ≤ 100 := UInt32.le_iff_toNat_le.mp fits
    rw [List.length_take, Vector.length_toList, Nat.min_eq_left bound]
  have printed := errlogLoop_eq [] (r.errors.toList.take r.count.toNat)
  have indices : (fun i => errlogLine (([] : List UInt32).length + i)) = errlogLine := by
    funext i
    rw [List.length_nil, Nat.zero_add]
  rw [indices, length, List.nil_append, List.length_nil] at printed
  have plain : ¬ 0 < ([] : List (List Char)).length := Nat.lt_irrefl 0
  rw [errlog, if_neg plain, copied]
  change (errlogLoop (r.errors.toList.take r.count.toNat) r.count.toNat 0).bind
    (fun lines => some (Errlog.printed lines)) = _
  rw [printed]
  rfl

/-- A log whose count is no more than the entries there are is copied and printed. -/
theorem sound_of_fits (server : Server) (heap : Heap UInt32) {r : ErrorLogResp}
    (success : r.error = 0) (fits : r.count ≤ 100) : Sound server heap (some r) := by
  have copied := icsErrorLogger_ok heap success
  rw [if_pos fits] at copied
  have printed := errlog_printed server heap success fits
  refine .inr ⟨r, r.count.toNat, _, rfl, ?_, ?_, rfl, copied, printed, ?_⟩
  · exact Int.natCast_nonneg _
  · exact_mod_cast UInt32.le_iff_toNat_le.mp fits
  · intro text member
    obtain ⟨i, below, rfl⟩ := List.mem_mapIdx.mp member
    exact errlogLine_oneLine i _

/-- Nothing is sound about an access outside. -/
theorem not_sound_of_outside {server : Server} {heap : Heap UInt32} {r : Option ErrorLogResp}
    (outside : icsErrorLogger heap r = none) : ¬ Sound server heap r := by
  rintro (⟨rc, _, failed⟩ | ⟨_, _, _, _, _, _, _, returned, _⟩)
  · rw [outside] at failed
    cases failed
  · rw [outside] at returned
    cases returned

/-- The log is copied and printed within its bounds exactly when its count is no more than the
entries there are. -/
theorem errorLog_sound_iff (server : Server) (heap : Heap UInt32) (r : Option ErrorLogResp) :
    Sound server heap r ↔ CountFits r := by
  cases r with
  | none =>
    have clnt : (icsErrorClnt : Int) ≠ 0 := by decide
    exact iff_of_true (.inl ⟨_, clnt, rfl⟩) fun resp member => nomatch member
  | some resp =>
    by_cases success : resp.error = 0
    · by_cases fits : resp.count ≤ 100
      · refine iff_of_true (sound_of_fits server heap success fits) ?_
        rintro other member _
        cases member
        exact fits
      · have outside := icsErrorLogger_ok heap success
        rw [if_neg fits] at outside
        exact iff_of_false (not_sound_of_outside outside) fun condition =>
          fits (condition resp rfl success)
    · have code : resp.error.toInt32.toInt ≠ 0 := by
        intro zero
        have none := (int32_toInt_eq_zero _).mp zero
        exact success (congrArg Int32.toUInt32 none)
      refine iff_of_true (.inl ⟨_, code, ?_⟩) ?_
      · rw [icsErrorLogger, if_pos success]
      · rintro other member zero
        cases member
        exact absurd zero success

/-- Memory full of zeros. -/
def zeroedWords : Heap UInt32 where
  malloc size := List.replicate size 0
  length_malloc _ := List.length_replicate

/-- A server that answers nothing. -/
def silentServer : Server where
  serve device _ := (none, device)
  acts _ _ success := nomatch success
  sperror := []
  host := .little

/-- A reply that counts 101 entries is not copied within its bounds. -/
theorem errorLog_101_unsound :
    ¬ Sound silentServer zeroedWords (some ⟨0, 101, Vector.replicate 100 17⟩) := by
  have outside :
      icsErrorLogger zeroedWords (some ⟨0, 101, Vector.replicate 100 17⟩) = none := by
    decide +kernel
  exact not_sound_of_outside outside

end GpibUtils.Icsconfig
