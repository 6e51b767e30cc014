import GpibUtils.CSem.Word
import GpibUtils.Dialogue
import Mathlib.Algebra.BigOperators.Group.List.Basic

/-!
# Transfers metered by one time budget

A transfer moves bytes by repeated requests and pays for each request out of one budget of
milliseconds. The loop here keeps the budget the way C code does, in a word it subtracts from
and compares with zero after every successful request: the subtraction wraps when a request
overruns what is left. `KeepsBudget` says what a budget is for, with natural numbers that
cannot wrap, and `keepsBudget_iff` gives the exact condition on the answers under which the
loop meets it.
-/

namespace Budget

open CSem Dialogue

variable {ξ : Type}

/-- What one answer of the peer means to a transfer. -/
structure Reading (ξ : Type) where
  /-- The error of the request, zero when it succeeded. -/
  error : ξ → Int
  /-- Bytes moved by a successful request issued with so many bytes left. -/
  moved : Int → ξ → Nat
  /-- The peer says that the transfer is over. -/
  ended : ξ → Bool
  /-- Milliseconds measured for the request. -/
  elapsed : ξ → UInt64
  /-- A request nobody answers. -/
  silence : ξ
  /-- Such a request fails. -/
  silence_fails : error silence ≠ 0
  /-- The error that reports an exhausted budget. -/
  overdue : Int
  /-- It is an error. -/
  overdue_ne : overdue ≠ 0

/-- The counters of a metered transfer. -/
structure Meter where
  /-- The error so far. -/
  res : Int
  /-- Bytes left by the `int` count of the loop. -/
  left : Int
  /-- Milliseconds left by the `unsigned long` count of the loop. -/
  tmout : UInt64
  /-- The peer has ended the transfer. -/
  ended : Bool

/-- Charge one answer to the counters. -/
def Reading.charge (reading : Reading ξ) (meter : Meter) (answer : ξ) : Meter :=
  if reading.error answer = 0 then
    let left := toInt (meter.left - reading.moved meter.left answer)
    let tmout := meter.tmout - reading.elapsed answer
    { res := if 0 < left ∧ tmout = 0 then reading.overdue else 0
      left, tmout, ended := reading.ended answer }
  else { meter with res := reading.error answer, ended := reading.ended answer }

/-- The metered loop: it goes on without error while bytes are left and the peer has not
ended the transfer. -/
def Reading.loop (reading : Reading ξ) : Loop Meter ξ where
  running meter := decide (meter.res = 0 ∧ 0 < meter.left ∧ meter.ended = false)
  next := reading.charge
  silence := reading.silence
  silence_stops meter := by simp [Reading.charge, reading.silence_fails]

/-- One request of a transfer, as issued and as answered. -/
structure Leg where
  /-- The timeout it was issued with. -/
  timeout : UInt64
  /-- Its error, zero when it succeeded. -/
  error : Int
  /-- Bytes it moved, when it succeeded. -/
  moved : Nat
  /-- Its answer ended the transfer. -/
  ended : Bool
  /-- Milliseconds measured for it. -/
  elapsed : UInt64

/-- The leg of one round. -/
def Reading.leg (reading : Reading ξ) (round : Meter × ξ) : Leg where
  timeout := round.1.tmout
  error := reading.error round.2
  moved := reading.moved round.1.left round.2
  ended := reading.ended round.2
  elapsed := reading.elapsed round.2

/-- Milliseconds measured for some legs. -/
def spent (legs : List Leg) : Nat := (legs.map fun leg => leg.elapsed.toNat).sum

/-- Bytes moved by some legs. -/
def carried (legs : List Leg) : Nat := (legs.map Leg.moved).sum

@[simp] theorem spent_append (legs : List Leg) (leg : Leg) :
    spent (legs ++ [leg]) = spent legs + leg.elapsed.toNat := by simp [spent]

@[simp] theorem carried_append (legs : List Leg) (leg : Leg) :
    carried (legs ++ [leg]) = carried legs + leg.moved := by simp [carried]

/-- A transfer of `len` bytes is complete after its successful last leg: the peer ended it,
or as many bytes have been moved. -/
def Complete (len : Int) (before : List Leg) (leg : Leg) : Prop :=
  leg.ended = true ∨ len ≤ carried (before ++ [leg])

/-- What the budget `io` demands of one leg, issued after `before` and followed by `after` in
a transfer that ended with `res`. -/
structure LegKeeps (io : UInt64) (len overdue res : Int) (before : List Leg) (leg : Leg)
    (after : List Leg) : Prop where
  /-- It is issued with what the earlier legs have left of the budget. -/
  issued : leg.timeout.toNat + spent before = io.toNat
  /-- If it uses up the budget and leaves the transfer incomplete, the transfer ends there,
  overdue. -/
  exhausted : leg.error = 0 → ¬Complete len before leg →
    io.toNat ≤ spent (before ++ [leg]) → after = [] ∧ res = overdue
  /-- If it is the last one and completes the transfer, the transfer ends without error. -/
  completed : leg.error = 0 → Complete len before leg → after = [] → res = 0

/-- The legs of a transfer keep the budget when every leg does. -/
def KeepsAfter (io : UInt64) (len overdue res : Int) (past legs : List Leg) : Prop :=
  ∀ before leg after, legs = before ++ leg :: after →
    LegKeeps io len overdue res (past ++ before) leg after

/-- A transfer keeps one budget for all its legs; one without legs ends without error. -/
def KeepsBudget (io : UInt64) (len overdue res : Int) (legs : List Leg) : Prop :=
  KeepsAfter io len overdue res [] legs ∧ (legs = [] → res = 0)

/-- The answers stay within the budget: no successful one that leaves bytes to move takes the
time measured past `io`, and none that completes the transfer with room to spare takes it to
exactly `io`. -/
def InBudget (reading : Reading ξ) (io : UInt64) (len : Int) :
    (left : Int) → (got used : Nat) → List ξ → Prop
  | _, _, _, [] => True
  | left, got, used, answer :: answers =>
    let left' := toInt (left - reading.moved left answer)
    let got' := got + reading.moved left answer
    let used' := used + (reading.elapsed answer).toNat
    reading.error answer = 0 → 0 < left' →
      (reading.ended answer = false → used' ≤ io.toNat) ∧
      (reading.ended answer = true ∨ len ≤ got' → used' ≠ io.toNat) ∧
      (reading.ended answer = false → used' < io.toNat →
        InBudget reading io len left' got' used' answers)

/-- Whether answers stay within the budget is decided by going through them. -/
instance InBudget.decidable (reading : Reading ξ) (io : UInt64) (len : Int) :
    (left : Int) → (got used : Nat) → (answers : List ξ) →
      Decidable (InBudget reading io len left got used answers)
  | _, _, _, [] => .isTrue trivial
  | left, got, used, answer :: answers =>
    have := InBudget.decidable reading io len (toInt (left - reading.moved left answer))
      (got + reading.moved left answer) (used + (reading.elapsed answer).toNat) answers
    inferInstanceAs (Decidable (_ → _ → (_ → _) ∧ (_ → _) ∧ (_ → _ → _)))

variable {io : UInt64} {len overdue res : Int}

/-- A first leg is judged by itself; the others are judged with it in their past. -/
theorem keepsAfter_cons {past legs : List Leg} {leg : Leg} :
    KeepsAfter io len overdue res past (leg :: legs) ↔
      LegKeeps io len overdue res past leg legs ∧
      KeepsAfter io len overdue res (past ++ [leg]) legs := by
  simp only [KeepsAfter, forall_split_cons, List.append_nil, List.append_assoc,
    List.singleton_append]

/-- No legs keep every budget. -/
theorem keepsAfter_nil {past : List Leg} : KeepsAfter io len overdue res past [] := by
  intro before leg after split
  simp at split

variable {reading : Reading ξ}

/-- The counters agree with the legs made: the time left is what they have not spent, and as
long as fewer than `len` bytes were moved the bytes left are those not moved. -/
structure Agrees (io : UInt64) (len : Int) (past : List Leg) (meter : Meter) : Prop where
  /-- The word of milliseconds has not wrapped. -/
  time : meter.tmout.toNat + spent past = io.toNat
  /-- The count of bytes has not wrapped before the transfer is complete. -/
  bytes : carried past < len → meter.left = len - carried past

/-- The count of bytes stays exact while fewer than `len` have been moved. -/
theorem Agrees.left_charged {past : List Leg} {meter : Meter} (agrees : Agrees io len past meter)
    (small : len ≤ intMax) {moved : Nat} (short : carried past + moved < len) :
    toInt (meter.left - moved) = len - (carried past + moved) := by
  rw [agrees.bytes (by omega), toInt_of_range (by omega) (by omega)]
  omega

/-- A successful answer that leaves time on the budget keeps the counters in agreement. -/
theorem Agrees.charge {past : List Leg} {meter : Meter} (agrees : Agrees io len past meter)
    (small : len ≤ intMax) {answer : ξ} (success : reading.error answer = 0)
    (fits : spent past + (reading.elapsed answer).toNat ≤ io.toNat) :
    Agrees io len (past ++ [reading.leg (meter, answer)]) (reading.charge meter answer) := by
  have time := agrees.time
  constructor
  · have same : (meter.tmout - reading.elapsed answer).toNat =
        meter.tmout.toNat - (reading.elapsed answer).toNat := toNat_sub (by omega)
    simp only [Reading.charge, success, ↓reduceIte, spent_append, Reading.leg, same]
    omega
  · intro short
    simp only [carried_append, Reading.leg] at short
    simp only [Reading.charge, success, ↓reduceIte, carried_append, Reading.leg]
    push_cast
    exact agrees.left_charged small (by exact_mod_cast short)

/-- The word of milliseconds is zero after an answer exactly when the budget is spent exactly,
whichever way the subtraction wraps. -/
theorem Agrees.tmout_zero {past : List Leg} {meter : Meter} (agrees : Agrees io len past meter)
    (answer : ξ) : meter.tmout - reading.elapsed answer = 0 ↔
      spent past + (reading.elapsed answer).toNat = io.toNat := by
  have time := agrees.time
  rw [sub_eq_zero_iff, ← UInt64.toNat_inj]
  omega

/-- The loop goes on after an answer exactly when it was successful and left bytes, time and
an open transfer. -/
theorem charge_running {meter : Meter} {answer : ξ} :
    reading.loop.running (reading.charge meter answer) = true ↔
      reading.error answer = 0 ∧ 0 < toInt (meter.left - reading.moved meter.left answer) ∧
        meter.tmout - reading.elapsed answer ≠ 0 ∧ reading.ended answer = false := by
  have overdue := reading.overdue_ne
  by_cases success : reading.error answer = 0
  · simp only [Reading.loop, Reading.charge, success, ↓reduceIte, decide_eq_true_eq, true_and]
    split <;> rename_i exhausted
    · simp [overdue, exhausted]
    · simp only [not_and] at exhausted
      constructor
      · rintro ⟨-, room, opened⟩
        exact ⟨room, exhausted room, opened⟩
      · rintro ⟨room, -, opened⟩
        exact ⟨rfl, room, opened⟩
  · simp [Reading.loop, Reading.charge, success]

/-- The error in which an answer leaves the loop, when it is the last one. -/
theorem charge_res {meter : Meter} {answer : ξ} (success : reading.error answer = 0) :
    (reading.charge meter answer).res =
      if 0 < toInt (meter.left - reading.moved meter.left answer) ∧
        meter.tmout - reading.elapsed answer = 0 then reading.overdue else 0 := by
  simp [Reading.charge, success]

/-- The rest of a run after one answer: its legs and the error it ends with. -/
def Reading.rest (reading : Reading ξ) (meter : Meter) (answers : List ξ) : List Leg × Int :=
  ((reading.loop.rounds meter answers).map reading.leg, (reading.loop.final meter answers).res)

/-- A loop that stops after an answer has no further legs. -/
theorem rest_stopped {meter : Meter} {answers : List ξ}
    (stopped : ¬reading.loop.running meter = true) :
    reading.rest meter answers = ([], meter.res) := by
  have stopped : reading.loop.running meter = false := by simpa using stopped
  simp [Reading.rest, Loop.rounds_stopped stopped, Loop.final_stopped stopped]

/-- A running loop has the leg of its first answer, or of silence, and the legs after that. -/
theorem rest_running {meter : Meter} {answers : List ξ}
    (running : reading.loop.running meter = true) :
    reading.rest meter answers =
      (reading.leg (meter, answers.headD reading.silence) ::
        (reading.rest (reading.charge meter (answers.headD reading.silence)) answers.tail).1,
      (reading.rest (reading.charge meter (answers.headD reading.silence)) answers.tail).2) := by
  simp only [Reading.rest, Loop.rounds_running running, Loop.final_running running, List.map_cons]
  rfl

/-! ## One round -/

/-- The leg of an answer keeps the budget, and so do the legs after it. -/
def Reading.RoundKeeps (reading : Reading ξ) (io : UInt64) (len : Int) (past : List Leg)
    (meter : Meter) (answer : ξ) (answers : List ξ) : Prop :=
  KeepsAfter io len reading.overdue (reading.rest (reading.charge meter answer) answers).2 past
    (reading.leg (meter, answer) :: (reading.rest (reading.charge meter answer) answers).1)

/-- An answer stays within the budget; if the loop goes on in time, the rest must do so `later`. -/
def Reading.AnswerFits (reading : Reading ξ) (io : UInt64) (len : Int) (past : List Leg)
    (meter : Meter) (answer : ξ) (later : Prop) : Prop :=
  reading.error answer = 0 → 0 < toInt (meter.left - reading.moved meter.left answer) →
    (reading.ended answer = false →
      spent past + (reading.elapsed answer).toNat ≤ io.toNat) ∧
    (reading.ended answer = true ∨ len ≤ (carried past + reading.moved meter.left answer : Nat) →
      spent past + (reading.elapsed answer).toNat ≠ io.toNat) ∧
    (reading.ended answer = false →
      spent past + (reading.elapsed answer).toNat < io.toNat → later)

section
variable {past : List Leg} {meter : Meter} {answer : ξ} {answers : List ξ} {later : Prop}

/-- A leg after which the loop stops is judged by itself. -/
theorem roundKeeps_last (stopped : ¬reading.loop.running (reading.charge meter answer) = true) :
    reading.RoundKeeps io len past meter answer answers ↔
      LegKeeps io len reading.overdue (reading.charge meter answer).res past
        (reading.leg (meter, answer)) [] := by
  rw [Reading.RoundKeeps, rest_stopped stopped, keepsAfter_cons]
  exact and_iff_left keepsAfter_nil

/-- When the leg of an answer completes the transfer. -/
theorem complete_leg : Complete len past (reading.leg (meter, answer)) ↔
    reading.ended answer = true ∨ len ≤ (carried past + reading.moved meter.left answer : Nat) := by
  simp [Complete, Reading.leg]

/-- A failed request ends the transfer with its error. -/
theorem roundKeeps_failed (agrees : Agrees io len past meter) (failed : reading.error answer ≠ 0) :
    reading.RoundKeeps io len past meter answer answers := by
  apply (roundKeeps_last (by simp [charge_running, failed])).mpr
  exact ⟨agrees.time, fun success => absurd success failed, fun success => absurd success failed⟩

/-- A request that moves the last bytes ends the transfer without error. -/
theorem roundKeeps_moved (agrees : Agrees io len past meter) (small : len ≤ intMax)
    (success : reading.error answer = 0)
    (all : ¬0 < toInt (meter.left - reading.moved meter.left answer)) :
    reading.RoundKeeps io len past meter answer answers := by
  apply (roundKeeps_last (by simp [charge_running, all])).mpr
  rw [charge_res success, if_neg (by simp [all])]
  refine ⟨agrees.time, fun _ missing _ => ?_, fun _ _ _ => rfl⟩
  rw [complete_leg, not_or] at missing
  have short : (carried past + reading.moved meter.left answer : Int) < len := by omega
  rw [agrees.left_charged small short] at all
  omega

/-- A budget spent exactly is reported, rightly if bytes were missing. -/
theorem roundKeeps_exact (agrees : Agrees io len past meter) (success : reading.error answer = 0)
    (room : 0 < toInt (meter.left - reading.moved meter.left answer))
    (used : spent past + (reading.elapsed answer).toNat = io.toNat) :
    reading.RoundKeeps io len past meter answer answers ↔
      reading.AnswerFits io len past meter answer later := by
  have zero : meter.tmout - reading.elapsed answer = 0 := (agrees.tmout_zero answer).mpr used
  rw [roundKeeps_last (by simp [charge_running, zero]), charge_res success, if_pos ⟨room, zero⟩]
  constructor
  · intro keeps _ _
    refine ⟨fun _ => used.le, fun done => ?_, fun _ below => by omega⟩
    exact absurd (keeps.completed success (complete_leg.mpr done) rfl) reading.overdue_ne
  · intro fits
    refine ⟨agrees.time, fun _ _ _ => ⟨rfl, rfl⟩, fun _ done _ => ?_⟩
    exact absurd used ((fits success room).2.1 (complete_leg.mp done))

/-- An answer that ends the transfer at any other time ends it without error. -/
theorem roundKeeps_ended (agrees : Agrees io len past meter) (success : reading.error answer = 0)
    (used : spent past + (reading.elapsed answer).toNat ≠ io.toNat)
    (ended : reading.ended answer = true) :
    reading.RoundKeeps io len past meter answer answers := by
  have inTime : ¬meter.tmout - reading.elapsed answer = 0 := mt (agrees.tmout_zero answer).mp used
  apply (roundKeeps_last (by simp [charge_running, ended])).mpr
  rw [charge_res success, if_neg (by simp [inTime])]
  refine ⟨agrees.time, fun _ missing _ => ?_, fun _ _ _ => rfl⟩
  exact absurd (complete_leg.mpr (.inl ended)) missing

/-- When the loop goes on, the next leg is issued with a wrapped timeout if the budget is
overrun. -/
theorem roundKeeps_open (agrees : Agrees io len past meter) (success : reading.error answer = 0)
    (room : 0 < toInt (meter.left - reading.moved meter.left answer))
    (used : spent past + (reading.elapsed answer).toNat ≠ io.toNat)
    (opened : reading.ended answer = false) :
    reading.RoundKeeps io len past meter answer answers ↔
      spent past + (reading.elapsed answer).toNat < io.toNat ∧
        KeepsAfter io len reading.overdue (reading.rest (reading.charge meter answer) answers).2
          (past ++ [reading.leg (meter, answer)])
          (reading.rest (reading.charge meter answer) answers).1 := by
  have running : reading.loop.running (reading.charge meter answer) = true :=
    charge_running.mpr ⟨success, room, mt (agrees.tmout_zero answer).mp used, opened⟩
  rw [Reading.RoundKeeps, keepsAfter_cons]
  apply and_congr_left
  intro rest
  constructor
  · intro _
    rw [rest_running running] at rest
    have issued := (keepsAfter_cons.mp rest).1.issued
    simp only [spent_append, Reading.leg] at issued
    omega
  · intro below
    refine ⟨agrees.time, fun _ _ usedUp => ?_, fun _ _ last => ?_⟩
    · simp only [spent_append, Reading.leg] at usedUp
      omega
    · simp [rest_running running] at last

/-- A leg and the legs after it keep the budget exactly when the answer of the leg stays within it
and, if the loop goes on in time, the legs after it keep the budget too. -/
theorem roundKeeps_iff (agrees : Agrees io len past meter) (small : len ≤ intMax) :
    reading.RoundKeeps io len past meter answer answers ↔
      reading.AnswerFits io len past meter answer
        (KeepsAfter io len reading.overdue (reading.rest (reading.charge meter answer) answers).2
          (past ++ [reading.leg (meter, answer)])
          (reading.rest (reading.charge meter answer) answers).1) := by
  by_cases success : reading.error answer = 0
  · by_cases room : 0 < toInt (meter.left - reading.moved meter.left answer)
    · by_cases used : spent past + (reading.elapsed answer).toNat = io.toNat
      · exact roundKeeps_exact agrees success room used
      · cases opened : reading.ended answer with
        | true =>
          apply iff_of_true (roundKeeps_ended agrees success used opened)
          intro _ _
          simp [opened, used]
        | false =>
          rw [roundKeeps_open agrees success room used opened]
          simp only [Reading.AnswerFits, success, room, opened, used, ne_eq, not_false_eq_true,
            implies_true, true_implies, true_and]
          constructor
          · intro both
            exact ⟨both.1.le, fun _ => both.2⟩
          · intro fits
            have below := Nat.lt_of_le_of_ne fits.1 used
            exact ⟨below, fits.2 below⟩
    · apply iff_of_true (roundKeeps_moved agrees small success room)
      intro _ some
      exact absurd some room
  · apply iff_of_true (roundKeeps_failed agrees success)
    intro absent
    exact absurd absent success

end

/-- From counters that agree with the past, a running loop keeps the budget exactly when the
answers stay within it. -/
theorem keepsAfter_iff (reading : Reading ξ) (small : len ≤ intMax) (answers : List ξ)
    (past : List Leg) (meter : Meter) (agrees : Agrees io len past meter)
    (running : reading.loop.running meter = true) :
    KeepsAfter io len reading.overdue (reading.rest meter answers).2 past
        (reading.rest meter answers).1 ↔
      InBudget reading io len meter.left (carried past) (spent past) answers := by
  induction answers generalizing past meter with
  | nil =>
    have silent : reading.RoundKeeps io len past meter reading.silence [] :=
      roundKeeps_failed agrees reading.silence_fails
    simp only [rest_running running, List.headD_nil, List.tail_nil, InBudget, iff_true]
    exact silent
  | cons answer answers ih =>
    simp only [rest_running running, List.headD_cons, List.tail_cons, InBudget]
    apply (roundKeeps_iff agrees small).trans
    refine imp_congr_right fun success => imp_congr_right fun room => ?_
    refine and_congr_right fun _ => and_congr_right fun _ => ?_
    refine imp_congr_right fun opened => imp_congr_right fun below => ?_
    have next := ih (past ++ [reading.leg (meter, answer)]) (reading.charge meter answer)
      (agrees.charge small success below.le)
      (charge_running.mpr ⟨success, room,
        fun zero => by have := (agrees.tmout_zero answer).mp zero; omega, opened⟩)
    simpa [Reading.charge, success, Reading.leg] using next

/-- The counters a transfer of `len` bytes starts with. -/
def Meter.start (io : UInt64) (len : Int) : Meter := ⟨0, len, io, false⟩

/-- A transfer keeps its budget exactly when it has nothing to move or the answers stay within
the budget. -/
theorem keepsBudget_iff (reading : Reading ξ) (io : UInt64) (small : len ≤ intMax)
    (answers : List ξ) :
    KeepsBudget io len reading.overdue (reading.rest (.start io len) answers).2
        (reading.rest (.start io len) answers).1 ↔
      (0 < len → InBudget reading io len len 0 0 answers) := by
  by_cases some : 0 < len
  · have running : reading.loop.running (.start io len) = true := by
      simp [Reading.loop, Meter.start, some]
    have agrees : Agrees io len [] (.start io len) := ⟨by simp [spent, Meter.start],
      fun _ => by simp [carried, Meter.start]⟩
    have keeps := keepsAfter_iff reading small answers [] (.start io len) agrees running
    have legs : (reading.rest (.start io len) answers).1 ≠ [] := by simp [rest_running running]
    simp only [KeepsBudget, legs, false_implies, and_true, some, true_implies]
    simpa [carried, spent, Meter.start] using keeps
  · have stopped : ¬reading.loop.running (.start io len) = true := by
      simp [Reading.loop, Meter.start, some]
    rw [rest_stopped stopped]
    simp [KeepsBudget, keepsAfter_nil, some, Meter.start]

end Budget
