import GpibUtils.Budget
import GpibUtils.Vxi11.Read
import GpibUtils.Vxi11.Write

/-!
# The I/O timeout of a transfer

`vxi11_write` and `vxi11_read` each hand one `io_timeout` out to the data RPCs of a call. Both
loops, less the data they move, are metered loops, so the exact condition under which such a
loop keeps its budget is the condition under which they do (`vxi11_timeout_iff`).
-/

namespace GpibUtils.Vxi11

open CSem Dialogue Budget

/-- What a transfer of `len` bytes owes its caller once a lock does not keep it out: its data
RPCs keep the budget of `io_timeout`, and their verdict is returned, or else the error of the
unlock. -/
structure KeepsTimeout {ρ : Type} (v : Device) (len : Int) (peer : Peer ρ) (ret verdict : Int)
    (legs : List Leg) : Prop where
  /-- The data RPCs with the verdict of their loop. -/
  budget : KeepsBudget v.ioTimeout len errIotimeout verdict legs
  /-- The value returned. -/
  returned : ret = if verdict = 0 then peer.released v else verdict

/-! ## `vxi11_write` -/

/-- What an answer to `device_write` means to the transfer. -/
def writeReading (v : Device) : Reading (Exchange DeviceWriteResp) where
  error x := resultOf (x.reply.map (·.error))
  moved left x := x.reply.elim 0 (writeAcked v left)
  ended _ := false
  elapsed := Exchange.elapsed
  silence := .silence
  silence_fails := by simp [Exchange.silence, resultOf, coreRpcerr]
  overdue := errIotimeout
  overdue_ne := by simp [errIotimeout]

/-- One data RPC of `vxi11_write` as a leg of the transfer. -/
def writeLeg (v : Device) (round : WriteState × Exchange DeviceWriteResp) : Leg where
  timeout := (writeCall v round).parms.ioTimeout
  error := resultOf (round.2.reply.map (·.error))
  moved := round.2.reply.elim 0 (writeAcked v round.1.len)
  ended := false
  elapsed := round.2.elapsed

/-- The write loop less the data is a metered loop. -/
def writeMetered (v : Device) (core : Client) :
    Loop.Projection (writeLoop v core) (writeReading v).loop where
  state s := ⟨s.res, s.len, s.tmout, false⟩
  running s := by simp [writeLoop, Reading.loop]
  next s x _ := by
    change (writeReading v).charge _ x = _
    by_cases success : resultOf (x.reply.map (·.error)) = 0
    · obtain ⟨r, reply, good⟩ := Option.map_eq_some_iff.mp (resultOf_eq_zero.mp success)
      change _ = (⟨(writeBody v core s x).res, (writeBody v core s x).len,
        (writeBody v core s x).tmout, false⟩ : Meter)
      rw [writeBody_success reply good]
      simp [Reading.charge, writeReading, reply, good, resultOf]
    · change _ = (⟨(writeBody v core s x).res, (writeBody v core s x).len,
        (writeBody v core s x).tmout, false⟩ : Meter)
      rw [writeBody_failed success]
      simp [Reading.charge, writeReading, success]
  silence := rfl

/-- The error with which the write loop ends. -/
def writeVerdict (v : Device) (core : Client) (len : Int) (peer : Peer DeviceWriteResp) : Int :=
  ((writeLoop v core).final (writeStart v len) peer.exchanges).res

/-- `vxi11_write` keeps its timeout for all the data RPCs of a call. -/
def WriteKeepsTimeout (v : Device) (core : Client) (len : Int) (peer : Peer DeviceWriteResp) :
    Prop :=
  peer.admits v → KeepsTimeout v len peer (vxi11Write v len peer).1 (writeVerdict v core len peer)
    ((writeRounds v core len peer).map (writeLeg v))

/-- The device answers a write within its timeout, as `InBudget` has it. -/
def WriteInTime (v : Device) (len : Int) (peer : Peer DeviceWriteResp) : Prop :=
  peer.admits v → 0 < len → InBudget (writeReading v) v.ioTimeout len len 0 0 peer.exchanges

/-- The data RPCs and the verdict of a call are those of its metered loop. -/
theorem writeLegs_eq {v : Device} (core : Client) {len : Int} {peer : Peer DeviceWriteResp}
    (admits : peer.admits v) :
    (writeReading v).rest (.start v.ioTimeout len) peer.exchanges =
      ((writeRounds v core len peer).map (writeLeg v), writeVerdict v core len peer) := by
  have rounds := (writeMetered v core).rounds (writeStart v len) peer.exchanges
  have final := (writeMetered v core).final (writeStart v len) peer.exchanges
  have start : (writeMetered v core).state (writeStart v len) = .start v.ioTimeout len := rfl
  rw [start] at rounds final
  rw [Reading.rest, rounds, final, writeRounds, if_pos admits, List.map_map]
  rfl

/-- `vxi11_write` keeps its timeout exactly when the device answers within it. -/
theorem writeKeepsTimeout_iff {v : Device} {core : Client} {len : Int}
    (opened : Opened v core) (small : len ≤ intMax) (peer : Peer DeviceWriteResp) :
    WriteKeepsTimeout v core len peer ↔ WriteInTime v len peer := by
  refine imp_congr_right fun admits => ?_
  have budget := keepsBudget_iff (writeReading v) v.ioTimeout small peer.exchanges
  rw [writeLegs_eq core admits] at budget
  exact ⟨fun keeps => budget.mp keeps.budget,
    fun inTime => ⟨budget.mpr inTime, vxi11Write_ret opened admits⟩⟩

/-! ## `vxi11_read` -/

/-- What an answer to `device_read` means to the transfer. -/
def readReading : Reading (Exchange DeviceReadResp) where
  error x := resultOf (x.reply.map (·.error))
  moved _ x := x.reply.elim 0 (·.data.length)
  ended x := x.reply.elim false fun r => decide (r.reason ≠ 0)
  elapsed := Exchange.elapsed
  silence := .silence
  silence_fails := by simp [Exchange.silence, resultOf, coreRpcerr]
  overdue := errIotimeout
  overdue_ne := by simp [errIotimeout]

/-- One data RPC of `vxi11_read` as a leg of the transfer. -/
def readLeg (v : Device) (round : ReadState × Exchange DeviceReadResp) : Leg where
  timeout := (readCall v round).parms.ioTimeout
  error := resultOf (round.2.reply.map (·.error))
  moved := round.2.reply.elim 0 (·.data.length)
  ended := round.2.reply.elim false fun r => decide (r.reason ≠ 0)
  elapsed := round.2.elapsed

/-- The read loop less the data is a metered loop. -/
def readMetered (v : Device) (core : Client) :
    Loop.Projection (readLoop v core) readReading.loop where
  state s := ⟨s.res, s.len, s.tmout, decide (s.reason ≠ 0)⟩
  running s := by simp [readLoop, Reading.loop]
  next s x running := by
    have condition : s.res = 0 ∧ 0 < s.len ∧ s.reason = 0 := by simpa [readLoop] using running
    change readReading.charge _ x = (⟨(readBody v core s x).res, (readBody v core s x).len,
      (readBody v core s x).tmout, decide ((readBody v core s x).reason ≠ 0)⟩ : Meter)
    cases reply : x.reply with
    | none =>
      rw [readBody_silent reply]
      simp [Reading.charge, readReading, reply, resultOf, coreRpcerr, condition]
    | some r =>
      by_cases success : r.error = 0
      · rw [readBody_success reply success]
        simp [Reading.charge, readReading, reply, success, resultOf]
      · rw [readBody_refused reply success]
        simp [Reading.charge, readReading, reply, success, resultOf]
  silence := rfl

/-- The error with which the read loop ends. -/
def readVerdict (v : Device) (core : Client) (mem : Memory) (len : Int)
    (peer : Peer DeviceReadResp) : Int :=
  ((readLoop v core).final (readStart v mem len) peer.exchanges).res

/-- `vxi11_read` keeps its timeout for all the data RPCs of a call. -/
def ReadKeepsTimeout (v : Device) (core : Client) (mem : Memory) (len : Int)
    (peer : Peer DeviceReadResp) : Prop :=
  peer.admits v → KeepsTimeout v len peer (vxi11Read v mem len peer).ret
    (readVerdict v core mem len peer) ((readRounds v core mem len peer).map (readLeg v))

/-- The device answers a read within its timeout, as `InBudget` has it. -/
def ReadInTime (v : Device) (len : Int) (peer : Peer DeviceReadResp) : Prop :=
  peer.admits v → 0 < len → InBudget readReading v.ioTimeout len len 0 0 peer.exchanges

/-- The data RPCs and the verdict of a call are those of its metered loop. -/
theorem readLegs_eq {v : Device} (core : Client) (mem : Memory) {len : Int}
    {peer : Peer DeviceReadResp} (admits : peer.admits v) :
    readReading.rest (.start v.ioTimeout len) peer.exchanges =
      ((readRounds v core mem len peer).map (readLeg v), readVerdict v core mem len peer) := by
  have rounds := (readMetered v core).rounds (readStart v mem len) peer.exchanges
  have final := (readMetered v core).final (readStart v mem len) peer.exchanges
  have start : (readMetered v core).state (readStart v mem len) = .start v.ioTimeout len := rfl
  rw [start] at rounds final
  rw [Reading.rest, rounds, final, readRounds, if_pos admits, List.map_map]
  rfl

/-- `vxi11_read` keeps its timeout exactly when the device answers within it. -/
theorem readKeepsTimeout_iff {v : Device} {core : Client} {mem : Memory} {len : Int}
    (opened : Opened v core) (small : len ≤ intMax) (peer : Peer DeviceReadResp) :
    ReadKeepsTimeout v core mem len peer ↔ ReadInTime v len peer := by
  apply imp_congr_right
  intro admits
  have budget := keepsBudget_iff readReading v.ioTimeout small peer.exchanges
  rw [readLegs_eq core mem admits] at budget
  refine ⟨fun keeps => budget.mp keeps.budget, fun inTime => ⟨budget.mpr inTime, ?_⟩⟩
  rw [vxi11Read_eq opened admits]
  rfl

/-- Each of the two transfers keeps its timeout exactly when the device answers within it. -/
theorem vxi11_timeout_iff {v : Device} {core : Client} (opened : Opened v core)
    (mem : Memory) {len : Int} (small : len ≤ intMax) (writing : Peer DeviceWriteResp)
    (reading : Peer DeviceReadResp) :
    (WriteKeepsTimeout v core len writing ↔ WriteInTime v len writing) ∧
      (ReadKeepsTimeout v core mem len reading ↔ ReadInTime v len reading) :=
  ⟨writeKeepsTimeout_iff opened small writing, readKeepsTimeout_iff opened small reading⟩

/-- An exchange that takes so many seconds. -/
def lasting {ρ : Type} (seconds : Int) (reply : ρ) : Exchange ρ :=
  ⟨⟨0, 0⟩, ⟨seconds, 0⟩, some reply⟩

/-- Two bytes one at a time in ten seconds each, and a message of one byte in ten seconds, are
in time for a timeout of 25 seconds. -/
theorem vxi11_timeout_inTime :
    WriteKeepsTimeout (linked 1) 1 2 ⟨none, [lasting 10 ⟨0, 1⟩, lasting 10 ⟨0, 1⟩], none⟩ ∧
      ReadKeepsTimeout (linked 1) 1 (.ofBytes []) 2 ⟨none, [lasting 10 ⟨0, 4, [65]⟩], none⟩ := by
  have both := vxi11_timeout_iff (linked_opened 1) (.ofBytes []) (show (2 : Int) ≤ intMax by decide)
    ⟨none, [lasting 10 ⟨0, 1⟩, lasting 10 ⟨0, 1⟩], none⟩
    ⟨none, [lasting 10 ⟨0, 4, [65]⟩], none⟩
  exact ⟨both.1.mpr fun _ _ => by decide, both.2.mpr fun _ _ => by decide⟩

/-- After 30 seconds of 25 the next data RPC of a write is issued with a wrapped timeout, and a
message that ends a read after 25 seconds is reported as timed out. -/
theorem vxi11_timeout_wraps :
    let writing : Peer DeviceWriteResp := ⟨none, [lasting 30 ⟨0, 1⟩, lasting 1 ⟨0, 1⟩], none⟩
    let reading : Peer DeviceReadResp := ⟨none, [lasting 25 ⟨0, 4, [65]⟩], none⟩
    ¬WriteKeepsTimeout (linked 1) 1 2 writing ∧
      ¬ReadKeepsTimeout (linked 1) 1 (.ofBytes []) 2 reading ∧
      (writeCalls (linked 1) 1 2 writing).map (·.parms.ioTimeout.toNat) =
        [25000, 2 ^ 64 - 5000] ∧
      (vxi11Read (linked 1) (.ofBytes []) 2 reading).ret = errIotimeout := by
  refine ⟨?_, ?_, by decide, by decide⟩
  · rw [writeKeepsTimeout_iff (linked_opened 1) (by decide)]
    exact fun inTime => absurd (inTime (by decide) (by decide)) (by decide)
  · rw [readKeepsTimeout_iff (linked_opened 1) (by decide)]
    exact fun inTime => absurd (inTime (by decide) (by decide)) (by decide)

end GpibUtils.Vxi11
