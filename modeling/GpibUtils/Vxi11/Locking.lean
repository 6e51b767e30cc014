import GpibUtils.Vxi11.Read
import GpibUtils.Vxi11.Write

/-!
# Locks around transfers

With locking on, `vxi11_write` and `vxi11_read` take the device's lock before their data RPCs
and give it back after them, whichever way the loop ends. What a call sends is told here from
its data RPCs and the errors they meet (`vxi11Transfers_bracketed`).
-/

namespace GpibUtils.Vxi11

open CSem Dialogue

/-- The RPC of `vxi11_lock`. -/
def lockRpc (v : Device) (core : Client) : Rpc :=
  ⟨core, .deviceLock ⟨v.lid, waitlockFlags v, v.lockTimeout⟩⟩

/-- The RPC of `vxi11_unlock`. -/
def unlockRpc (v : Device) (core : Client) : Rpc := ⟨core, .deviceUnlock v.lid⟩

/-- The data RPCs of a call of `vxi11_write`. -/
def writeData (v : Device) (core : Client) (len : Int) (peer : Peer DeviceWriteResp) : List Rpc :=
  (writeCalls v core len peer).map fun call => ⟨core, .deviceWrite call.parms⟩

/-- The data RPCs of a call of `vxi11_read`. -/
def readData (v : Device) (core : Client) (mem : Memory) (len : Int)
    (peer : Peer DeviceReadResp) : List Rpc :=
  (readCalls v core mem len peer).map fun call => ⟨core, .deviceRead call.parms⟩

/-- The error of one data RPC of `vxi11_write`: there was no reply, or one with an error, or one
that leaves bytes but no time. -/
def writeFault (v : Device) (round : WriteState × Exchange DeviceWriteResp) : Int :=
  match round.2.reply with
  | none => coreRpcerr
  | some r =>
    if r.error ≠ 0 then r.error.toInt
    else if 0 < toInt (round.1.len - writeAcked v round.1.len r) ∧
      round.2.elapsed = round.1.tmout then errIotimeout
    else 0

/-- The error of one data RPC of `vxi11_read`. -/
def readFault (round : ReadState × Exchange DeviceReadResp) : Int :=
  match round.2.reply with
  | none => coreRpcerr
  | some r =>
    if r.error ≠ 0 then r.error.toInt
    else if 0 < toInt (round.1.len - r.data.length) ∧ round.2.elapsed = round.1.tmout
      then errIotimeout
    else 0

/-- The data error of a call of `vxi11_write`. -/
def writeError (v : Device) (core : Client) (len : Int) (peer : Peer DeviceWriteResp) : Int :=
  Loop.firstError ((writeRounds v core len peer).map (writeFault v))

/-- The data error of a call of `vxi11_read`. -/
def readError (v : Device) (core : Client) (mem : Memory) (len : Int)
    (peer : Peer DeviceReadResp) : Int :=
  Loop.firstError ((readRounds v core mem len peer).map readFault)

/-- The value and the RPCs of one call: its data RPCs alone, or one lock that fails, or its data
RPCs between one lock and one unlock. -/
structure Brackets (v : Device) (core : Client) (lock unlock : Option DeviceError)
    (data : List Rpc) (error : Int) (call : Int × List Rpc) : Prop where
  /-- Locking is off. -/
  free : v.doLocking = false → call = (error, data)
  /-- The lock fails. -/
  refused : v.doLocking = true → resultOf lock ≠ 0 → call = (resultOf lock, [lockRpc v core])
  /-- The lock is granted. -/
  granted : v.doLocking = true → resultOf lock = 0 →
    call = (if error ≠ 0 then error else resultOf unlock,
      lockRpc v core :: data ++ [unlockRpc v core])

/-- What the common frame of both transfers does on an open handle. -/
theorem bracketed_brackets {ρ : Type} {v : Device} {core : Client} (opened : Opened v core)
    (peer : Peer ρ) (error : Int) (data : List Rpc) :
    Brackets v core peer.lock peer.unlock data error (bracketed v peer (error, data)) := by
  have lock : vxi11Lock v peer.lock = (resultOf peer.lock, [lockRpc v core]) := by
    simp [vxi11Lock, onCore_opened opened, vxi11DeviceLock, plainWrapper, lockRpc]
  have unlock : vxi11Unlock v peer.unlock = (resultOf peer.unlock, [unlockRpc v core]) := by
    simp [vxi11Unlock, onCore_opened opened, vxi11DeviceUnlock, plainWrapper, unlockRpc]
  constructor
  · intro off
    simp [bracketed, off]
  · intro on failed
    simp [bracketed, on, lock, failed]
  · intro on good
    by_cases bad : error = 0 <;> by_cases freed : resultOf peer.unlock = 0 <;>
      simp [bracketed, on, lock, unlock, good, bad, freed]

/-- The brackets of a call whose lock fails do not depend on its data RPCs. -/
theorem Brackets.congr {v : Device} {core : Client} {lock unlock : Option DeviceError}
    {data other : List Rpc} {error fault : Int} {call : Int × List Rpc}
    (brackets : Brackets v core lock unlock data error call)
    (same : (v.doLocking = true → resultOf lock = 0) → other = data ∧ fault = error) :
    Brackets v core lock unlock other fault call := by
  constructor
  · intro off
    obtain ⟨rfl, rfl⟩ := same fun on => absurd on (by simp [off])
    exact brackets.free off
  · exact brackets.refused
  · intro on good
    obtain ⟨rfl, rfl⟩ := same fun _ => good
    exact brackets.granted on good

section
variable (v : Device) (core : Client)

/-- The loop of `vxi11_write` stops at the first error. -/
theorem writeLoop_stopsOnError :
    (writeLoop v core).StopsOnError WriteState.res (writeFault v) where
  running s running := by
    have condition : s.res = 0 ∧ 0 < s.len := by simpa [writeLoop] using running
    exact condition.1
  next s x running := by
    change (writeBody v core s x).res = writeFault v (s, x)
    cases reply : x.reply with
    | none =>
      rw [writeBody_failed (by simp [reply, resultOf, coreRpcerr])]
      simp [writeFault, reply, resultOf]
    | some r =>
      by_cases success : r.error = 0
      · have time : x.elapsed = s.tmout ↔ s.tmout - x.elapsed = 0 := by
          rw [sub_eq_zero_iff, eq_comm]
        rw [writeBody_success reply success]
        simp only [writeFault, reply, success, ne_eq, not_true, ↓reduceIte, time]
      · rw [writeBody_failed (by simp [reply, resultOf, success])]
        simp [writeFault, reply, success, resultOf]

/-- The loop of `vxi11_read` stops at the first error. -/
theorem readLoop_stopsOnError : (readLoop v core).StopsOnError ReadState.res readFault where
  running s running := by
    have condition : s.res = 0 ∧ 0 < s.len ∧ s.reason = 0 := by simpa [readLoop] using running
    exact condition.1
  next s x running := by
    change (readBody v core s x).res = readFault (s, x)
    cases reply : x.reply with
    | none =>
      rw [readBody_silent reply]
      simp [readFault, reply]
    | some r =>
      by_cases success : r.error = 0
      · have time : x.elapsed = s.tmout ↔ s.tmout - x.elapsed = 0 := by
          rw [sub_eq_zero_iff, eq_comm]
        rw [readBody_success reply success]
        simp only [readFault, reply, success, ne_eq, not_true, ↓reduceIte, time]
      · rw [readBody_refused reply success]
        simp [readFault, reply, success]

end

section
variable {v : Device} {core : Client}

/-- A lock that does not stand in the way of the data RPCs. -/
theorem Peer.admits_iff {ρ : Type} {peer : Peer ρ} :
    peer.admits v ↔ (v.doLocking = true → resultOf peer.lock = 0) := by
  simp [Peer.admits, resultOf_eq_zero]

/-- Each call of `vxi11_write` on an open handle is bracketed. -/
theorem vxi11Write_brackets (opened : Opened v core) (len : Int) (peer : Peer DeviceWriteResp) :
    Brackets v core peer.lock peer.unlock (writeData v core len peer)
      (writeError v core len peer) (vxi11Write v len peer) := by
  rw [vxi11Write, onCore_opened opened]
  apply (bracketed_brackets opened peer _ _).congr
  intro admits
  rw [← Peer.admits_iff] at admits
  have good : (writeStart v len).res = 0 := rfl
  have error := (writeLoop_stopsOnError v core).final good peer.exchanges
  constructor
  · simp only [writeData, writeCalls, writeRounds, if_pos admits, List.map_map]
    rfl
  · rw [writeError, writeRounds, if_pos admits, ← error]

/-- Each call of `vxi11_read` on an open handle is bracketed. -/
theorem vxi11Read_brackets (opened : Opened v core) (mem : Memory) (len : Int)
    (peer : Peer DeviceReadResp) :
    Brackets v core peer.lock peer.unlock (readData v core mem len peer)
      (readError v core mem len peer)
      ((vxi11Read v mem len peer).ret, (vxi11Read v mem len peer).rpcs) := by
  rw [vxi11Read_onCore, onCore_opened opened]
  apply (bracketed_brackets opened peer _ _).congr
  intro admits
  rw [← Peer.admits_iff] at admits
  have good : (readStart v mem len).res = 0 := rfl
  have error := (readLoop_stopsOnError v core).final good peer.exchanges
  constructor
  · simp only [readData, readCalls, readRounds, if_pos admits, List.map_map]
    rfl
  · rw [readError, readRounds, if_pos admits, ← error]

/-- A handle without a channel or without a link sends nothing and returns an error. -/
theorem vxi11Transfers_closed (closed : ∀ core, ¬Opened v core) :
    ∃ error ∈ [errNochan, errLinkinval],
      (∀ len peer, vxi11Write v len peer = (error, [])) ∧
        ∀ mem len peer, vxi11Read v mem len peer = ⟨error, [], mem, none⟩ := by
  cases channel : v.core with
  | none =>
    refine ⟨errNochan, by simp, ?_, ?_⟩
    · simp [vxi11Write, onCore, channel]
    · simp [vxi11Read, channel]
  | some core =>
    have link : v.lid = nolid := by
      by_contra link
      exact closed core ⟨channel, link⟩
    refine ⟨errLinkinval, by simp, ?_, ?_⟩
    · simp [vxi11Write, onCore, channel, link]
    · simp [vxi11Read, channel, link]

end

/-- Every transfer is bracketed: on an open handle its data RPCs are sent alone, or between one
lock and one unlock, or not at all when the lock fails; a handle that is not open sends
nothing. -/
theorem vxi11Transfers_bracketed (v : Device) :
    (∀ core, Opened v core →
      (∀ len peer, Brackets v core peer.lock peer.unlock (writeData v core len peer)
        (writeError v core len peer) (vxi11Write v len peer)) ∧
      ∀ mem len peer, Brackets v core peer.lock peer.unlock (readData v core mem len peer)
        (readError v core mem len peer)
        ((vxi11Read v mem len peer).ret, (vxi11Read v mem len peer).rpcs)) ∧
    ((∀ core, ¬Opened v core) → ∃ error ∈ [errNochan, errLinkinval],
      (∀ len peer, vxi11Write v len peer = (error, [])) ∧
        ∀ mem len peer, vxi11Read v mem len peer = ⟨error, [], mem, none⟩) :=
  ⟨fun _ opened => ⟨vxi11Write_brackets opened, vxi11Read_brackets opened⟩,
    vxi11Transfers_closed⟩

end GpibUtils.Vxi11
