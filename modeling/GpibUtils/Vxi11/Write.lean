import GpibUtils.Dialogue
import GpibUtils.Vxi11.Device

/-!
# `vxi11_write`

The loop of `vxi11_write` sends the caller's bytes in chunks the peer can hold. Three
variables move together: the pointer to the chunk, the `int` count of bytes left, and the
flags, which collect END once the last byte is offered. The pointer moves the wrong way, so
`vxi11Write_delivers_iff` holds a transfer right exactly when it needs one data RPC.
-/

namespace GpibUtils.Vxi11

open CSem Dialogue

/-- The variables of the loop. `size` is not among them: it is read only after a reply has
set it. -/
structure WriteState where
  res : Int
  buf : Int
  len : Int
  tmout : UInt64
  flags : Nat
  deriving DecidableEq

/-- `try`: bytes offered by the next RPC. -/
def writeTry (v : Device) (len : Int) : UInt64 :=
  if v.maxRecvSize < toULong len then v.maxRecvSize else toULong len

/-- The flags of the next RPC; END stays set from the first RPC that offers the last byte. -/
def writeFlags (v : Device) (s : WriteState) : Nat :=
  if v.maxRecvSize < toULong s.len then s.flags
  else if v.doEndw then s.flags ||| flagEndw else s.flags

/-- The data RPC of one pass. -/
def writeSend (v : Device) (core : Client) (s : WriteState) (reply : Option DeviceWriteResp) :
    Rpc × Int × UInt64 :=
  vxi11DeviceWrite core v.lid (writeFlags v s) s.tmout 0 s.buf (toInt (writeTry v s.len).toNat) 0
    reply

/-- The body of the loop, with the workaround for old ICS 8064 firmware, which acknowledges
nothing when it has taken everything. -/
def writeBody (v : Device) (core : Client) (s : WriteState) (x : Exchange DeviceWriteResp) :
    WriteState :=
  let (_, res, size) := writeSend v core s x.reply
  let flags := writeFlags v s
  if res = 0 then
    let size := if size = 0 then writeTry v s.len else size
    let buf := s.buf - size.toNat
    let len := toInt (s.len - size.toNat)
    let tmout := s.tmout - x.elapsed
    { res := if 0 < len ∧ tmout ≤ 0 then errIotimeout else res, buf, len, tmout, flags }
  else { s with res, flags }

/-- The loop. -/
def writeLoop (v : Device) (core : Client) : Loop WriteState (Exchange DeviceWriteResp) where
  running s := decide (s.res = 0 ∧ 0 < s.len)
  next := writeBody v core
  silence := .silence
  silence_stops s := by
    simp [writeBody, writeSend, vxi11DeviceWrite, Exchange.silence, resultOf, coreRpcerr]

/-- The variables on entry to the loop. -/
def writeStart (v : Device) (len : Int) : WriteState := ⟨0, 0, len, v.ioTimeout, 0⟩

/-- `vxi11_write`: the value returned and the RPCs made, in order. -/
def vxi11Write (v : Device) (len : Int) (peer : Peer DeviceWriteResp) : Int × List Rpc :=
  onCore v fun core => bracketed v peer
    (((writeLoop v core).final (writeStart v len) peer.exchanges).res,
      ((writeLoop v core).rounds (writeStart v len) peer.exchanges).map fun round =>
        (writeSend v core round.1 round.2.reply).1)

/-- Bytes a successful reply acknowledges, none standing for all that were offered. -/
def writeAcked (v : Device) (len : Int) (r : DeviceWriteResp) : Nat :=
  if r.size = 0 then (writeTry v len).toNat else r.size.toNat

/-- After a successful reply the three counters have moved by the acknowledged bytes. -/
theorem writeBody_success {v : Device} {core : Client} {s : WriteState}
    {x : Exchange DeviceWriteResp} {r : DeviceWriteResp} (reply : x.reply = some r)
    (success : r.error = 0) :
    writeBody v core s x =
      { res := if 0 < toInt (s.len - writeAcked v s.len r) ∧ s.tmout - x.elapsed = 0
          then errIotimeout else 0
        buf := s.buf - writeAcked v s.len r
        len := toInt (s.len - writeAcked v s.len r)
        tmout := s.tmout - x.elapsed
        flags := writeFlags v s } := by
  have size : (if r.size.toUInt64 = 0 then writeTry v s.len else r.size.toUInt64).toNat =
      writeAcked v s.len r := by
    have zero : r.size.toUInt64 = 0 ↔ r.size = 0 := by
      rw [← UInt64.toNat_inj, ← UInt32.toNat_inj, UInt32.toNat_toUInt64]
      rfl
    unfold writeAcked
    by_cases none : r.size = 0 <;> simp [zero, none]
  simp [writeBody, writeSend, vxi11DeviceWrite, reply, success, resultOf, size]

/-- A failed RPC leaves its error and moves nothing. -/
theorem writeBody_failed {v : Device} {core : Client} {s : WriteState}
    {x : Exchange DeviceWriteResp} (failed : resultOf (x.reply.map (·.error)) ≠ 0) :
    writeBody v core s x =
      { s with res := resultOf (x.reply.map (·.error)), flags := writeFlags v s } := by
  simp [writeBody, writeSend, vxi11DeviceWrite, failed]

/-- The chunk offered is never longer than what is left. -/
theorem writeTry_le {v : Device} {len : Int} (positive : 0 < len) (small : len ≤ intMax) :
    (writeTry v len).toNat ≤ len.toNat := by
  have same : (toULong len).toNat = len.toNat :=
    toNat_toULong (by omega) (by unfold intMax at small; omega)
  unfold writeTry
  split
  · rename_i larger
    have := UInt64.lt_iff_toNat_lt.mp larger
    omega
  · exact same.le

/-- A peer that can hold anything is offered something. -/
theorem writeTry_pos {v : Device} {len : Int} (positive : 0 < len) (small : len ≤ intMax)
    (room : 0 < v.maxRecvSize) : 0 < (writeTry v len).toNat := by
  have same : (toULong len).toNat = len.toNat :=
    toNat_toULong (by omega) (by unfold intMax at small; omega)
  unfold writeTry
  split
  · exact UInt64.lt_iff_toNat_lt.mp room
  · omega

/-- The chunk offered fits the `int` parameter of the wrapper. -/
theorem toInt_writeTry {v : Device} {len : Int} (positive : 0 < len) (small : len ≤ intMax) :
    toInt (writeTry v len).toNat = (writeTry v len).toNat := by
  have fits := writeTry_le (v := v) positive small
  exact toInt_of_range (by omega) (by omega)

/-! ## The data RPCs of a call -/

/-- A data RPC with its reply. -/
structure WriteCall where
  parms : DeviceWriteParms
  reply : Option DeviceWriteResp
  deriving DecidableEq

/-- The data RPC of one round. -/
def writeCall (v : Device) (round : WriteState × Exchange DeviceWriteResp) : WriteCall where
  parms := ⟨v.lid, round.1.tmout, 0, writeFlags v round.1, round.1.buf,
    toInt (writeTry v round.1.len).toNat⟩
  reply := round.2.reply

/-- The rounds made by a call: none when the lock is refused. -/
def writeRounds (v : Device) (core : Client) (len : Int) (peer : Peer DeviceWriteResp) :
    List (WriteState × Exchange DeviceWriteResp) :=
  if peer.admits v then (writeLoop v core).rounds (writeStart v len) peer.exchanges else []

/-- The data RPCs issued by a call. -/
def writeCalls (v : Device) (core : Client) (len : Int) (peer : Peer DeviceWriteResp) :
    List WriteCall := (writeRounds v core len peer).map (writeCall v)

/-- Among the RPCs of a call on an open handle, those of `device_write` are its data RPCs. -/
theorem vxi11Write_sends {v : Device} {core : Client} (opened : Opened v core) (len : Int)
    (peer : Peer DeviceWriteResp) :
    (vxi11Write v len peer).2.filterMap Rpc.writeParms =
      (writeCalls v core len peer).map WriteCall.parms := by
  rw [vxi11Write, onCore_opened opened, bracketed_filterMap opened peer rfl rfl, writeCalls,
    writeRounds]
  by_cases admits : peer.admits v
  · rw [if_pos admits, if_pos admits, List.filterMap_map, List.map_map]
    exact congrFun List.filterMap_eq_map _
  · rw [if_neg admits, if_neg admits]
    rfl

/-! ## Delivery -/

/-- The prefix of its data that a data RPC had acknowledged. -/
def WriteCall.acknowledged (mem : Memory) (call : WriteCall) : List UInt8 :=
  match call.reply with
  | none => []
  | some r =>
    if r.error = 0 then
      mem.slice call.parms.dataVal
        (if r.size = 0 then call.parms.dataLen.toNat else r.size.toNat)
    else []

/-- The peer acknowledges at most what it was offered. -/
def HonestWrites (calls : List WriteCall) : Prop :=
  ∀ call ∈ calls, ∀ r, call.reply = some r → r.error = 0 → (r.size.toNat : Int) ≤ call.parms.dataLen

/-- The acknowledged bytes are the caller's, each once and in order. -/
def DeliversExactly (mem : Memory) (len : Int) (calls : List WriteCall) : Prop :=
  calls.flatMap (·.acknowledged mem) = mem.slice 0 len.toNat

/-- Every data RPC is handed a region of the caller's buffer. -/
def StaysInside (len : Int) (calls : List WriteCall) : Prop :=
  ∀ call ∈ calls, Inside len call.parms.dataVal call.parms.dataLen.toNat

/-- The first data RPC, if one is made, is the last: it fails, or it is acknowledged in full,
or it uses up the time exactly. -/
def WritesOnce (v : Device) (len : Int) (peer : Peer DeviceWriteResp) : Prop :=
  0 < len → peer.admits v → ∀ x ∈ peer.exchanges.head?, ∀ r, x.reply = some r → r.error = 0 →
    (writeAcked v len r : Int) = len ∨ x.elapsed = v.ioTimeout

section
variable {v : Device} {core : Client} {len : Int} {peer : Peer DeviceWriteResp}

/-- A call that makes a data RPC makes the first one with the first exchange of the peer. -/
theorem writeRounds_eq (positive : 0 < len) (admits : peer.admits v) :
    writeRounds v core len peer =
      (writeStart v len, peer.exchanges.headD .silence) ::
        (writeLoop v core).rounds
          (writeBody v core (writeStart v len) (peer.exchanges.headD .silence))
          peer.exchanges.tail := by
  have running : (writeLoop v core).running (writeStart v len) = true := by
    simp [writeLoop, writeStart, positive]
  rw [writeRounds, if_pos admits, Loop.rounds_running running]
  rfl

/-- The loop goes on after a pass exactly when a successful reply left bytes and time. -/
theorem writeBody_running {s : WriteState} {x : Exchange DeviceWriteResp} :
    (writeLoop v core).running (writeBody v core s x) = true ↔
      ∃ r, x.reply = some r ∧ r.error = 0 ∧ 0 < toInt (s.len - writeAcked v s.len r) ∧
        s.tmout ≠ x.elapsed := by
  by_cases success : resultOf (x.reply.map (·.error)) = 0
  · obtain ⟨r, reply, good⟩ := Option.map_eq_some_iff.mp (resultOf_eq_zero.mp success)
    simp only [writeLoop, writeBody_success reply good, reply, Option.some.injEq,
      exists_eq_left', good, true_and, sub_eq_zero_iff, decide_eq_true_eq]
    by_cases room : 0 < toInt (s.len - writeAcked v s.len r) <;>
      by_cases time : s.tmout = x.elapsed <;> simp [room, time, errIotimeout]
  · simp only [writeLoop, writeBody_failed success, success, false_and, decide_false,
      Bool.false_eq_true, false_iff]
    rintro ⟨r, reply, good, -⟩
    exact success (by simp [reply, good, resultOf])

/-- With an honest first reply, the loop stops after the first pass exactly when the call is
one that writes once. -/
theorem writesOnce_iff (positive : 0 < len) (small : len ≤ intMax) (admits : peer.admits v)
    (honest : ∀ r, (peer.exchanges.headD .silence).reply = some r → r.error = 0 →
      (writeAcked v len r : Int) ≤ len) :
    WritesOnce v len peer ↔ (writeLoop v core).running
      (writeBody v core (writeStart v len) (peer.exchanges.headD .silence)) = false := by
  cases exchanges : peer.exchanges with
  | nil =>
    have stops := (writeLoop v core).silence_stops (writeStart v len)
    simp only [WritesOnce, exchanges, List.head?_nil, Option.mem_def, reduceCtorEq, false_implies,
      implies_true, List.headD_nil, true_iff]
    exact stops
  | cons x later =>
    rw [← Bool.not_eq_true, writeBody_running]
    simp only [WritesOnce, exchanges, List.head?_cons, Option.mem_some_iff, forall_eq',
      List.headD_cons, writeStart, positive, admits, true_implies, not_exists, not_and]
    refine forall_congr' fun r => forall_congr' fun reply => forall_congr' fun success => ?_
    have fits := honest r (by simpa [exchanges] using reply) success
    rw [toInt_of_range (by omega) (by omega)]
    constructor
    · rintro (all | time)
      · omega
      · simp [time]
    · intro stops
      by_cases all : (writeAcked v len r : Int) = len
      · exact .inl all
      · exact .inr (not_not.mp (stops (by omega))).symm

/-- The data RPCs of a call that makes one, by the first exchange of the peer. -/
theorem writeCalls_eq (positive : 0 < len) (admits : peer.admits v) :
    writeCalls v core len peer =
      writeCall v (writeStart v len, peer.exchanges.headD .silence) ::
        ((writeLoop v core).rounds
          (writeBody v core (writeStart v len) (peer.exchanges.headD .silence))
          peer.exchanges.tail).map (writeCall v) := by
  rw [writeCalls, writeRounds_eq positive admits, List.map_cons]

/-- The value returned by a call that no lock keeps out. -/
theorem vxi11Write_ret (opened : Opened v core) (admits : peer.admits v) :
    (vxi11Write v len peer).1 =
      if ((writeLoop v core).final (writeStart v len) peer.exchanges).res = 0
        then peer.released v
        else ((writeLoop v core).final (writeStart v len) peer.exchanges).res := by
  rw [vxi11Write, onCore_opened opened, bracketed_ret opened admits]

/-- A loop that stops after its first pass ends in the state that pass leaves. -/
theorem writeFinal_once (positive : 0 < len)
    (stopped : (writeLoop v core).running
      (writeBody v core (writeStart v len) (peer.exchanges.headD .silence)) = false) :
    (writeLoop v core).final (writeStart v len) peer.exchanges =
      writeBody v core (writeStart v len) (peer.exchanges.headD .silence) := by
  have running : (writeLoop v core).running (writeStart v len) = true := by
    simp [writeLoop, writeStart, positive]
  rw [Loop.final_running running]
  exact Loop.final_stopped stopped

/-- The first data RPC is offered the front of the caller's buffer. -/
theorem writeCall_start_inside (positive : 0 < len) (small : len ≤ intMax)
    (x : Exchange DeviceWriteResp) :
    StaysInside len [writeCall v (writeStart v len, x)] := by
  have fits := writeTry_le (v := v) positive small
  intro call member i below
  obtain rfl := List.mem_singleton.mp member
  simp only [writeCall, writeStart, toInt_writeTry positive small] at below ⊢
  omega

/-- The acknowledged prefix of the first data RPC is the front of the buffer. -/
theorem writeCall_start_acknowledged (positive : 0 < len) (small : len ≤ intMax)
    {x : Exchange DeviceWriteResp} {r : DeviceWriteResp} (reply : x.reply = some r)
    (success : r.error = 0) (mem : Memory) :
    (writeCall v (writeStart v len, x)).acknowledged mem = mem.slice 0 (writeAcked v len r) := by
  simp only [WriteCall.acknowledged, writeCall, reply, success, ↓reduceIte, writeStart,
    toInt_writeTry positive small, Int.toNat_natCast, writeAcked]

/-- A first pass that ends the loop without error has had the whole message acknowledged. -/
theorem writeBody_complete (small : len ≤ intMax) {x : Exchange DeviceWriteResp}
    (ended : (writeBody v core (writeStart v len) x).res = 0)
    (stopped : (writeLoop v core).running (writeBody v core (writeStart v len) x) = false)
    (honest : ∀ r, x.reply = some r → r.error = 0 → (writeAcked v len r : Int) ≤ len) :
    ∃ r, x.reply = some r ∧ r.error = 0 ∧ (writeAcked v len r : Int) = len := by
  have success : resultOf (x.reply.map (·.error)) = 0 := by
    by_contra failed
    rw [writeBody_failed failed] at ended
    exact failed ended
  obtain ⟨r, reply, good⟩ := Option.map_eq_some_iff.mp (resultOf_eq_zero.mp success)
  have fits := honest r reply good
  refine ⟨r, reply, good, ?_⟩
  simp only [writeLoop, writeBody_success reply good, writeStart] at ended stopped
  rw [toInt_of_range (by omega) (by omega)] at ended stopped
  simp only [ended, true_and, decide_eq_false_iff_not] at stopped
  omega

/-- The second data RPC is handed a region in front of the caller's buffer. -/
theorem writeBody_outside (core : Client) (positive : 0 < len) (small : len ≤ intMax)
    (room : 0 < v.maxRecvSize) {x : Exchange DeviceWriteResp} {r : DeviceWriteResp}
    (reply : x.reply = some r) (success : r.error = 0)
    (left : 0 < toInt (len - writeAcked v len r))
    (y : Exchange DeviceWriteResp) :
    ¬StaysInside len [writeCall v (writeBody v core (writeStart v len) x, y)] := by
  have moved : 0 < writeAcked v len r := by
    unfold writeAcked
    split
    · exact writeTry_pos positive small room
    · rename_i some
      exact Nat.pos_of_ne_zero fun zero => some (UInt32.toNat_inj.mp (by simpa using zero))
  have range := (toInt_range (len - writeAcked v len r)).2
  intro inside
  have first := inside _ (List.mem_singleton.mpr rfl) 0
  simp only [writeCall, writeBody_success reply success, writeStart,
    toInt_writeTry left range] at first
  have offered := writeTry_pos left range room
  omega

/-- A call that goes on after its first pass leaves the caller's buffer. -/
theorem writeCalls_outside (positive : 0 < len) (small : len ≤ intMax) (admits : peer.admits v)
    (room : 0 < v.maxRecvSize)
    (running : (writeLoop v core).running
      (writeBody v core (writeStart v len) (peer.exchanges.headD .silence)) = true) :
    ¬StaysInside len (writeCalls v core len peer) := by
  obtain ⟨r, reply, success, left, -⟩ := writeBody_running.mp running
  intro inside
  apply writeBody_outside core positive small room reply success left
    (peer.exchanges.tail.headD .silence)
  intro call member
  rw [List.mem_singleton] at member
  subst member
  apply inside
  rw [writeCalls_eq positive admits, Loop.rounds_running running]
  exact List.mem_cons_of_mem _ List.mem_cons_self

/-- A call that stops after its first pass delivers the caller's bytes out of the buffer. -/
theorem writeCalls_once (positive : 0 < len) (small : len ≤ intMax) (opened : Opened v core)
    (admits : peer.admits v)
    (honest : ∀ r, (peer.exchanges.headD .silence).reply = some r → r.error = 0 →
      (writeAcked v len r : Int) ≤ len)
    (stopped : (writeLoop v core).running
      (writeBody v core (writeStart v len) (peer.exchanges.headD .silence)) = false)
    (mem : Memory) :
    ((vxi11Write v len peer).1 = 0 → DeliversExactly mem len (writeCalls v core len peer)) ∧
      StaysInside len (writeCalls v core len peer) := by
  have calls : writeCalls v core len peer =
      [writeCall v (writeStart v len, peer.exchanges.headD .silence)] := by
    rw [writeCalls_eq positive admits, Loop.rounds_stopped stopped, List.map_nil]
  rw [calls]
  constructor
  · intro ok
    have ended : (writeBody v core (writeStart v len) (peer.exchanges.headD .silence)).res = 0 := by
      rw [vxi11Write_ret opened admits, writeFinal_once positive stopped] at ok
      by_contra failed
      rw [if_neg failed] at ok
      exact failed ok
    obtain ⟨r, reply, success, whole⟩ := writeBody_complete small ended stopped honest
    rw [DeliversExactly, List.flatMap_singleton,
      writeCall_start_acknowledged positive small reply success]
    congr 1
    omega
  · exact writeCall_start_inside positive small _

/-- A call of `vxi11_write` delivers the caller's bytes, out of the caller's buffer, exactly
when it makes no second data RPC; and where it returns 0, it has done both exactly then. -/
theorem vxi11Write_delivers_iff (opened : Opened v core) (nonneg : 0 ≤ len)
    (small : len ≤ intMax) (room : 0 < v.maxRecvSize)
    (honest : HonestWrites (writeCalls v core len peer)) (mem : Memory) :
    ((((vxi11Write v len peer).1 = 0 → DeliversExactly mem len (writeCalls v core len peer)) ∧
        StaysInside len (writeCalls v core len peer)) ↔ WritesOnce v len peer) ∧
      ((vxi11Write v len peer).1 = 0 →
        (DeliversExactly mem len (writeCalls v core len peer) ∧
          StaysInside len (writeCalls v core len peer) ↔ WritesOnce v len peer)) := by
  suffices main : ((vxi11Write v len peer).1 = 0 →
      DeliversExactly mem len (writeCalls v core len peer)) ∧
        StaysInside len (writeCalls v core len peer) ↔ WritesOnce v len peer by
    refine ⟨main, fun ok => ?_⟩
    simpa [ok] using main
  by_cases admits : peer.admits v
  · rcases Int.lt_or_eq_of_le nonneg with positive | rfl
    · have honestFirst : ∀ r, (peer.exchanges.headD .silence).reply = some r → r.error = 0 →
          (writeAcked v len r : Int) ≤ len := by
        intro r reply success
        have bound := honest (writeCall v (writeStart v len, peer.exchanges.headD .silence))
          (by rw [writeCalls_eq positive admits]; exact List.mem_cons_self) r reply success
        have fits := writeTry_le (v := v) positive small
        simp only [writeCall, writeStart, toInt_writeTry positive small] at bound
        unfold writeAcked
        split <;> omega
      have once : WritesOnce v len peer ↔ (writeLoop v core).running
          (writeBody v core (writeStart v len) (peer.exchanges.headD .silence)) = false :=
        writesOnce_iff positive small admits honestFirst
      rw [once]
      cases running : (writeLoop v core).running
          (writeBody v core (writeStart v len) (peer.exchanges.headD .silence)) with
      | true =>
        -- A second data RPC is made, from a pointer that has moved in front of the buffer.
        have outside := writeCalls_outside positive small admits room running
        exact iff_of_false (fun both => outside both.2) (by simp)
      | false =>
        have delivered := writeCalls_once positive small opened admits honestFirst running mem
        exact iff_of_true delivered rfl
    · have none : writeCalls v core 0 peer = [] := by
        simp [writeCalls, writeRounds, admits, Loop.rounds_eq_nil_iff, writeLoop, writeStart]
      simp [none, DeliversExactly, StaysInside, WritesOnce]
  · have none : writeCalls v core len peer = [] := by simp [writeCalls, writeRounds, admits]
    have failed : (vxi11Write v len peer).1 ≠ 0 := by
      rw [vxi11Write, onCore_opened opened]
      exact (bracketed_refused opened admits _).1
    simp [none, failed, StaysInside, WritesOnce, admits]

end

/-- A device that acknowledges so many bytes, at once. -/
def acknowledge (size : UInt32) : Exchange DeviceWriteResp := ⟨⟨0, 0⟩, ⟨0, 0⟩, some ⟨0, size⟩⟩

/-- A message the peer can hold goes out in one data RPC and is delivered. -/
theorem vxi11Write_delivers_short :
    WritesOnce (linked 1024) 2 ⟨none, [acknowledge 2], none⟩ ∧
      DeliversExactly (.ofBytes [65, 66]) 2
        (writeCalls (linked 1024) 1 2 ⟨none, [acknowledge 2], none⟩) := by
  have calls : writeCalls (linked 1024) 1 2 ⟨none, [acknowledge 2], none⟩ =
      [⟨⟨0, 25000, 0, 8, 0, 2⟩, some ⟨0, 2⟩⟩] := by decide
  have once : WritesOnce (linked 1024) 2 ⟨none, [acknowledge 2], none⟩ := by
    simp [WritesOnce, acknowledge, writeAcked]
  have delivers := @vxi11Write_delivers_iff (linked 1024) 1 2 ⟨none, [acknowledge 2], none⟩
    (linked_opened 1024) (by decide) (by decide) (by decide)
    (by simp [HonestWrites, calls]) (.ofBytes [65, 66])
  exact ⟨once, (delivers.1.mpr once).1 (by decide)⟩

/-- A message of two bytes to a device that holds one at a time: the second data RPC carries the
byte in front of the buffer, and the call returns 0. -/
theorem vxi11Write_leaves_buffer :
    let peer : Peer DeviceWriteResp := ⟨none, [acknowledge 1, acknowledge 1], none⟩
    let calls := writeCalls (linked 1) 1 2 peer
    HonestWrites calls ∧ (vxi11Write (linked 1) 2 peer).1 = 0 ∧
      calls.map (·.parms.dataVal) = [0, -1] ∧
      ¬DeliversExactly (.ofBytes [65, 66]) 2 calls ∧ ¬StaysInside 2 calls := by
  have calls : writeCalls (linked 1) 1 2 ⟨none, [acknowledge 1, acknowledge 1], none⟩ =
      [⟨⟨0, 25000, 0, 0, 0, 1⟩, some ⟨0, 1⟩⟩, ⟨⟨0, 25000, 0, 8, -1, 1⟩, some ⟨0, 1⟩⟩] := by decide
  refine ⟨by simp [HonestWrites, calls], by decide, by simp [calls],
    by rw [DeliversExactly, calls]; decide, ?_⟩
  intro inside
  have second := inside ⟨⟨0, 25000, 0, 8, -1, 1⟩, some ⟨0, 1⟩⟩ (by simp [calls]) 0 (by decide)
  exact absurd second (by decide)

end GpibUtils.Vxi11
