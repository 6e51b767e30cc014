import GpibUtils.Dialogue
import GpibUtils.Vxi11.Device

/-!
# `vxi11_read` and `vxi11_readstr`

The loop of `vxi11_read` asks for the room left in the caller's buffer and stores whatever the
device answers at a moving pointer. For a device that answers at most what it was asked for,
`vxi11Read_assembles` says that the buffer ends up with the device's message, piece by piece.
Nothing in the code checks the length of an answer, so the stores stay inside the buffer
exactly when the device keeps to what it was asked (`vxi11Read_safe_iff`).
-/

namespace GpibUtils.Vxi11

open CSem Dialogue

/-- The variables of the loop, with the memory around the caller's buffer. `try` is not among
them: it is read only after a reply has set it. -/
structure ReadState where
  res : Int
  buf : Int
  len : Int
  tmout : UInt64
  reason : Int
  count : Int
  mem : Memory

/-- The flags of every data RPC of a call. -/
def readFlags (v : Device) : Nat := if v.termCharSet then flagTermchrset else 0

/-- The data RPC of one pass. -/
def readSend (v : Device) (core : Client) (s : ReadState) (reply : Option DeviceReadResp) :
    Rpc × Int × ReadOut :=
  vxi11DeviceRead core v.lid (readFlags v) s.tmout 0 v.termChar s.buf (toULong s.len)
    ⟨s.reason, 0, s.mem⟩ reply

/-- The body of the loop. -/
def readBody (v : Device) (core : Client) (s : ReadState) (x : Exchange DeviceReadResp) :
    ReadState :=
  let (_, res, out) := readSend v core s x.reply
  if res = 0 then
    let count := toInt (s.count + out.dataLen)
    let len := toInt (s.len - out.dataLen)
    let buf := s.buf + out.dataLen
    let tmout := s.tmout - x.elapsed
    { res := if 0 < len ∧ tmout ≤ 0 then errIotimeout else res
      buf, len, tmout, reason := out.reason, count, mem := out.mem }
  else { s with res, reason := out.reason, mem := out.mem }

/-- The loop. -/
def readLoop (v : Device) (core : Client) : Loop ReadState (Exchange DeviceReadResp) where
  running s := decide (s.res = 0 ∧ 0 < s.len ∧ s.reason = 0)
  next := readBody v core
  silence := .silence
  silence_stops s := by
    simp [readBody, readSend, vxi11DeviceRead, Exchange.silence, resultOf, coreRpcerr]

/-- The variables on entry to the loop. -/
def readStart (v : Device) (mem : Memory) (len : Int) : ReadState :=
  ⟨0, 0, len, v.ioTimeout, 0, 0, mem⟩

/-- What a call of `vxi11_read` leaves: its value, the RPCs made, the memory around the buffer,
and what was stored in `*numreadp`, if anything was. -/
structure ReadResult where
  ret : Int
  rpcs : List Rpc
  mem : Memory
  numread : Option Int

/-- `vxi11_read`. The error of a refused lock, and the error of the unlock when there is no
other, are returned without storing `*numreadp`. -/
def vxi11Read (v : Device) (mem : Memory) (len : Int) (peer : Peer DeviceReadResp) : ReadResult :=
  match v.core with
  | none => ⟨errNochan, [], mem, none⟩
  | some core =>
    if v.lid = nolid then ⟨errLinkinval, [], mem, none⟩
    else
      let last := (readLoop v core).final (readStart v mem len) peer.exchanges
      let rpcs := ((readLoop v core).rounds (readStart v mem len) peer.exchanges).map fun round =>
        (readSend v core round.1 round.2.reply).1
      let (ret, rpcs) := bracketed v peer (last.res, rpcs)
      if v.doLocking ∧ (vxi11Lock v peer.lock).1 ≠ 0 then ⟨ret, rpcs, mem, none⟩
      else ⟨ret, rpcs, last.mem, if last.res = 0 ∧ ret ≠ 0 then none else some last.count⟩

/-- What a call of `vxi11_readstr` leaves; `nul` is where the terminator was stored. -/
structure ReadstrResult where
  ret : Int
  rpcs : List Rpc
  mem : Memory
  nul : Option Int

/-- `vxi11_readstr`; `none` is a failed assertion. `count` is set whenever `vxi11_read`
returns 0. -/
def vxi11Readstr (v : Device) (mem : Memory) (len : Int) (peer : Peer DeviceReadResp) :
    Option ReadstrResult :=
  let read := vxi11Read v mem (len - 1) peer
  if read.ret = 0 then
    let count := read.numread.getD 0
    if count < len then some ⟨read.ret, read.rpcs, read.mem.memcpy count [0], some count⟩ else none
  else some ⟨read.ret, read.rpcs, read.mem, none⟩

/-- After a successful reply of moderate length the counters have moved by its data, which is
stored at the pointer. -/
theorem readBody_success {v : Device} {core : Client} {s : ReadState}
    {x : Exchange DeviceReadResp} {r : DeviceReadResp} (reply : x.reply = some r)
    (success : r.error = 0) :
    readBody v core s x =
      { res := if 0 < toInt (s.len - r.data.length) ∧ s.tmout - x.elapsed = 0
          then errIotimeout else 0
        buf := s.buf + toInt r.data.length
        len := toInt (s.len - r.data.length)
        tmout := s.tmout - x.elapsed
        reason := r.reason.toInt
        count := toInt (s.count + r.data.length)
        mem := s.mem.memcpy s.buf r.data } := by
  simp [readBody, readSend, vxi11DeviceRead, reply, success, resultOf]

/-- A reply with an error leaves it and moves nothing, but its data is stored all the same. -/
theorem readBody_refused {v : Device} {core : Client} {s : ReadState}
    {x : Exchange DeviceReadResp} {r : DeviceReadResp} (reply : x.reply = some r)
    (failed : r.error ≠ 0) :
    readBody v core s x =
      { s with
        res := r.error.toInt
        reason := r.reason.toInt
        mem := s.mem.memcpy s.buf r.data } := by
  simp [readBody, readSend, vxi11DeviceRead, reply, failed, resultOf]

/-- An RPC without a reply leaves its error and changes nothing else. -/
theorem readBody_silent {v : Device} {core : Client} {s : ReadState}
    {x : Exchange DeviceReadResp} (reply : x.reply = none) :
    readBody v core s x = { s with res := coreRpcerr } := by
  simp [readBody, readSend, vxi11DeviceRead, reply, resultOf, coreRpcerr]

/-! ## The data RPCs of a call -/

/-- A data RPC with the place for its data, its reply and the time measured for it. -/
structure ReadCall where
  parms : DeviceReadParms
  dataVal : Int
  reply : Option DeviceReadResp
  elapsed : UInt64
  deriving DecidableEq

/-- The data RPC of one round. -/
def readCall (v : Device) (round : ReadState × Exchange DeviceReadResp) : ReadCall where
  parms := ⟨v.lid, toULong round.1.len, round.1.tmout, 0, readFlags v, toSChar v.termChar⟩
  dataVal := round.1.buf
  reply := round.2.reply
  elapsed := round.2.elapsed

/-- The rounds made by a call: none when the lock is refused. -/
def readRounds (v : Device) (core : Client) (mem : Memory) (len : Int)
    (peer : Peer DeviceReadResp) : List (ReadState × Exchange DeviceReadResp) :=
  if peer.admits v then (readLoop v core).rounds (readStart v mem len) peer.exchanges else []

/-- The data RPCs issued by a call. -/
def readCalls (v : Device) (core : Client) (mem : Memory) (len : Int)
    (peer : Peer DeviceReadResp) : List ReadCall :=
  (readRounds v core mem len peer).map (readCall v)

/-- What `vxi11_read` sends and returns is checked and framed as for `vxi11_write`. -/
theorem vxi11Read_onCore (v : Device) (mem : Memory) (len : Int) (peer : Peer DeviceReadResp) :
    ((vxi11Read v mem len peer).ret, (vxi11Read v mem len peer).rpcs) =
      onCore v fun core => bracketed v peer
        (((readLoop v core).final (readStart v mem len) peer.exchanges).res,
          ((readLoop v core).rounds (readStart v mem len) peer.exchanges).map fun round =>
            (readSend v core round.1 round.2.reply).1) := by
  cases channel : v.core with
  | none => simp [vxi11Read, onCore, channel]
  | some core =>
    by_cases link : v.lid = nolid
    · simp [vxi11Read, onCore, channel, link]
    · simp only [vxi11Read, onCore, channel, if_neg link]
      split <;> rfl

/-- Among the RPCs of a call on an open handle, those of `device_read` are its data RPCs. -/
theorem vxi11Read_sends {v : Device} {core : Client} (opened : Opened v core) (mem : Memory)
    (len : Int) (peer : Peer DeviceReadResp) :
    (vxi11Read v mem len peer).rpcs.filterMap Rpc.readParms =
      (readCalls v core mem len peer).map ReadCall.parms := by
  have frame := (Prod.ext_iff.mp (vxi11Read_onCore v mem len peer)).2
  rw [onCore_opened opened] at frame
  rw [show (vxi11Read v mem len peer).rpcs = _ from frame,
    bracketed_filterMap opened peer rfl rfl, readCalls, readRounds]
  by_cases admits : peer.admits v
  · rw [if_pos admits, if_pos admits, List.filterMap_map, List.map_map]
    exact congrFun List.filterMap_eq_map _
  · rw [if_neg admits, if_neg admits]
    rfl

section
variable {v : Device} {core : Client} {mem : Memory} {len : Int} {peer : Peer DeviceReadResp}

/-- A call on an open handle that no lock keeps out. -/
theorem vxi11Read_eq (opened : Opened v core) (admits : peer.admits v) :
    vxi11Read v mem len peer =
      let last := (readLoop v core).final (readStart v mem len) peer.exchanges
      { ret := if last.res = 0 then peer.released v else last.res
        rpcs := (if v.doLocking then (vxi11Lock v peer.lock).2 else []) ++
          (readCalls v core mem len peer).map (fun call => ⟨core, .deviceRead call.parms⟩) ++
          (if v.doLocking then (vxi11Unlock v peer.unlock).2 else [])
        mem := last.mem
        numread := if last.res = 0 ∧ peer.released v ≠ 0 then none else some last.count } := by
  have granted : ¬(v.doLocking = true ∧ (vxi11Lock v peer.lock).1 ≠ 0) := by
    rintro ⟨locking, failed⟩
    exact failed ((vxi11Lock_eq_zero opened).mpr (admits locking))
  simp only [vxi11Read, opened.channel, if_neg opened.link, if_neg granted,
    bracketed_ret opened admits, bracketed_rpcs opened admits, readCalls, readRounds, if_pos admits,
    List.map_map]
  congr 2
  apply propext
  by_cases ok : ((readLoop v core).final (readStart v mem len) peer.exchanges).res = 0 <;>
    simp [ok]

/-- A refused lock keeps the memory as it is and reports nothing read. -/
theorem vxi11Read_refused (opened : Opened v core) (refused : ¬peer.admits v) :
    (vxi11Read v mem len peer).ret ≠ 0 ∧ (vxi11Read v mem len peer).mem = mem ∧
      (vxi11Read v mem len peer).numread = none ∧ readCalls v core mem len peer = [] := by
  have failed : v.doLocking = true ∧ (vxi11Lock v peer.lock).1 ≠ 0 := by
    simp only [Peer.admits, Classical.not_imp] at refused
    exact ⟨refused.1, mt (vxi11Lock_eq_zero opened).mp refused.2⟩
  simp only [vxi11Read, opened.channel, if_neg opened.link, if_pos failed, readCalls, readRounds,
    if_neg refused, List.map_nil, and_self, and_true]
  exact (bracketed_refused opened refused _).1

end

/-! ## Assembly -/

/-- The data of a successful reply. -/
def ReadCall.delivered (call : ReadCall) : List UInt8 :=
  match call.reply with
  | none => []
  | some r => if r.error = 0 then r.data else []

/-- The data of all successful replies, in order. -/
def received (calls : List ReadCall) : List UInt8 := calls.flatMap ReadCall.delivered

/-- Milliseconds measured for some data RPCs. -/
def measured (calls : List ReadCall) : Nat := (calls.map fun call => call.elapsed.toNat).sum

/-- The error of the last data RPC, zero when there is none. -/
def lastError (calls : List ReadCall) : Int :=
  match calls.getLast? with
  | none => 0
  | some call => resultOf (call.reply.map (·.error))

/-- Every successful reply carries at most the bytes it was asked for. -/
def ConformingReads (calls : List ReadCall) : Prop :=
  ∀ call ∈ calls, ∀ r, call.reply = some r → r.error = 0 →
    r.data.length ≤ call.parms.requestSize.toNat

@[simp] theorem received_append (calls : List ReadCall) (call : ReadCall) :
    received (calls ++ [call]) = received calls ++ call.delivered := by simp [received]

@[simp] theorem measured_append (calls : List ReadCall) (call : ReadCall) :
    measured (calls ++ [call]) = measured calls + call.elapsed.toNat := by simp [measured]

@[simp] theorem lastError_append (calls : List ReadCall) (call : ReadCall) :
    lastError (calls ++ [call]) = resultOf (call.reply.map (·.error)) := by simp [lastError]

/-- The variables of the loop after some data RPCs of a conforming device with time left: the
pointer, the count and the room agree with the data received, and the buffer holds it. -/
structure Assembled (v : Device) (len : Int) (past : List ReadCall) (s : ReadState) : Prop where
  count : s.count = (received past).length
  buf : s.buf = (received past).length
  room : s.len = len - (received past).length
  fits : (received past).length ≤ len
  bytes : s.mem.slice 0 (received past).length = received past
  error : s.res = lastError past
  time : s.res = 0 → s.tmout.toNat + measured past = v.ioTimeout.toNat

/-- A successful reply with time left moves pointer, count and room together. -/
theorem Assembled.success {v : Device} {len : Int} {past : List ReadCall} {s : ReadState}
    {x : Exchange DeviceReadResp} {r : DeviceReadResp} (assembled : Assembled v len past s)
    (core : Client) (small : len ≤ intMax) (reply : x.reply = some r)
    (success : r.error = 0) (fits : r.data.length ≤ s.len) (good : s.res = 0)
    (inTime : measured past + x.elapsed.toNat < v.ioTimeout.toNat) :
    Assembled v len (past ++ [readCall v (s, x)]) (readBody v core s x) ∧
      (readBody v core s x).res = 0 := by
  obtain ⟨count, buf, room, bound, bytes, -, time⟩ := assembled
  have inRange : ∀ n : Int, 0 ≤ n → n ≤ len → toInt n = n := fun n low high =>
    toInt_of_range (by omega) (Int.le_trans high small)
  have time := time good
  have timely : ¬s.tmout - x.elapsed = 0 := by
    intro zero
    rw [(sub_eq_zero_iff _ _).mp zero] at time
    omega
  have delivered : (readCall v (s, x)).delivered = r.data := by
    simp [ReadCall.delivered, readCall, reply, success]
  have elapsed : (readCall v (s, x)).elapsed = x.elapsed := rfl
  rw [readBody_success reply success]
  refine ⟨⟨?_, ?_, ?_, ?_, ?_, ?_, ?_⟩, by simp [timely]⟩ <;>
    simp only [received_append, delivered, List.length_append, Int.natCast_add]
  · rw [count, inRange _ (by omega) (by omega)]
  · rw [buf, inRange _ (by omega) (by omega)]
  · rw [room, inRange _ (by omega) (by omega)]
    omega
  · omega
  · rw [Memory.slice_add, Int.zero_add, ← buf, Memory.slice_memcpy,
      Memory.slice_memcpy_before _ (by omega), bytes]
  · simp [timely, readCall, reply, success, resultOf]
  · intro _
    rw [measured_append, elapsed, toNat_sub (by omega)]
    omega

/-- A reply with an error, or none, leaves what was assembled. -/
theorem Assembled.failure {v : Device} {len : Int} {past : List ReadCall} {s : ReadState}
    {x : Exchange DeviceReadResp} (assembled : Assembled v len past s) (core : Client)
    (failed : ∀ r, x.reply = some r → r.error ≠ 0) :
    Assembled v len (past ++ [readCall v (s, x)]) (readBody v core s x) := by
  obtain ⟨count, buf, room, bound, bytes, -, -⟩ := assembled
  cases reply : x.reply with
  | none =>
    have delivered : (readCall v (s, x)).delivered = [] := by
      simp [ReadCall.delivered, readCall, reply]
    rw [readBody_silent reply]
    constructor <;> simp only [received_append, delivered, List.append_nil]
    · exact count
    · exact buf
    · exact room
    · exact bound
    · exact bytes
    · simp [readCall, reply, resultOf]
    · simp [coreRpcerr]
  | some r =>
    have refused := failed r reply
    have delivered : (readCall v (s, x)).delivered = [] := by
      simp [ReadCall.delivered, readCall, reply, refused]
    rw [readBody_refused reply refused]
    constructor <;> simp only [received_append, delivered, List.append_nil]
    · exact count
    · exact buf
    · exact room
    · exact bound
    · rw [Memory.slice_memcpy_before _ (by omega), bytes]
    · simp [readCall, reply, resultOf]
    · simp [refused]

section
variable {v : Device} {core : Client} {mem : Memory} {len : Int} {peer : Peer DeviceReadResp}

/-- A conforming device with time left conforms, and leaves time, up to every data RPC. -/
theorem conforming_prefix {before after : List ReadCall} {bound : Nat}
    (conforming : ConformingReads (before ++ after)) (inTime : measured (before ++ after) < bound) :
    ConformingReads before ∧ measured before < bound := by
  have time : measured (before ++ after) = measured before + measured after := by simp [measured]
  exact ⟨fun call member => conforming call (List.mem_append_left _ member), by omega⟩

/-- The request size of a pass is the room left. -/
theorem readCall_requestSize {s : ReadState} (nonneg : 0 ≤ s.len) (small : s.len ≤ intMax)
    (x : Exchange DeviceReadResp) :
    ((readCall v (s, x)).parms.requestSize.toNat : Int) = s.len := by
  have same : (toULong s.len).toNat = s.len.toNat :=
    toNat_toULong nonneg (by unfold intMax at small; omega)
  simp only [readCall, same]
  omega

/-- The invariant of the loop: as long as the device conforms in time, its data is assembled. -/
def Assembling (v : Device) (len : Int) (past : List (ReadState × Exchange DeviceReadResp))
    (s : ReadState) : Prop :=
  ConformingReads (past.map (readCall v)) → measured (past.map (readCall v)) < v.ioTimeout.toNat →
    Assembled v len (past.map (readCall v)) s

/-- Every pass of the loop keeps what was assembled. -/
theorem readLoop_assembles (v : Device) (core : Client) (small : len ≤ intMax) :
    (readLoop v core).HistoryInvariant (Assembling v len) where
  step past s x assembled running conforming inTime := by
    rw [List.map_append] at conforming inTime ⊢
    have earlier := conforming_prefix conforming inTime
    have assembled := assembled earlier.1 earlier.2
    have condition : s.res = 0 ∧ 0 < s.len ∧ s.reason = 0 := by simpa [readLoop] using running
    by_cases success : ∃ r, x.reply = some r ∧ r.error = 0
    · obtain ⟨r, reply, success⟩ := success
      have room := assembled.room
      have fits := conforming (readCall v (s, x)) (by simp) r reply success
      have asked := readCall_requestSize (v := v) (s := s) (by omega) (by omega) x
      refine (assembled.success core small reply success (by omega) condition.1 ?_).1
      simpa [readCall] using inTime
    · refine assembled.failure core fun r reply failed => success ⟨r, reply, failed⟩

/-- What holds before the first data RPC. -/
theorem assembling_start (mem : Memory) (nonneg : 0 ≤ len) :
    Assembling v len [] (readStart v mem len) := by
  intro _ _
  constructor <;> simp [readStart, received, measured, lastError, nonneg]

/-- What `vxi11_read` owes its caller when the device conforms in time. -/
structure Assembles (v : Device) (core : Client) (mem : Memory) (len : Int)
    (peer : Peer DeviceReadResp) : Prop where
  /-- The data RPCs are those among the RPCs of the call. -/
  sends : (vxi11Read v mem len peer).rpcs.filterMap Rpc.readParms =
    (readCalls v core mem len peer).map ReadCall.parms
  /-- A data RPC is made exactly when there is room to fill. -/
  starts : readCalls v core mem len peer = [] ↔ len = 0
  /-- Each data RPC asks for the room left. -/
  asks : ∀ before call after, readCalls v core mem len peer = before ++ call :: after →
    (call.parms.requestSize.toNat : Int) + (received before).length = len
  /-- A data RPC is the last one exactly when it got no reply, an error or a reason, or when
  its data fills the room. -/
  stops : ∀ before call after, readCalls v core mem len peer = before ++ call :: after →
    (after = [] ↔ ∀ r, call.reply = some r →
      r.error ≠ 0 ∨ r.reason ≠ 0 ∨ ((received (before ++ [call])).length : Int) = len)
  /-- The buffer starts with the data of the successful replies. -/
  bytes : (vxi11Read v mem len peer).mem.slice 0 (received (readCalls v core mem len peer)).length =
    received (readCalls v core mem len peer)
  /-- Their number is reported. -/
  numread : (vxi11Read v mem len peer).numread =
    some ((received (readCalls v core mem len peer)).length : Int)
  /-- The error of the last data RPC is returned. -/
  ret : (vxi11Read v mem len peer).ret = lastError (readCalls v core mem len peer)

/-- After a data RPC of a conforming device in time the loop stops exactly when there was no
reply, an error or a reason, or when the room is filled. -/
theorem Assembled.stopped_iff {past : List ReadCall} {s : ReadState} {x : Exchange DeviceReadResp}
    (next : Assembled v len (past ++ [readCall v (s, x)]) (readBody v core s x)) :
    (readLoop v core).running (readBody v core s x) = false ↔
      ∀ r, x.reply = some r → r.error ≠ 0 ∨ r.reason ≠ 0 ∨
        ((received (past ++ [readCall v (s, x)])).length : Int) = len := by
  have room := next.room
  have fits := next.fits
  have error : (readBody v core s x).res = resultOf (x.reply.map (·.error)) := by
    rw [next.error, lastError_append]
    rfl
  cases reply : x.reply with
  | none => simp [readLoop, error, reply, resultOf, coreRpcerr]
  | some r =>
    by_cases failed : r.error = 0
    · have reason : (readBody v core s x).reason = r.reason.toInt := by
        rw [readBody_success reply failed]
      have filled : ¬0 < (readBody v core s x).len ↔
          ((received (past ++ [readCall v (s, x)])).length : Int) = len := by omega
      have running : (readLoop v core).running (readBody v core s x) = false ↔
          ¬0 < (readBody v core s x).len ∨ r.reason ≠ 0 := by
        simp only [readLoop, error, reply, Option.map_some, resultOf, failed, reason,
          decide_eq_false_iff_not, int32_toInt_eq_zero, true_and, not_and_or, ne_eq]
      simp [running, filled, failed, or_comm]
    · simp [readLoop, error, reply, resultOf, failed]

/-- Each data RPC of a conforming device in time is made in a state that holds what was
assembled before it, and leads to one that holds its data as well. -/
theorem readCalls_split (nonneg : 0 ≤ len) (small : len ≤ intMax) (admits : peer.admits v)
    (conforming : ConformingReads (readCalls v core mem len peer))
    (inTime : measured (readCalls v core mem len peer) < v.ioTimeout.toNat)
    {before after : List ReadCall} {call : ReadCall}
    (split : readCalls v core mem len peer = before ++ call :: after) :
    ∃ s x, readCall v (s, x) = call ∧ Assembled v len before s ∧
      Assembled v len (before ++ [call]) (readBody v core s x) ∧
      (after = [] ↔ (readLoop v core).running (readBody v core s x) = false) := by
  have keeps := readLoop_assembles v core small
  have front : readCalls v core mem len peer = (before ++ [call]) ++ after := by simp [split]
  rw [front] at conforming inTime
  have reached := conforming_prefix conforming inTime
  have earlier := conforming_prefix reached.1 reached.2
  rw [readCalls, readRounds, if_pos admits, List.map_eq_append_iff] at split
  obtain ⟨past, _, rounds, rfl, split⟩ := split
  obtain ⟨⟨s, x⟩, later, rfl, rfl, rfl⟩ := List.map_eq_cons_iff.mp split
  have atCall := keeps.round (assembling_start mem nonneg) rounds
  have running := (Loop.rounds_split rounds).1
  have afterCall := keeps.step _ s x atCall running
  rw [List.nil_append, Assembling, List.map_append] at afterCall
  refine ⟨s, x, rfl, atCall earlier.1 earlier.2, afterCall reached.1 reached.2, ?_⟩
  rw [List.map_eq_nil_iff]
  exact Loop.rounds_split_last rounds

/-- `vxi11_read` assembles the message of a conforming device. -/
theorem vxi11Read_assembles (opened : Opened v core) (nonneg : 0 ≤ len) (small : len ≤ intMax)
    (admits : peer.admits v) (released : peer.released v = 0)
    (conforming : ConformingReads (readCalls v core mem len peer))
    (inTime : measured (readCalls v core mem len peer) < v.ioTimeout.toNat) :
    Assembles v core mem len peer := by
  have rounds : readRounds v core mem len peer =
      (readLoop v core).rounds (readStart v mem len) peer.exchanges := if_pos admits
  have last := (readLoop_assembles v core small).final
    (assembling_start mem nonneg) peer.exchanges
  rw [List.nil_append, ← rounds] at last
  have last := last conforming inTime
  have ok : (if lastError (readCalls v core mem len peer) = 0 then 0
      else lastError (readCalls v core mem len peer)) =
        lastError (readCalls v core mem len peer) := by
    split <;> simp_all
  constructor
  · exact vxi11Read_sends opened mem len peer
  · simp [readCalls, rounds, Loop.rounds_eq_nil_iff, readLoop, readStart]
    omega
  · intro before call after split
    obtain ⟨s, x, rfl, atCall, -, -⟩ :=
      readCalls_split nonneg small admits conforming inTime split
    have room := atCall.room
    have fits := atCall.fits
    rw [readCall_requestSize (by omega) (by omega)]
    omega
  · intro before call after split
    obtain ⟨s, x, rfl, -, afterCall, stopped⟩ :=
      readCalls_split nonneg small admits conforming inTime split
    exact stopped.trans afterCall.stopped_iff
  · rw [vxi11Read_eq opened admits]
    exact last.bytes
  · rw [vxi11Read_eq opened admits]
    simp only [released, ne_eq, not_true_eq_false, and_false, if_false, last.count]
    rfl
  · rw [vxi11Read_eq opened admits]
    simp only [released, last.error]
    exact ok

end

/-- A device that answers some bytes at once, without error, for a reason. -/
def answer (reason : Int32) (data : List UInt8) : Exchange DeviceReadResp :=
  ⟨⟨0, 0⟩, ⟨0, 0⟩, some ⟨0, reason, data⟩⟩

/-- A message in two pieces, the second of which ends it, is assembled. -/
theorem vxi11Read_assembles_pieces :
    Assembles (linked 1024) 1 (.ofBytes []) 4
      ⟨none, [answer 0 [65, 66], answer 4 [67]], none⟩ := by
  have calls : readCalls (linked 1024) 1 (.ofBytes []) 4
      ⟨none, [answer 0 [65, 66], answer 4 [67]], none⟩ =
        [⟨⟨0, 4, 25000, 0, 0, 10⟩, 0, some ⟨0, 0, [65, 66]⟩, 0⟩,
          ⟨⟨0, 2, 25000, 0, 0, 10⟩, 2, some ⟨0, 4, [67]⟩, 0⟩] := by decide
  exact vxi11Read_assembles (linked_opened 1024) (by decide) (by decide) (by decide) (by decide)
    (by simp [calls, ConformingReads]) (by rw [calls]; decide)

/-! ## Bounds -/

/-- Every reply that the loop takes, with so much room and time left, carries at most the bytes
there is room for. -/
def FitsRoom : (room : Int) → (tmout : UInt64) → List (Exchange DeviceReadResp) → Prop
  | _, _, [] => True
  | room, tmout, x :: later => ∀ r, x.reply = some r →
    r.data.length ≤ room ∧
      (r.error = 0 → r.reason = 0 → r.data.length < room → x.elapsed ≠ tmout →
        FitsRoom (room - r.data.length) (tmout - x.elapsed) later)

/-- The replies to a call that asks for `len` bytes fit the room there is for them. -/
def FitsReplies (v : Device) (len : Int) (peer : Peer DeviceReadResp) : Prop :=
  0 < len → peer.admits v → FitsRoom len v.ioTimeout peer.exchanges

/-- Every data RPC stores its data in the caller's buffer. -/
def StoresInside (len : Int) (calls : List ReadCall) : Prop :=
  ∀ call ∈ calls, ∀ r, call.reply = some r → Inside len call.dataVal r.data.length

/-- A call of `vxi11_read` stays in a buffer of `len` bytes, and reports as much. -/
structure ReadSafe (v : Device) (core : Client) (mem : Memory) (len : Int)
    (peer : Peer DeviceReadResp) : Prop where
  /-- Its stores. -/
  stores : StoresInside len (readCalls v core mem len peer)
  /-- Its report. -/
  numread : ∀ n, (vxi11Read v mem len peer).numread = some n → 0 ≤ n ∧ n ≤ len

/-- A call of `vxi11_readstr` stays in a buffer of `len` bytes. -/
structure ReadstrSafe (v : Device) (core : Client) (mem : Memory) (len : Int)
    (peer : Peer DeviceReadResp) : Prop where
  /-- The call of `vxi11_read` it makes. -/
  read : ReadSafe v core mem (len - 1) peer
  /-- Its assertion holds, and the terminator it stores lies in the buffer. -/
  terminated : ∃ result, vxi11Readstr v mem len peer = some result ∧
    ∀ nul, result.nul = some nul → 0 ≤ nul ∧ nul < len

/-- The variables of the loop point into a buffer of `len` bytes. -/
structure Within (len : Int) (s : ReadState) : Prop where
  /-- The pointer has not left the front. -/
  front : 0 ≤ s.buf
  /-- The count is the distance from the front. -/
  count : s.count = s.buf
  /-- What is left is the distance to the back. -/
  room : s.buf + s.len = len
  /-- There is no less than nothing left. -/
  left : 0 ≤ s.len

section
variable {v : Device} {core : Client} {mem : Memory} {len : Int} {peer : Peer DeviceReadResp}

/-- A pass keeps the variables inside the buffer when its reply, if one came, fits the room. -/
theorem Within.body {s : ReadState} (within : Within len s) (v : Device) (core : Client)
    (small : len ≤ intMax)
    {x : Exchange DeviceReadResp} (fits : ∀ r, x.reply = some r → r.data.length ≤ s.len) :
    Within len (readBody v core s x) := by
  obtain ⟨front, count, room, left⟩ := within
  have inRange : ∀ n : Int, 0 ≤ n → n ≤ len → toInt n = n := fun n low high =>
    toInt_of_range (by omega) (Int.le_trans high small)
  cases reply : x.reply with
  | none =>
    rw [readBody_silent reply]
    exact ⟨front, count, room, left⟩
  | some r =>
    have fits := fits r reply
    by_cases success : r.error = 0
    · rw [readBody_success reply success]
      constructor <;> simp only
      · rw [inRange _ (by omega) (by omega)]
        omega
      · rw [inRange _ (by omega) (by omega), inRange _ (by omega) (by omega), count]
      · rw [inRange _ (by omega) (by omega), inRange _ (by omega) (by omega)]
        omega
      · rw [inRange _ (by omega) (by omega)]
        omega
    · rw [readBody_refused reply success]
      exact ⟨front, count, room, left⟩

/-- A reply is stored inside the buffer exactly when it fits the room. -/
theorem Within.stores_iff {s : ReadState} (within : Within len s) {x : Exchange DeviceReadResp}
    {r : DeviceReadResp} :
    Inside len (readCall v (s, x)).dataVal r.data.length ↔ (r.data.length : Int) ≤ s.len := by
  obtain ⟨front, count, room, left⟩ := within
  rcases Nat.eq_zero_or_pos r.data.length with empty | some
  · simp [empty, left]
  · rw [inside_iff some]
    simp only [readCall]
    omega

/-- The loop goes on after a pass exactly when a successful reply without a reason left room
and time. -/
theorem readBody_running {s : ReadState} {x : Exchange DeviceReadResp} :
    (readLoop v core).running (readBody v core s x) = true ↔
      ∃ r, x.reply = some r ∧ r.error = 0 ∧ r.reason = 0 ∧
        0 < toInt (s.len - r.data.length) ∧ s.tmout ≠ x.elapsed := by
  cases reply : x.reply with
  | none => simp [readLoop, readBody_silent reply, coreRpcerr]
  | some r =>
    by_cases success : r.error = 0
    · simp only [readLoop, readBody_success reply success, Option.some.injEq, exists_eq_left',
        success, true_and, sub_eq_zero_iff, decide_eq_true_eq, int32_toInt_eq_zero]
      by_cases room : 0 < toInt (s.len - r.data.length) <;>
        by_cases time : s.tmout = x.elapsed <;> simp [room, time, errIotimeout]
    · simp [readLoop, readBody_refused reply success, success]

/-- After a reply that fits the room, the loop goes on exactly when the reply was successful,
gave no reason and left room and time. -/
theorem Within.running_iff {s : ReadState} (within : Within len s) (v : Device) (core : Client)
    (small : len ≤ intMax)
    {x : Exchange DeviceReadResp} {r : DeviceReadResp} (reply : x.reply = some r)
    (fits : r.data.length ≤ s.len) :
    (readLoop v core).running (readBody v core s x) = true ↔
      r.error = 0 ∧ r.reason = 0 ∧ r.data.length < s.len ∧ x.elapsed ≠ s.tmout := by
  obtain ⟨front, -, room, -⟩ := within
  have same : toInt (s.len - r.data.length) = s.len - r.data.length :=
    toInt_of_range (by omega) (by omega)
  simp only [readBody_running, reply, Option.some.injEq, exists_eq_left', same, Int.sub_pos,
    ne_comm]

/-- Once the loop is running, its stores stay inside the buffer exactly when the replies it
takes fit the room. -/
theorem Within.storesInside_iff {s : ReadState} (within : Within len s) (small : len ≤ intMax)
    (running : (readLoop v core).running s = true) (exchanges : List (Exchange DeviceReadResp)) :
    StoresInside len (((readLoop v core).rounds s exchanges).map (readCall v)) ↔
      FitsRoom s.len s.tmout exchanges := by
  induction exchanges generalizing s with
  | nil =>
    rw [Loop.rounds, if_pos running]
    simp [StoresInside, FitsRoom, readCall, readLoop, Exchange.silence]
  | cons x later ih =>
    have rounds : StoresInside len (((readLoop v core).rounds s (x :: later)).map (readCall v)) ↔
        (∀ r, x.reply = some r → Inside len (readCall v (s, x)).dataVal r.data.length) ∧
          StoresInside len (((readLoop v core).rounds (readBody v core s x) later).map
            (readCall v)) := by
      simp only [Loop.rounds, running, ↓reduceIte, List.map_cons, StoresInside,
        List.forall_mem_cons]
      rfl
    rw [rounds]
    cases reply : x.reply with
    | none =>
      have stopped : (readLoop v core).running (readBody v core s x) = false := by
        simp [← Bool.not_eq_true, readBody_running, reply]
      simp [Loop.rounds_stopped stopped, StoresInside, FitsRoom, reply]
    | some r =>
      simp only [Option.some.injEq, forall_eq', FitsRoom, reply, within.stores_iff]
      apply and_congr_right
      intro fits
      have goesOn := within.running_iff v core small reply fits
      cases next : (readLoop v core).running (readBody v core s x) with
      | true =>
        obtain ⟨success, reason, room, time⟩ := goesOn.mp next
        have kept := within.body v core small (x := x) (by simpa [reply] using fits)
        rw [ih kept next, readBody_success reply success]
        have same : toInt (s.len - r.data.length) = s.len - r.data.length :=
          toInt_of_range (by omega) (by have := within.room; have := within.front; omega)
        simp [success, reason, room, time, same]
      | false =>
        rw [Loop.rounds_stopped next]
        have stops : ¬(r.error = 0 ∧ r.reason = 0 ∧ r.data.length < s.len ∧
            x.elapsed ≠ s.tmout) := by simp [← goesOn, next]
        simp only [List.map_nil, StoresInside, List.not_mem_nil, false_implies, implies_true,
          true_iff]
        exact fun success reason room time => absurd ⟨success, reason, room, time⟩ stops

/-- While the replies it takes fit the room, the loop ends with its variables in the buffer. -/
theorem Within.final {s : ReadState} (within : Within len s) (small : len ≤ intMax)
    {exchanges : List (Exchange DeviceReadResp)}
    (inside : StoresInside len (((readLoop v core).rounds s exchanges).map (readCall v))) :
    Within len ((readLoop v core).final s exchanges) := by
  induction exchanges generalizing s with
  | nil =>
    cases running : (readLoop v core).running s with
    | true =>
      rw [Loop.final_running running, List.headD_nil, List.tail_nil,
        Loop.final_stopped ((readLoop v core).silence_stops s)]
      exact within.body v core (x := .silence) small (by simp [Exchange.silence])
    | false => rwa [Loop.final_stopped running]
  | cons x later ih =>
    cases running : (readLoop v core).running s with
    | true =>
      simp only [Loop.rounds, running, ↓reduceIte, List.map_cons, StoresInside,
        List.forall_mem_cons] at inside
      rw [Loop.final_running running]
      exact ih (within.body v core small fun r reply =>
        within.stores_iff.mp (inside.1 r reply)) inside.2
    | false => rwa [Loop.final_stopped running]

/-- Before the loop. -/
theorem within_start (v : Device) (mem : Memory) (nonneg : 0 ≤ len) :
    Within len (readStart v mem len) := by
  constructor <;> simp [readStart, nonneg]

/-- A call of `vxi11_read` stays inside the caller's buffer exactly when the replies it takes
fit the room. -/
theorem readSafe_iff (opened : Opened v core) (nonneg : 0 ≤ len) (small : len ≤ intMax) :
    ReadSafe v core mem len peer ↔ FitsReplies v len peer := by
  have stores : StoresInside len (readCalls v core mem len peer) ↔ FitsReplies v len peer := by
    by_cases admits : peer.admits v
    · rcases Int.lt_or_eq_of_le nonneg with positive | rfl
      · have running : (readLoop v core).running (readStart v mem len) = true := by
          simp [readLoop, readStart, positive]
        rw [readCalls, readRounds, if_pos admits,
          (within_start v mem nonneg).storesInside_iff small running]
        simp [FitsReplies, positive, admits, readStart]
      · have none : readCalls v core mem 0 peer = [] := by
          simp [readCalls, readRounds, admits, Loop.rounds_eq_nil_iff, readLoop, readStart]
        simp [none, StoresInside, FitsReplies]
    · simp [readCalls, readRounds, admits, StoresInside, FitsReplies]
  refine ⟨fun safe => stores.mp safe.stores, fun fits => ⟨stores.mpr fits, ?_⟩⟩
  intro n reported
  by_cases admits : peer.admits v
  · have inside := stores.mpr fits
    rw [readCalls, readRounds, if_pos admits] at inside
    have last := (within_start v mem nonneg).final small inside
    rw [vxi11Read_eq opened admits] at reported
    simp only [Option.ite_none_left_eq_some, Option.some.injEq] at reported
    obtain ⟨-, rfl⟩ := reported
    obtain ⟨front, count, room, left⟩ := last
    omega
  · rw [(vxi11Read_refused opened admits).2.2.1] at reported
    exact absurd reported (by simp)

/-- A successful call of `vxi11_read` reports what it counted. -/
theorem vxi11Read_reports (opened : Opened v core) (ok : (vxi11Read v mem len peer).ret = 0) :
    ∃ n, (vxi11Read v mem len peer).numread = some n := by
  have admits : peer.admits v := by
    by_contra refused
    have failed : (vxi11Read v mem len peer).ret ≠ 0 := (vxi11Read_refused opened refused).1
    exact failed ok
  rw [vxi11Read_eq opened admits] at ok ⊢
  simp only at ok ⊢
  refine ⟨((readLoop v core).final (readStart v mem len) peer.exchanges).count, if_neg ?_⟩
  rintro ⟨done, late⟩
  rw [if_pos done] at ok
  exact late ok

/-- A call of `vxi11_readstr` stays inside the caller's buffer exactly when the replies to its
call of `vxi11_read` fit. -/
theorem readstrSafe_iff (opened : Opened v core) (positive : 1 ≤ len) (small : len ≤ intMax) :
    ReadstrSafe v core mem len peer ↔ FitsReplies v (len - 1) peer := by
  have safe : ReadSafe v core mem (len - 1) peer ↔ FitsReplies v (len - 1) peer :=
    readSafe_iff opened (by omega) (by omega)
  refine ⟨fun both => safe.mp both.read, fun fits => ⟨safe.mpr fits, ?_⟩⟩
  have bounds := (safe.mpr fits).numread
  rw [vxi11Readstr]
  by_cases ok : (vxi11Read v mem (len - 1) peer).ret = 0
  · obtain ⟨n, reported⟩ := vxi11Read_reports opened ok
    have bounds := bounds n reported
    have holds : n < len := by omega
    simp only [ok, reported, Option.getD_some, holds, ↓reduceIte]
    refine ⟨_, rfl, fun nul stored => ?_⟩
    cases stored
    exact ⟨bounds.1, holds⟩
  · simp only [ok, ↓reduceIte]
    exact ⟨_, rfl, by simp⟩

/-- `vxi11_read` and `vxi11_readstr` stay inside the caller's buffer exactly when every reply
they take carries at most the bytes it was asked for. -/
theorem vxi11Read_safe_iff (opened : Opened v core) (nonneg : 0 ≤ len) (small : len ≤ intMax) :
    (ReadSafe v core mem len peer ∧ (1 ≤ len → ReadstrSafe v core mem len peer)) ↔
      (FitsReplies v len peer ∧ (1 ≤ len → FitsReplies v (len - 1) peer)) := by
  apply and_congr (readSafe_iff opened nonneg small)
  exact imp_congr_right fun positive => readstrSafe_iff opened positive small

end

/-- A reply of one byte fits a buffer of two, with room for its terminator. -/
theorem vxi11Read_safe_short :
    ReadSafe (linked 1024) 1 (.ofBytes []) 2 ⟨none, [answer 4 [65]], none⟩ ∧
      (1 ≤ (2 : Int) →
        ReadstrSafe (linked 1024) 1 (.ofBytes []) 2 ⟨none, [answer 4 [65]], none⟩) := by
  apply (vxi11Read_safe_iff (linked_opened 1024) (by decide) (by decide)).mpr
  simp [FitsReplies, FitsRoom, answer]

/-- A reply of three bytes overruns a buffer of two, and fails the assertion of
`vxi11_readstr`. -/
theorem vxi11Read_overruns :
    let peer : Peer DeviceReadResp := ⟨none, [answer 4 [65, 66, 67]], none⟩
    ¬(ReadSafe (linked 1024) 1 (.ofBytes []) 2 peer ∧
        (1 ≤ (2 : Int) → ReadstrSafe (linked 1024) 1 (.ofBytes []) 2 peer)) ∧
      (vxi11Read (linked 1024) (.ofBytes []) 2 peer).numread = some 3 ∧
      (vxi11Read (linked 1024) (.ofBytes []) 2 peer).mem 2 = 67 ∧
      vxi11Readstr (linked 1024) (.ofBytes []) 2 peer = none := by
  have reported : (vxi11Read (linked 1024) (.ofBytes []) 2
      ⟨none, [answer 4 [65, 66, 67]], none⟩).numread = some 3 := by decide
  refine ⟨fun safe => ?_, reported, by decide, ?_⟩
  · exact absurd (safe.1.numread 3 reported).2 (by decide)
  · rw [← Option.isNone_iff_eq_none]
    decide

end GpibUtils.Vxi11
