import GpibUtils.Vxi11.Locking

/-!
# `_generic_read`

The one function under all reads of `inst.c`, over its four transports. On GPIB a read goes on
until the driver reports END, and a buffer that fills before END is an error. On VXI-11 a buffer
that fills ends the read without one, so a message longer than the buffer is returned cut, and
its tail is left to be the start of the next reply (`genericRead_boundaries`).
-/

namespace GpibUtils.Inst

open CSem Dialogue Vxi11

/-! ## The code -/

/-- One `ibrd`: the bytes it stores, and the bits of `ibsta` it leaves. -/
structure Ibrd where
  data : List UInt8
  /-- `TIMO` -/
  timo : Bool
  /-- `ERR` -/
  err : Bool
  /-- `END` -/
  fin : Bool

/-- One `read` of a file descriptor; no bytes are its end. -/
inductive SysRead where
  | data (bytes : List UInt8)
  /-- An error of `EINTR`. -/
  | interrupted
  /-- Any other error. -/
  | failed

/-- What ends the program in `_generic_read`. -/
inductive Fatal where
  /-- "ibrd timeout" -/
  | ibrdTimeout
  /-- "ibrd error" -/
  | ibrdError
  /-- "read buffer too small" -/
  | tooSmall
  /-- The error of `vxi11_read`. -/
  | vxi11 (err : Int)
  /-- "read error" -/
  | readError
  /-- "EOF on read" -/
  | eof
  deriving DecidableEq

/-- `read_all`: the bytes counted, and the memory. A descriptor with nothing left to say is at
its end. -/
def readAll (len : Int) : (mem : Memory) → (bc : Int) → List SysRead → Int × Memory
  | mem, bc, [] => (bc, mem)
  | mem, bc, .interrupted :: later => readAll len mem bc later
  | mem, bc, .failed :: _ => (bc, mem)
  | mem, bc, .data bytes :: later =>
    let mem := mem.memcpy bc bytes
    let bc := toInt (bc + bytes.length)
    if bytes ≠ [] ∧ bc < len then readAll len mem bc later else (bc, mem)

/-- The loop over `ibrd`. A driver with nothing left to say times out. -/
def ibrdLoop (len : Int) : (mem : Memory) → (count : Int) → List Ibrd →
    Except Fatal (Int × Memory)
  | _, _, [] => .error .ibrdTimeout
  | mem, count, x :: later =>
    if x.timo then .error .ibrdTimeout
    else if x.err then .error .ibrdError
    else
      let mem := mem.memcpy count x.data
      let count := toInt (count + x.data.length)
      if count < len ∧ x.fin = false then ibrdLoop len mem count later
      else if x.fin then .ok (count, mem)
      else .error .tooSmall

/-- The transport of an instrument, and what it does during one read. -/
inductive Transport where
  | gpib (reads : List Ibrd)
  | vxi11 (v : Device) (peer : Peer DeviceReadResp)
  | serial (reos : Bool) (reads : List SysRead)
  | socket (reads : List SysRead)

/-- `read` on a serial line in canonical mode: one line. -/
def readOnce (mem : Memory) : List SysRead → Int × Memory
  | .data bytes :: _ => (bytes.length, mem.memcpy 0 bytes)
  | [] => (0, mem)
  | _ => (-1, mem)

/-- `_generic_read`: the count returned and the memory around the buffer, or what ended the
program. On a socket the comparison is made before the assignment, so `count` is its truth
value. -/
def genericRead (transport : Transport) (mem : Memory) (len : Int) :
    Except Fatal (Int × Memory) :=
  match transport with
  | .gpib reads => ibrdLoop len mem 0 reads
  | .vxi11 v peer =>
    let read := vxi11Read v mem len peer
    if read.ret ≠ 0 then .error (.vxi11 read.ret) else .ok (read.numread.getD 0, read.mem)
  | .serial reos reads =>
    let (count, mem) := if reos then readOnce mem reads else readAll len mem 0 reads
    if count < 0 then .error .readError
    else if count = 0 then .error .eof
    else .ok (count, mem)
  | .socket reads =>
    let (bc, mem) := readAll len mem 0 reads
    let count : Int := if bc < 0 then 1 else 0
    if count ≠ 0 then .error .readError
    else if count = 0 then .error .eof
    else .ok (count, mem)

/-! ## Messages -/

/-- A read of a message returns only with all of it, at the front of the buffer, and does not
return when the buffer is too small for it. -/
structure ReadsWhole (message : List UInt8) (len : Int) (result : Except Fatal (Int × Memory)) :
    Prop where
  /-- It returns the length of the message, which is what the buffer holds. -/
  whole : ∀ count mem, result = .ok (count, mem) →
    count = message.length ∧ mem.slice 0 message.length = message
  /-- A message longer than the buffer ends the program. -/
  fatal : len < message.length → ∃ fault, result = .error fault

/-- Each `ibrd` that goes well stores the next bytes of the message, as many as it is asked for at
most, and reports END exactly with its last byte. -/
def GpibDelivers : (message : List UInt8) → (room : Int) → List Ibrd → Prop
  | _, _, [] => True
  | message, room, x :: later => x.timo = false → x.err = false →
    ∃ rest, message = x.data ++ rest ∧ x.data.length ≤ room ∧ (x.fin = true ↔ rest = []) ∧
      (rest ≠ [] → x.data.length < room → GpibDelivers rest (room - x.data.length) later)

/-- `VXI11_REASON_CHR` -/
def reasonChr : Int32 := 2
/-- `VXI11_REASON_END` -/
def reasonEnd : Int32 := 4

/-- A reply flags the end of a message: by END, or by CHR when a terminator is enabled. -/
def Ended (v : Device) (r : DeviceReadResp) : Prop :=
  r.reason &&& reasonEnd ≠ 0 ∨ v.termCharSet = true ∧ r.reason &&& reasonChr ≠ 0

/-- Each reply that goes well carries the next bytes of the message, as many as it is asked for at
most, and flags the end exactly with its last byte; any other reason is that it carries as many
as it is asked for. -/
def Vxi11Delivers (v : Device) : (message : List UInt8) → (room : Int) → (tmout : UInt64) →
    List (Exchange DeviceReadResp) → Prop
  | _, _, _, [] => True
  | message, room, tmout, x :: later => ∀ r, x.reply = some r → r.error = 0 →
    ∃ rest, message = r.data ++ rest ∧ r.data.length ≤ room ∧ (Ended v r ↔ rest = []) ∧
      (r.reason ≠ 0 → rest = [] ∨ r.data.length = room) ∧
      (r.reason = 0 → r.data.length < room → x.elapsed ≠ tmout →
        Vxi11Delivers v rest (room - r.data.length) (tmout - x.elapsed) later)

/-- A device that sends a message in answer to a read of `len` bytes. -/
def SendsMessage (v : Device) (message : List UInt8) (len : Int) (peer : Peer DeviceReadResp) :
    Prop :=
  0 < len → peer.admits v → Vxi11Delivers v message len v.ioTimeout peer.exchanges

/-- Replies without error fill the room for them, and none before the last one gives a reason or
uses up the time exactly. -/
def FillsRoom : (room : Int) → (tmout : UInt64) → List (Exchange DeviceReadResp) → Prop
  | _, _, [] => False
  | room, tmout, x :: later => ∃ r, x.reply = some r ∧ r.error = 0 ∧
    (r.data.length = room ∨ r.data.length < room ∧ r.reason = 0 ∧ x.elapsed ≠ tmout ∧
      FillsRoom (room - r.data.length) (tmout - x.elapsed) later)

/-- The handle is open, no lock keeps the read out, the replies fill the buffer, and the lock is
given back. -/
def FillsBuffer (v : Device) (len : Int) (peer : Peer DeviceReadResp) : Prop :=
  (∃ core, Opened v core) ∧ peer.admits v ∧
    (len = 0 ∨ FillsRoom len v.ioTimeout peer.exchanges) ∧ peer.released v = 0

/-! ## GPIB -/

/-- What ends the program is no message cut short. -/
theorem readsWhole_error (message : List UInt8) (len : Int) (fault : Fatal) :
    ReadsWhole message len (.error fault) := by
  constructor
  · intro count mem returned
    cases returned
  · intro _
    exact ⟨fault, rfl⟩

/-- What returns with the whole message is as it should be. -/
theorem readsWhole_ok {message : List UInt8} {len : Int} {mem : Memory}
    (bytes : mem.slice 0 message.length = message) (fits : (message.length : Int) ≤ len) :
    ReadsWhole message len (.ok (message.length, mem)) := by
  constructor
  · intro count other returned
    cases returned
    exact ⟨rfl, bytes⟩
  · intro longer
    omega

/-- Bytes stored after those gathered are gathered with them. -/
theorem slice_gather {mem : Memory} {got : List UInt8} (bytes : mem.slice 0 got.length = got)
    (data : List UInt8) :
    (mem.memcpy got.length data).slice 0 (got ++ data).length = got ++ data := by
  rw [List.length_append, Memory.slice_add, Int.zero_add, Memory.slice_memcpy,
    Memory.slice_memcpy_before _ (by omega), bytes]

/-- The loop over `ibrd`, with some of the message in the buffer already, returns only with all of
it. -/
theorem ibrdLoop_readsWhole {message : List UInt8} {len : Int} (small : len ≤ intMax)
    {reads : List Ibrd} {mem : Memory} {got rest : List UInt8} (whole : message = got ++ rest)
    (fits : (got.length : Int) ≤ len) (bytes : mem.slice 0 got.length = got)
    (delivers : GpibDelivers rest (len - got.length) reads) :
    ReadsWhole message len (ibrdLoop len mem got.length reads) := by
  induction reads generalizing mem got rest with
  | nil => exact readsWhole_error _ _ _
  | cons x later ih =>
    rw [ibrdLoop]
    cases timo : x.timo with
    | true => exact readsWhole_error _ _ _
    | false =>
      cases err : x.err with
      | true => exact readsWhole_error _ _ _
      | false =>
        obtain ⟨left, next, room, ends, goesOn⟩ := delivers timo err
        have total : (got ++ x.data).length = got.length + x.data.length := List.length_append
        have same : toInt ((got.length : Int) + x.data.length) = (got ++ x.data).length := by
          rw [total, toInt_of_range (by omega) (by omega)]
          omega
        have gathered : (mem.memcpy got.length x.data).slice 0 (got ++ x.data).length =
            got ++ x.data := slice_gather bytes x.data
        have message_eq : message = (got ++ x.data) ++ left := by
          rw [whole, next, List.append_assoc]
        simp only [Bool.false_eq_true, if_false, same]
        cases fin : x.fin with
        | true =>
          have all : left = [] := ends.mp fin
          rw [all, List.append_nil] at message_eq
          rw [← message_eq] at gathered ⊢
          have inside : (message.length : Int) ≤ len := by
            rw [message_eq]
            omega
          simpa using readsWhole_ok gathered inside
        | false =>
          have more : left ≠ [] := fun none => by simp [ends.mpr none] at fin
          by_cases filled : ((got ++ x.data).length : Int) < len
          · simp only [filled, and_self, if_true]
            have within : (x.data.length : Int) < len - got.length := by omega
            have later := goesOn more within
            have remaining : len - got.length - x.data.length = len - (got ++ x.data).length := by
              omega
            rw [remaining] at later
            exact ih message_eq (by omega) gathered later
          · simp only [filled, false_and, if_false, Bool.false_eq_true]
            exact readsWhole_error _ _ _

/-! ## VXI-11 -/

/-- The variables of the loop of `vxi11_read` with some bytes gathered. -/
structure Gathered (len : Int) (got : List UInt8) (s : ReadState) : Prop where
  within : Within len s
  count : s.count = got.length
  bytes : s.mem.slice 0 got.length = got

/-- Data that fits the room is gathered. -/
theorem Gathered.body {len : Int} {got : List UInt8} {s : ReadState} (gathered : Gathered len got s)
    (v : Device) (core : Client) (small : len ≤ intMax) {x : Exchange DeviceReadResp}
    {r : DeviceReadResp} (reply : x.reply = some r) (success : r.error = 0)
    (fits : r.data.length ≤ s.len) :
    Gathered len (got ++ r.data) (readBody v core s x) := by
  have within : Within len (readBody v core s x) :=
    gathered.within.body v core small (by simpa [reply] using fits)
  have room := gathered.within.room
  have front := gathered.within.front
  have count := gathered.count
  have pointer : s.buf = got.length := gathered.within.count.symm.trans count
  refine ⟨within, ?_, ?_⟩
  · rw [readBody_success reply success]
    change toInt (s.count + r.data.length) = _
    rw [count, toInt_of_range (by omega) (by omega), List.length_append]
    omega
  · rw [readBody_success reply success]
    change (s.mem.memcpy s.buf r.data).slice 0 _ = _
    rw [pointer]
    exact slice_gather gathered.bytes r.data

/-- A reply that flags the end of a message gives a reason. -/
theorem Ended.reason {v : Device} {r : DeviceReadResp} (ended : Ended v r) : r.reason ≠ 0 := by
  intro none
  rcases ended with last | ⟨_, last⟩
  · rw [none] at last
    exact last (by decide)
  · rw [none] at last
    exact last (by decide)

/-- How the loop of `vxi11_read` ends with a message: without error it leaves the message, or as
much of it as fits, and for a message that does not fit that happens on a condition. -/
structure Reads (message : List UInt8) (len : Int) (last : ReadState) (fills : Prop) : Prop where
  gathered : last.res = 0 → ∃ front back, message = front ++ back ∧ Gathered len front last ∧
    (back = [] ∨ (front.length : Int) = len)
  fills : len < message.length → (last.res = 0 ↔ fills)

/-- It ends with an error. -/
theorem reads_failed {message : List UInt8} {len : Int} {last : ReadState} {fills : Prop}
    (failed : last.res ≠ 0) (short : ¬fills) : Reads message len last fills :=
  ⟨fun good => absurd good failed, fun _ => iff_of_false failed short⟩

/-- The replies from one that goes well on fill the room exactly when it does, or the later ones
fill what it leaves. -/
theorem fillsRoom_cons {room : Int} {tmout : UInt64} {x : Exchange DeviceReadResp}
    {later : List (Exchange DeviceReadResp)} {r : DeviceReadResp} (reply : x.reply = some r)
    (good : r.error = 0) :
    FillsRoom room tmout (x :: later) ↔ r.data.length = room ∨ r.data.length < room ∧
      r.reason = 0 ∧ x.elapsed ≠ tmout ∧
        FillsRoom (room - r.data.length) (tmout - x.elapsed) later := by
  simp [FillsRoom, reply, good]

section
variable {v : Device} {core : Client} {len : Int} {message got rest : List UInt8} {s : ReadState}
  {x : Exchange DeviceReadResp} {later : List (Exchange DeviceReadResp)}

/-- The variables after a reply that goes well and fits the room. -/
theorem Gathered.next (gathered : Gathered len got s) (v : Device) (core : Client)
    (small : len ≤ intMax) {r : DeviceReadResp} (reply : x.reply = some r) (good : r.error = 0)
    (fits : r.data.length ≤ s.len) :
    (readBody v core s x).len = s.len - r.data.length ∧
      (readBody v core s x).tmout = s.tmout - x.elapsed ∧
      (readBody v core s x).reason = r.reason.toInt ∧
      ((readBody v core s x).res = 0 ↔ ¬(r.data.length < s.len ∧ x.elapsed = s.tmout)) := by
  have room := gathered.within.room
  have front := gathered.within.front
  have same : toInt (s.len - r.data.length) = s.len - r.data.length :=
    toInt_of_range (by omega) (by omega)
  have time : s.tmout - x.elapsed = 0 ↔ x.elapsed = s.tmout := by rw [sub_eq_zero_iff, eq_comm]
  rw [readBody_success reply good, same]
  refine ⟨rfl, rfl, rfl, ?_⟩
  by_cases more : (r.data.length : Int) < s.len <;> by_cases used : x.elapsed = s.tmout <;>
    simp [more, used, time, errIotimeout]

/-- An error ends the loop. -/
theorem reads_error (running : (readLoop v core).running s = true)
    (error : (readBody v core s x).res ≠ 0) (short : ¬FillsRoom s.len s.tmout (x :: later)) :
    Reads message len ((readLoop v core).final s (x :: later))
      (FillsRoom s.len s.tmout (x :: later)) := by
  have stopped : (readLoop v core).running (readBody v core s x) = false := by
    simp [readLoop, error]
  rw [Loop.final_running running, List.headD_cons, List.tail_cons]
  change Reads message len ((readLoop v core).final (readBody v core s x) later) _
  rw [Loop.final_stopped stopped]
  exact reads_failed error short

/-- A reply ends the loop with the message, or with as much of it as fits. -/
theorem reads_stopped (running : (readLoop v core).running s = true)
    (stopped : (readLoop v core).running (readBody v core s x) = false)
    {front back : List UInt8} (body : Gathered len front (readBody v core s x))
    (split : message = front ++ back) (ends : back = [] ∨ (front.length : Int) = len)
    (fills : len < message.length →
      ((readBody v core s x).res = 0 ↔ FillsRoom s.len s.tmout (x :: later))) :
    Reads message len ((readLoop v core).final s (x :: later))
      (FillsRoom s.len s.tmout (x :: later)) := by
  rw [Loop.final_running running, List.headD_cons, List.tail_cons]
  change Reads message len ((readLoop v core).final (readBody v core s x) later) _
  rw [Loop.final_stopped stopped]
  exact ⟨fun _ => ⟨front, back, split, body, ends⟩, fills⟩

/-- An RPC that fails ends the loop with its error. -/
theorem reads_unanswered (running : (readLoop v core).running s = true)
    (failed : ∀ r, x.reply = some r → r.error ≠ 0) :
    Reads message len ((readLoop v core).final s (x :: later))
      (FillsRoom s.len s.tmout (x :: later)) := by
  have error : (readBody v core s x).res ≠ 0 := by
    cases reply : x.reply with
    | none =>
      rw [readBody_silent reply]
      exact (by decide : coreRpcerr ≠ 0)
    | some r =>
      rw [readBody_refused reply (failed r reply)]
      simpa using failed r reply
  apply reads_error running error
  intro fills
  have ⟨r, reply, good, _⟩ := fills
  exact failed r reply good

/-- Without any reply the loop ends with an error. -/
theorem reads_silent (running : (readLoop v core).running s = true) :
    Reads message len ((readLoop v core).final s []) (FillsRoom s.len s.tmout []) := by
  have failed : ((readLoop v core).final s []).res ≠ 0 := by
    rw [Loop.final_running running, List.headD_nil, List.tail_nil,
      Loop.final_stopped ((readLoop v core).silence_stops s)]
    change (readBody v core s .silence).res ≠ 0
    rw [readBody_silent rfl]
    exact (by decide : coreRpcerr ≠ 0)
  exact reads_failed failed id

/-- The loop goes on behind a reply that goes well while there is room and time left and the reply
gives no reason to end. -/
theorem Gathered.running_iff (gathered : Gathered len got s) (v : Device) (core : Client)
    (small : len ≤ intMax) {r : DeviceReadResp} (reply : x.reply = some r) (good : r.error = 0)
    (fits : r.data.length ≤ s.len) :
    (readLoop v core).running (readBody v core s x) = true ↔
      r.data.length < s.len ∧ x.elapsed ≠ s.tmout ∧ r.reason = 0 := by
  have ⟨len', _, reason', res'⟩ := gathered.next v core small reply good fits
  have condition : (readLoop v core).running (readBody v core s x) = true ↔
      (readBody v core s x).res = 0 ∧ 0 < s.len - r.data.length ∧ r.reason = 0 := by
    simp [readLoop, len', reason']
  rw [condition, res']
  constructor
  · rintro ⟨inTime, more, none⟩
    have less : (r.data.length : Int) < s.len := by omega
    exact ⟨less, fun used => inTime ⟨less, used⟩, none⟩
  · rintro ⟨less, inTime, none⟩
    exact ⟨fun both => inTime both.2, by omega, none⟩

/-- A reply that lets the loop go on leaves the end to the later ones. -/
theorem Gathered.reads_next (gathered : Gathered len got s) (small : len ≤ intMax)
    {r : DeviceReadResp} (reply : x.reply = some r) (good : r.error = 0)
    (running : (readLoop v core).running s = true) (less : r.data.length < s.len)
    (inTime : x.elapsed ≠ s.tmout) (none : r.reason = 0)
    (reads : Reads message len ((readLoop v core).final (readBody v core s x) later)
      (FillsRoom (readBody v core s x).len (readBody v core s x).tmout later)) :
    Reads message len ((readLoop v core).final s (x :: later))
      (FillsRoom s.len s.tmout (x :: later)) := by
  have ⟨len', tmout', _, _⟩ := gathered.next v core small reply good less.le
  have fills : FillsRoom s.len s.tmout (x :: later) ↔
      FillsRoom (readBody v core s x).len (readBody v core s x).tmout later := by
    rw [fillsRoom_cons reply good, len', tmout']
    simp [less, less.ne, none, inTime]
  rw [Loop.final_running running, List.headD_cons, List.tail_cons, fills]
  exact reads

/-- The loop, with some of the message in the buffer already. -/
theorem Gathered.final (small : len ≤ intMax) {exchanges : List (Exchange DeviceReadResp)}
    (gathered : Gathered len got s) (whole : message = got ++ rest)
    (running : (readLoop v core).running s = true)
    (delivers : Vxi11Delivers v rest s.len s.tmout exchanges) :
    Reads message len ((readLoop v core).final s exchanges)
      (FillsRoom s.len s.tmout exchanges) := by
  induction exchanges generalizing s got rest with
  | nil => exact reads_silent running
  | cons x later ih =>
    by_cases success : ∃ r, x.reply = some r ∧ r.error = 0
    · have ⟨r, reply, good⟩ := success
      have ⟨left, split, fits, ends, reasons, goesOn⟩ := delivers r reply good
      have body := gathered.body v core small reply good fits
      have ⟨len', tmout', _, res'⟩ := gathered.next v core small reply good fits
      have continues := gathered.running_iff v core small reply good fits
      have message_eq : message = (got ++ r.data) ++ left := by
        rw [whole, split, List.append_assoc]
      rcases Int.lt_or_eq_of_le fits with less | filled
      · by_cases reason : r.reason = 0
        · by_cases used : x.elapsed = s.tmout
          · -- Bytes are left and the time is used up.
            apply reads_error running (by simp [res', less, used])
            rw [fillsRoom_cons reply good]
            simp only [used, ne_eq, not_true, false_and, and_false, or_false]
            omega
          · have more := goesOn reason less used
            rw [← len', ← tmout'] at more
            have reads := ih body message_eq (continues.mpr ⟨less, used, reason⟩) more
            exact gathered.reads_next small reply good running less used reason reads
        · -- A reason other than a full buffer is the end of the message.
          have all : left = [] := (reasons reason).resolve_right (by omega)
          have stopped : (readLoop v core).running (readBody v core s x) = false := by
            rw [← Bool.not_eq_true, continues]
            exact fun still => reason still.2.2
          have within : ((got ++ r.data).length : Int) ≤ len := by
            have room := body.within.room
            have front := body.within.count.symm.trans body.count
            omega
          rw [all] at message_eq
          apply reads_stopped running stopped body message_eq (.inl rfl)
          intro longer
          rw [message_eq, List.append_nil] at longer
          omega
      · have stopped : (readLoop v core).running (readBody v core s x) = false := by
          rw [← Bool.not_eq_true, continues]
          omega
        have full : ((got ++ r.data).length : Int) = len := by
          have room := body.within.room
          have front := body.within.count.symm.trans body.count
          omega
        have error : (readBody v core s x).res = 0 := by
          rw [res']
          omega
        apply reads_stopped running stopped body message_eq (.inr full)
        intro _
        rw [fillsRoom_cons reply good]
        exact iff_of_true error (.inl filled)
    · have failed : ∀ r, x.reply = some r → r.error ≠ 0 :=
        fun r reply good => success ⟨r, reply, good⟩
      exact reads_unanswered running failed

end

section
variable {v : Device} {core : Client} {len : Int} {message : List UInt8}
  {peer : Peer DeviceReadResp}

/-- Before the loop nothing is gathered. -/
theorem gathered_start (v : Device) (mem : Memory) (nonneg : 0 ≤ len) :
    Gathered len [] (readStart v mem len) := ⟨within_start v mem nonneg, rfl, rfl⟩

/-- The loop of a call that no lock keeps out. -/
theorem reads_call (core : Client) (mem : Memory) (nonneg : 0 ≤ len) (small : len ≤ intMax)
    (admits : peer.admits v) (sends : SendsMessage v message len peer) :
    Reads message len ((readLoop v core).final (readStart v mem len) peer.exchanges)
      (len = 0 ∨ FillsRoom len v.ioTimeout peer.exchanges) := by
  have start : Gathered len [] (readStart v mem len) := gathered_start v mem nonneg
  rcases Int.lt_or_eq_of_le nonneg with positive | rfl
  · have running : (readLoop v core).running (readStart v mem len) = true := by
      simp [readLoop, readStart, positive]
    have reads : Reads message len _ (FillsRoom len v.ioTimeout peer.exchanges) :=
      start.final small rfl running (sends positive admits)
    have nonzero : ¬len = 0 := by omega
    simpa [nonzero] using reads
  · have stopped : (readLoop v core).running (readStart v mem 0) = false := by
      simp [readLoop, readStart]
    rw [Loop.final_stopped stopped]
    exact ⟨fun _ => ⟨[], message, rfl, start, .inr rfl⟩, fun _ => iff_of_true rfl (.inl rfl)⟩

/-- What a call that no lock keeps out gives. -/
theorem genericRead_admitted (opened : Opened v core) (admits : peer.admits v) (mem : Memory)
    (len : Int) :
    let last := (readLoop v core).final (readStart v mem len) peer.exchanges
    genericRead (.vxi11 v peer) mem len =
      if last.res = 0 ∧ peer.released v = 0 then .ok (last.count, last.mem)
      else .error (.vxi11 (if last.res = 0 then peer.released v else last.res)) := by
  simp only [genericRead, vxi11Read_eq opened admits]
  by_cases good : ((readLoop v core).final (readStart v mem len) peer.exchanges).res = 0 <;>
    by_cases freed : peer.released v = 0 <;> simp [good, freed]

/-- A call that no lock keeps out returns only with a whole message exactly when the message fits
the buffer, or the buffer is not filled without error. -/
theorem readsWhole_admitted (opened : Opened v core) (admits : peer.admits v) (mem : Memory)
    (nonneg : 0 ≤ len) (small : len ≤ intMax) (sends : SendsMessage v message len peer) :
    ReadsWhole message len (genericRead (.vxi11 v peer) mem len) ↔
      message.length ≤ len ∨ ¬FillsBuffer v len peer := by
  have reads := reads_call core mem nonneg small admits sends
  have fills : FillsBuffer v len peer ↔
      (len = 0 ∨ FillsRoom len v.ioTimeout peer.exchanges) ∧ peer.released v = 0 := by
    simp only [FillsBuffer, admits, true_and]
    exact and_iff_right ⟨core, opened⟩
  rw [genericRead_admitted opened admits mem len, fills]
  by_cases good : ((readLoop v core).final (readStart v mem len) peer.exchanges).res = 0 ∧
      peer.released v = 0
  · rw [if_pos good]
    have ⟨front, back, split, gathered, ends⟩ := reads.gathered good.1
    have total : message.length = front.length + back.length := by
      rw [split, List.length_append]
    by_cases fits : (message.length : Int) ≤ len
    · have all : back = [] := by
        cases ends with
        | inl none => exact none
        | inr full => exact List.length_eq_zero_iff.mp (by omega)
      rw [all, List.append_nil] at split
      subst split
      rw [gathered.count]
      exact iff_of_true (readsWhole_ok gathered.bytes fits) (.inl fits)
    · have filled := (reads.fills (by omega)).mp good.1
      apply iff_of_false
      · intro whole
        have ⟨fault, failed⟩ := whole.fatal (by omega)
        cases failed
      · rintro (short | unfilled)
        · exact fits short
        · exact unfilled ⟨filled, good.2⟩
  · rw [if_neg good]
    apply iff_of_true (readsWhole_error _ _ _)
    by_cases fits : (message.length : Int) ≤ len
    · exact .inl fits
    · right
      intro filled
      exact good ⟨(reads.fills (by omega)).mpr filled.1, filled.2⟩

/-- A call with an error gives no message. -/
theorem genericRead_vxi11_failed {mem : Memory} (failed : (vxi11Read v mem len peer).ret ≠ 0) :
    ReadsWhole message len (genericRead (.vxi11 v peer) mem len) := by
  have result : genericRead (.vxi11 v peer) mem len =
      .error (.vxi11 (vxi11Read v mem len peer).ret) := by
    simp [genericRead, failed]
  rw [result]
  exact readsWhole_error _ _ _

/-- A VXI-11 read returns only with a whole message exactly when the message fits the buffer, or
the buffer is not filled without error. -/
theorem genericRead_vxi11 (mem : Memory) (nonneg : 0 ≤ len) (small : len ≤ intMax)
    (sends : SendsMessage v message len peer) :
    ReadsWhole message len (genericRead (.vxi11 v peer) mem len) ↔
      message.length ≤ len ∨ ¬FillsBuffer v len peer := by
  by_cases opened : ∃ core, Opened v core
  · have ⟨core, there⟩ := opened
    by_cases admits : peer.admits v
    · exact readsWhole_admitted there admits mem nonneg small sends
    · have refused : (vxi11Read v mem len peer).ret ≠ 0 := (vxi11Read_refused there admits).1
      exact iff_of_true (genericRead_vxi11_failed refused) (.inr fun filled => admits filled.2.1)
  · have ⟨error, member, _, closed⟩ := vxi11Transfers_closed
      fun core there => opened ⟨core, there⟩
    have failed : (vxi11Read v mem len peer).ret ≠ 0 := by
      rw [closed]
      cases member with
      | head => exact (by decide : errNochan ≠ 0)
      | tail _ last =>
        rw [List.mem_singleton.mp last]
        exact (by decide : errLinkinval ≠ 0)
    exact iff_of_true (genericRead_vxi11_failed failed) (.inr fun filled => opened filled.1)

end

/-- Reads and messages: a GPIB read returns only with a whole message; a VXI-11 read does exactly
when the message fits the buffer, or the buffer is not filled without error. -/
theorem genericRead_boundaries (message : List UInt8) (mem : Memory) (len : Int) (nonneg : 0 ≤ len)
    (small : len ≤ intMax) :
    (∀ reads, GpibDelivers message len reads →
      ReadsWhole message len (genericRead (.gpib reads) mem len)) ∧
    ∀ v peer, SendsMessage v message len peer →
      (ReadsWhole message len (genericRead (.vxi11 v peer) mem len) ↔
        message.length ≤ len ∨ ¬FillsBuffer v len peer) := by
  constructor
  · intro reads delivers
    have inBuffer : (([] : List UInt8).length : Int) ≤ len := nonneg
    have room : len - (([] : List UInt8).length : Int) = len := Int.sub_zero len
    rw [← room] at delivers
    exact ibrdLoop_readsWhole small rfl inBuffer rfl delivers
  · intro v peer sends
    exact genericRead_vxi11 mem nonneg small sends

/-- A message of two bytes in a buffer of two, over both transports. -/
theorem genericRead_boundaries_two :
    let v := linked 1024
    let peer : Peer DeviceReadResp := ⟨none, [answer 4 [65, 66]], none⟩
    ReadsWhole [65, 66] 2 (genericRead (.gpib [⟨[65, 66], false, false, true⟩]) (.ofBytes []) 2) ∧
      ReadsWhole [65, 66] 2 (genericRead (.vxi11 v peer) (.ofBytes []) 2) := by
  have both := genericRead_boundaries [65, 66] (.ofBytes []) 2 (by decide) (by decide)
  constructor
  · exact both.1 _ (by simp [GpibDelivers])
  · apply (both.2 _ _ _).mpr (.inl (by decide))
    simp [SendsMessage, Vxi11Delivers, answer, Ended, reasonEnd]

/-- A message of three bytes read over VXI-11 into a buffer of two returns its first two, and the
next read returns the third. -/
theorem genericRead_cuts :
    let first : Peer DeviceReadResp := ⟨none, [answer 1 [65, 66]], none⟩
    let second : Peer DeviceReadResp := ⟨none, [answer 4 [67]], none⟩
    let bytes := fun peer => (genericRead (.vxi11 (linked 1024) peer) (.ofBytes []) 2).toOption.map
      fun read => read.2.slice 0 read.1.toNat
    SendsMessage (linked 1024) [65, 66, 67] 2 first ∧ SendsMessage (linked 1024) [67] 2 second ∧
      bytes first = some [65, 66] ∧ bytes second = some [67] ∧
      ¬ReadsWhole [65, 66, 67] 2 (genericRead (.vxi11 (linked 1024) first) (.ofBytes []) 2) := by
  have cut : (genericRead (.vxi11 (linked 1024) ⟨none, [answer 1 [65, 66]], none⟩)
      (.ofBytes []) 2).toOption.map (fun read => read.2.slice 0 read.1.toNat) =
        some [65, 66] := by decide
  have goesOn : ¬Ended (linked 1024) ⟨0, 1, [65, 66]⟩ := by
    simp only [Ended]
    decide
  refine ⟨?_, ?_, cut, by decide, ?_⟩
  · simp [SendsMessage, Vxi11Delivers, answer, goesOn]
  · simp [SendsMessage, Vxi11Delivers, answer, Ended, reasonEnd]
  · intro whole
    obtain ⟨fault, failed⟩ := whole.fatal (by decide)
    rw [failed] at cut
    cases cut

end GpibUtils.Inst
