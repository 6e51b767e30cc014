import GpibUtils.Vxi11.Core

/-!
# The VXI-11 device handle

`struct vxi11_device_struct` with the functions of `vxi11_device.c` that make one RPC or
none. Opening and closing a handle, and the two loops that move data, have modules of their
own. The assertion of the handle's magic number, with which every entry point begins, is kept
where a handle is destroyed; elsewhere a handle is a value of this type and so carries it.
-/

namespace GpibUtils.Vxi11

open CSem

/-- `VXI11_MAGIC` -/
def magic : Nat := 0x343422aa
/-- `VXI11_NOLID` -/
def nolid : Int := -1

/-- `struct vxi11_device_struct`, less the buffer of the last error text. -/
structure Device where
  magic : Nat
  devname : List Char
  core : Option Client
  abrt : Option Client
  lid : Int
  abortPort : UInt16
  termChar : Int
  termCharSet : Bool
  doEndw : Bool
  doLocking : Bool
  lockTimeout : UInt64
  ioTimeout : UInt64
  maxRecvSize : UInt64
  clientId : Int
  deriving DecidableEq

/-- `vxi11_create`, when memory is available. -/
def vxi11Create : Device where
  magic := magic
  devname := []
  core := none
  abrt := none
  lid := nolid
  abortPort := 0
  termChar := 0x0a
  termCharSet := false
  doEndw := true
  doLocking := false
  lockTimeout := 25000
  ioTimeout := 25000
  maxRecvSize := 0
  clientId := 0

/-- `vxi11_destroy`: the assertions it makes before it frees the handle; `none` is an abort of
the program. -/
def vxi11Destroy (v : Device) : Option Unit :=
  if v.magic = magic ∧ v.lid = nolid ∧ v.abrt = none ∧ v.core = none then some () else none

/-- Only a handle that is closed is freed. -/
theorem vxi11Destroy_closed {v : Device} (passes : vxi11Destroy v = some ()) :
    v.magic = magic ∧ v.lid = nolid ∧ v.abrt = none ∧ v.core = none := by
  by_contra failed
  simp [vxi11Destroy, failed] at passes

/-- A handle has an open core channel and a link. -/
structure Opened (v : Device) (core : Client) : Prop where
  /-- The channel. -/
  channel : v.core = some core
  /-- The link. -/
  link : v.lid ≠ nolid

/-- A handle as a successful open leaves it: fresh but for client 1, link 0 and the size of the
peer's buffer. -/
def linked (maxRecvSize : UInt64) : Device :=
  { vxi11Create with core := some 1, lid := 0, maxRecvSize }

/-- Such a handle is open. -/
theorem linked_opened (maxRecvSize : UInt64) : Opened (linked maxRecvSize) 1 :=
  ⟨rfl, show (0 : Int) ≠ -1 by decide⟩

/-- The checks with which every operation on the core channel begins. -/
def onCore (v : Device) (operation : Client → Int × List Rpc) : Int × List Rpc :=
  match v.core with
  | none => (errNochan, [])
  | some core => if v.lid = nolid then (errLinkinval, []) else operation core

/-- On an open handle the checks pass. -/
theorem onCore_opened {v : Device} {core : Client} (opened : Opened v core)
    (operation : Client → Int × List Rpc) : onCore v operation = operation core := by
  simp [onCore, opened.channel, opened.link]

/-- The flags of an operation that waits for a lock when locking is on. -/
def waitlockFlags (v : Device) : Nat := if v.doLocking then flagWaitlock else 0

/-- An operation that makes one RPC with the generic parameters. -/
def generic (v : Device)
    (wrapper : Client → Int → Nat → UInt64 → UInt64 → Option DeviceError → Rpc × Int)
    (reply : Option DeviceError) : Int × List Rpc :=
  onCore v fun core =>
    let (rpc, res) := wrapper core v.lid (waitlockFlags v) v.ioTimeout v.lockTimeout reply
    (res, [rpc])

/-- `vxi11_trigger` -/
def vxi11Trigger (v : Device) : Option DeviceError → Int × List Rpc := generic v vxi11DeviceTrigger

/-- `vxi11_clear` -/
def vxi11Clear (v : Device) : Option DeviceError → Int × List Rpc := generic v vxi11DeviceClear

/-- `vxi11_remote` -/
def vxi11Remote (v : Device) : Option DeviceError → Int × List Rpc := generic v vxi11DeviceRemote

/-- `vxi11_local` -/
def vxi11Local (v : Device) : Option DeviceError → Int × List Rpc := generic v vxi11DeviceLocal

/-- `vxi11_readstb`; the status byte is stored whenever a reply came. -/
def vxi11Readstb (v : Device) (stb : UInt8) (reply : Option DeviceReadStbResp) :
    Int × List Rpc × UInt8 :=
  match v.core with
  | none => (errNochan, [], stb)
  | some core =>
    if v.lid = nolid then (errLinkinval, [], stb)
    else
      let (rpc, res, stb) :=
        vxi11DeviceReadstb core v.lid (waitlockFlags v) v.ioTimeout v.lockTimeout stb reply
      (res, [rpc], stb)

/-- `vxi11_lock` -/
def vxi11Lock (v : Device) (reply : Option DeviceError) : Int × List Rpc :=
  onCore v fun core =>
    let (rpc, res) := vxi11DeviceLock core v.lid (waitlockFlags v) v.lockTimeout reply
    (res, [rpc])

/-- `vxi11_unlock` -/
def vxi11Unlock (v : Device) (reply : Option DeviceError) : Int × List Rpc :=
  onCore v fun core =>
    let (rpc, res) := vxi11DeviceUnlock core v.lid reply
    (res, [rpc])

/-- `vxi11_abort` -/
def vxi11Abort (v : Device) (reply : Option DeviceError) : Int × List Rpc :=
  match v.abrt with
  | none => (errNochan, [])
  | some abrt =>
    if v.lid = nolid then (errLinkinval, [])
    else
      let (rpc, res) := vxi11DeviceAbort abrt v.lid reply
      (res, [rpc])

/-- `vxi11_set_iotimeout`; the RPC library is told as well when a channel is open. -/
def vxi11SetIotimeout (v : Device) (timeout : UInt64) : Device := { v with ioTimeout := timeout }

/-- `vxi11_set_lockpolicy` -/
def vxi11SetLockpolicy (v : Device) (doLocking : Bool) (timeout : UInt64) : Device :=
  { v with doLocking, lockTimeout := timeout }

/-- `vxi11_set_termchar` -/
def vxi11SetTermchar (v : Device) (termChar : Int) : Device := { v with termChar }

/-- `vxi11_set_termcharset` -/
def vxi11SetTermcharset (v : Device) (termCharSet : Bool) : Device := { v with termCharSet }

/-- `vxi11_set_endw` -/
def vxi11SetEndw (v : Device) (doEndw : Bool) : Device := { v with doEndw }

/-! ## Clocks -/

/-- `struct timeval` -/
structure Timeval where
  sec : Int
  usec : Int
  deriving DecidableEq

/-- `_timersubms`: milliseconds from `b` to `a`. -/
def timersubms (a b : Timeval) : UInt64 :=
  let sec := a.sec - b.sec
  let usec := a.usec - b.usec
  if usec < 0 then toULong ((usec + 1000000).tdiv 1000 + (sec - 1) * 1000)
  else toULong (usec.tdiv 1000 + sec * 1000)

/-- One RPC of a transfer as the caller sees it: the clock read before and after it, and the
reply. -/
structure Exchange (ρ : Type) where
  /-- `t1` -/
  before : Timeval
  /-- `t2` -/
  after : Timeval
  /-- The reply, if one came. -/
  reply : Option ρ

/-- Milliseconds measured for an RPC. -/
def Exchange.elapsed {ρ : Type} (exchange : Exchange ρ) : UInt64 :=
  timersubms exchange.after exchange.before

/-- An RPC that gets no reply. -/
def Exchange.silence {ρ : Type} : Exchange ρ := ⟨⟨0, 0⟩, ⟨0, 0⟩, none⟩

/-- What the peer does during one call of `vxi11_write` or `vxi11_read`: its replies to the
lock, to the data RPCs in order, and to the unlock. After the data RPCs listed it is silent. -/
structure Peer (ρ : Type) where
  /-- Reply to `device_lock`. -/
  lock : Option DeviceError
  /-- The data RPCs. -/
  exchanges : List (Exchange ρ)
  /-- Reply to `device_unlock`. -/
  unlock : Option DeviceError

/-- No lock stands in the way of the data RPCs: none is taken, or it was granted. -/
def Peer.admits {ρ : Type} (peer : Peer ρ) (v : Device) : Prop :=
  v.doLocking = true → peer.lock = some 0

instance {ρ : Type} (peer : Peer ρ) (v : Device) : Decidable (peer.admits v) :=
  inferInstanceAs (Decidable (_ → _))

/-- What a transfer that went well returns: the error of the unlock, if one was needed. -/
def Peer.released {ρ : Type} (peer : Peer ρ) (v : Device) : Int :=
  if v.doLocking then resultOf peer.unlock else 0

/-- The frame of `vxi11_write` and `vxi11_read`: take the lock if locking is on, run the data
RPCs, give the lock back; an error of the data RPCs goes before one of the unlock. The data
RPCs are given by the error they end with and the RPCs made. -/
def bracketed {ρ : Type} (v : Device) (peer : Peer ρ) (data : Int × List Rpc) : Int × List Rpc :=
  if v.doLocking then
    let (lres, locking) := vxi11Lock v peer.lock
    if lres ≠ 0 then (lres, locking)
    else
      let (res, rpcs) := data
      let (lres, unlocking) := vxi11Unlock v peer.unlock
      (if lres ≠ 0 ∧ res = 0 then lres else res, locking ++ rpcs ++ unlocking)
  else data

/-- On an open handle the lock is taken exactly when the device grants it. -/
theorem vxi11Lock_eq_zero {v : Device} {core : Client} (opened : Opened v core)
    {reply : Option DeviceError} : (vxi11Lock v reply).1 = 0 ↔ reply = some 0 := by
  simp [vxi11Lock, onCore_opened opened, vxi11DeviceLock, plainWrapper, resultOf_eq_zero]

/-- On an open handle that is not kept out by a lock, the error of the data RPCs is returned,
else that of the unlock. -/
theorem bracketed_ret {ρ : Type} {v : Device} {core : Client} (opened : Opened v core)
    {peer : Peer ρ} (admits : peer.admits v) (data : Int × List Rpc) :
    (bracketed v peer data).1 = if data.1 = 0 then peer.released v else data.1 := by
  cases locking : v.doLocking with
  | false => by_cases ok : data.1 = 0 <;> simp [bracketed, Peer.released, locking, ok]
  | true =>
    have granted := (vxi11Lock_eq_zero opened).mpr (admits locking)
    have unlocked : (vxi11Unlock v peer.unlock).1 = resultOf peer.unlock := by
      simp [vxi11Unlock, onCore_opened opened, vxi11DeviceUnlock, plainWrapper]
    by_cases ok : data.1 = 0
    · by_cases freed : resultOf peer.unlock = 0 <;>
        simp [bracketed, Peer.released, locking, granted, unlocked, ok, freed]
    · simp [bracketed, locking, granted, ok]

/-- On an open handle that is not kept out by a lock, the data RPCs stand between the lock and
the unlock. -/
theorem bracketed_rpcs {ρ : Type} {v : Device} {core : Client} (opened : Opened v core)
    {peer : Peer ρ} (admits : peer.admits v) (data : Int × List Rpc) :
    (bracketed v peer data).2 = (if v.doLocking then (vxi11Lock v peer.lock).2 else []) ++
      data.2 ++ (if v.doLocking then (vxi11Unlock v peer.unlock).2 else []) := by
  cases locking : v.doLocking with
  | false => simp [bracketed, locking]
  | true =>
    have granted := (vxi11Lock_eq_zero opened).mpr (admits locking)
    simp [bracketed, locking, granted]

/-- A lock that is refused keeps every data RPC from being made. -/
theorem bracketed_refused {ρ : Type} {v : Device} {core : Client} (opened : Opened v core)
    {peer : Peer ρ} (refused : ¬peer.admits v) (data : Int × List Rpc) :
    (bracketed v peer data).1 ≠ 0 ∧ (bracketed v peer data).2 = (vxi11Lock v peer.lock).2 := by
  simp only [Peer.admits, Classical.not_imp] at refused
  have failed : ¬(vxi11Lock v peer.lock).1 = 0 := mt (vxi11Lock_eq_zero opened).mp refused.2
  simp [bracketed, refused.1, failed]

/-- Among the RPCs of a call on an open handle those of one kind are the data RPCs of that kind,
when neither the lock nor the unlock is of it; there are none when the lock keeps them from being
made. -/
theorem bracketed_filterMap {ρ α : Type} {v : Device} {core : Client} (opened : Opened v core)
    (peer : Peer ρ) {kind : Rpc → Option α}
    (locks : kind ⟨core, .deviceLock ⟨v.lid, waitlockFlags v, v.lockTimeout⟩⟩ = none)
    (unlocks : kind ⟨core, .deviceUnlock v.lid⟩ = none) (data : Int × List Rpc) :
    (bracketed v peer data).2.filterMap kind =
      if peer.admits v then data.2.filterMap kind else [] := by
  have locked : (vxi11Lock v peer.lock).2.filterMap kind = [] := by
    simp [vxi11Lock, onCore_opened opened, vxi11DeviceLock, plainWrapper, locks]
  have unlocked : (vxi11Unlock v peer.unlock).2.filterMap kind = [] := by
    simp [vxi11Unlock, onCore_opened opened, vxi11DeviceUnlock, plainWrapper, unlocks]
  by_cases admits : peer.admits v
  · rw [if_pos admits, bracketed_rpcs opened admits]
    cases v.doLocking <;> simp [locked, unlocked]
  · rw [if_neg admits, (bracketed_refused opened admits data).2, locked]

end GpibUtils.Vxi11
