import GpibUtils.CSem.Word
import GpibUtils.Vxi11.Rpc

/-!
# Wrappers of the core procedures

`vxi11_core.c`, one definition for each wrapper that `vxi11_device.c` calls on an open
channel. A wrapper fills in the parameters, makes the RPC, and copies what the reply holds
into the variables its caller passed by reference, before it looks at the error the reply
carries; with no reply the variables keep their values and the result is an RPC error. A
wrapper here takes the reply as its last argument and returns the RPC as sent, the result,
and the variables passed by reference.
-/

namespace GpibUtils.Vxi11

open CSem

/-- The result of a wrapper: the error of the reply, or `VXI11_CORE_RPCERR` without one. -/
def resultOf : Option DeviceError → Int
  | none => coreRpcerr
  | some error => error.toInt

/-- Variables that `vxi11_create_link` fills in. -/
structure LinkOut where
  lid : Int
  abortPort : UInt16
  maxRecvSize : UInt64

/-- `vxi11_create_link` -/
def vxi11CreateLink (core : Client) (clientId : Int) (lockDevice : Bool) (lockTimeout : UInt64)
    (device : List Char) (out : LinkOut) (reply : Option CreateLinkResp) : Rpc × Int × LinkOut :=
  (⟨core, .createLink ⟨clientId, lockDevice, lockTimeout, device⟩⟩,
    resultOf (reply.map (·.error)),
    match reply with
    | none => out
    | some r => ⟨r.lid, r.abortPort, r.maxRecvSize.toUInt64⟩)

/-- `vxi11_device_write`; the variable filled in is `*sizep`. -/
def vxi11DeviceWrite (core : Client) (lid : Int) (flags : Nat) (ioTimeout lockTimeout : UInt64)
    (dataVal dataLen : Int) (size : UInt64) (reply : Option DeviceWriteResp) :
    Rpc × Int × UInt64 :=
  (⟨core, .deviceWrite ⟨lid, ioTimeout, lockTimeout, flags, dataVal, dataLen⟩⟩,
    resultOf (reply.map (·.error)),
    match reply with
    | none => size
    | some r => r.size.toUInt64)

/-- Variables that `vxi11_device_read` fills in, and the memory it copies the data to. -/
structure ReadOut where
  reason : Int
  dataLen : Int
  mem : Memory

/-- `vxi11_device_read`; all the data of the reply is copied to `dataVal`, whatever
`requestSize` asked for. -/
def vxi11DeviceRead (core : Client) (lid : Int) (flags : Nat) (ioTimeout lockTimeout : UInt64)
    (termChar : Int) (dataVal : Int) (requestSize : UInt64) (out : ReadOut)
    (reply : Option DeviceReadResp) : Rpc × Int × ReadOut :=
  (⟨core, .deviceRead ⟨lid, requestSize, ioTimeout, lockTimeout, flags, toSChar termChar⟩⟩,
    resultOf (reply.map (·.error)),
    match reply with
    | none => out
    | some r => ⟨r.reason.toInt, toInt r.data.length, out.mem.memcpy dataVal r.data⟩)

/-- `vxi11_device_readstb`; the variable filled in is `*stbp`. -/
def vxi11DeviceReadstb (core : Client) (lid : Int) (flags : Nat) (ioTimeout lockTimeout : UInt64)
    (stb : UInt8) (reply : Option DeviceReadStbResp) : Rpc × Int × UInt8 :=
  (⟨core, .deviceReadstb ⟨lid, flags, lockTimeout, ioTimeout⟩⟩,
    resultOf (reply.map (·.error)),
    match reply with
    | none => stb
    | some r => r.stb)

/-- A wrapper whose reply is an error code and nothing else. -/
def plainWrapper (client : Client) (procedure : Procedure) (reply : Option DeviceError) :
    Rpc × Int :=
  (⟨client, procedure⟩, resultOf reply)

/-- `vxi11_device_trigger` -/
def vxi11DeviceTrigger (core : Client) (lid : Int) (flags : Nat)
    (ioTimeout lockTimeout : UInt64) : Option DeviceError → Rpc × Int :=
  plainWrapper core (.deviceTrigger ⟨lid, flags, lockTimeout, ioTimeout⟩)

/-- `vxi11_device_clear` -/
def vxi11DeviceClear (core : Client) (lid : Int) (flags : Nat)
    (ioTimeout lockTimeout : UInt64) : Option DeviceError → Rpc × Int :=
  plainWrapper core (.deviceClear ⟨lid, flags, lockTimeout, ioTimeout⟩)

/-- `vxi11_device_remote` -/
def vxi11DeviceRemote (core : Client) (lid : Int) (flags : Nat)
    (ioTimeout lockTimeout : UInt64) : Option DeviceError → Rpc × Int :=
  plainWrapper core (.deviceRemote ⟨lid, flags, lockTimeout, ioTimeout⟩)

/-- `vxi11_device_local` -/
def vxi11DeviceLocal (core : Client) (lid : Int) (flags : Nat)
    (ioTimeout lockTimeout : UInt64) : Option DeviceError → Rpc × Int :=
  plainWrapper core (.deviceLocal ⟨lid, flags, lockTimeout, ioTimeout⟩)

/-- `vxi11_device_lock` -/
def vxi11DeviceLock (core : Client) (lid : Int) (flags : Nat) (lockTimeout : UInt64) :
    Option DeviceError → Rpc × Int :=
  plainWrapper core (.deviceLock ⟨lid, flags, lockTimeout⟩)

/-- `vxi11_device_unlock` -/
def vxi11DeviceUnlock (core : Client) (lid : Int) : Option DeviceError → Rpc × Int :=
  plainWrapper core (.deviceUnlock lid)

/-- `vxi11_destroy_link` -/
def vxi11DestroyLink (core : Client) (lid : Int) : Option DeviceError → Rpc × Int :=
  plainWrapper core (.destroyLink lid)

/-- `vxi11_device_abort`; it goes out on the abort channel. -/
def vxi11DeviceAbort (abrt : Client) (lid : Int) : Option DeviceError → Rpc × Int :=
  plainWrapper abrt (.deviceAbort lid)

/-- A wrapper succeeds exactly when a reply without error came. -/
theorem resultOf_eq_zero {reply : Option DeviceError} : resultOf reply = 0 ↔ reply = some 0 := by
  cases reply with
  | none => simp [resultOf, coreRpcerr]
  | some error => simp [resultOf]

end GpibUtils.Vxi11
