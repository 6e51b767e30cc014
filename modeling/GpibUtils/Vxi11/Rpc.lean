import GpibUtils.CSem.Memory

/-!
# VXI-11 remote procedures

The constants of `vxi11.x` and `vxi11_core.h`, and the parameters and replies of the remote
procedures that `vxi11_device.c` uses. Replies carry the widths of the wire: a `long` is 32 bits
there, so a reply is `Int32`, `UInt32` or `UInt16`, whatever the caller stores it in. Only a link is
stored in a `long`, and whether its sign is kept is up to the RPC library, so a reply carries the
`long`. A procedure that gets no reply, or one that cannot be decoded, returns no reply at all.

A pointer is an offset into the memory of the caller's buffer; a `CLIENT *` is a number.
-/

namespace GpibUtils.Vxi11

/-- A `CLIENT *` of the RPC library. -/
abbrev Client := Nat

/-! ## Flags -/

/-- `VXI11_FLAG_WAITLOCK` -/
def flagWaitlock : Nat := 0x01
/-- `VXI11_FLAG_ENDW` -/
def flagEndw : Nat := 0x08
/-- `VXI11_FLAG_TERMCHRSET` -/
def flagTermchrset : Nat := 0x80

/-! ## Error codes: zero, below zero for RPC errors, above zero for errors of the device -/

/-- `VXI11_ABRT_CREATE` -/
def abrtCreate : Int := -4
/-- `VXI11_CORE_CREATE` -/
def coreCreate : Int := -3
/-- `VXI11_ABRT_RPCERR` -/
def abrtRpcerr : Int := -2
/-- `VXI11_CORE_RPCERR` -/
def coreRpcerr : Int := -1
/-- `VXI11_ERR_LINKINVAL` -/
def errLinkinval : Int := 4
/-- `VXI11_ERR_NOCHAN` -/
def errNochan : Int := 6
/-- `VXI11_ERR_IOTIMEOUT` -/
def errIotimeout : Int := 15

/-! ## Parameters and replies -/

/-- `Create_LinkParms` -/
structure CreateLinkParms where
  clientId : Int
  lockDevice : Bool
  lockTimeout : UInt64
  device : List Char
  deriving DecidableEq

/-- `Create_LinkResp`; `lid` is the `long` that the RPC library has made of the 32 bits that came,
with whichever sign. -/
structure CreateLinkResp where
  error : Int32
  lid : Int
  abortPort : UInt16
  maxRecvSize : UInt32
  deriving DecidableEq

/-- `Device_WriteParms`; the data is the region of `dataLen` bytes at `dataVal`. -/
structure DeviceWriteParms where
  lid : Int
  ioTimeout : UInt64
  lockTimeout : UInt64
  flags : Nat
  dataVal : Int
  dataLen : Int
  deriving DecidableEq

/-- `Device_WriteResp` -/
structure DeviceWriteResp where
  error : Int32
  size : UInt32
  deriving DecidableEq

/-- `Device_ReadParms` -/
structure DeviceReadParms where
  lid : Int
  requestSize : UInt64
  ioTimeout : UInt64
  lockTimeout : UInt64
  flags : Nat
  termChar : Int
  deriving DecidableEq

/-- `Device_ReadResp` -/
structure DeviceReadResp where
  error : Int32
  reason : Int32
  data : List UInt8
  deriving DecidableEq

/-- `Device_GenericParms` -/
structure DeviceGenericParms where
  lid : Int
  flags : Nat
  lockTimeout : UInt64
  ioTimeout : UInt64
  deriving DecidableEq

/-- `Device_LockParms` -/
structure DeviceLockParms where
  lid : Int
  flags : Nat
  lockTimeout : UInt64
  deriving DecidableEq

/-- `Device_ReadStbResp` -/
structure DeviceReadStbResp where
  error : Int32
  stb : UInt8
  deriving DecidableEq

/-- `Device_Error` -/
abbrev DeviceError := Int32

/-- A remote procedure with its parameters. -/
inductive Procedure where
  | createLink (parms : CreateLinkParms)
  | deviceWrite (parms : DeviceWriteParms)
  | deviceRead (parms : DeviceReadParms)
  | deviceReadstb (parms : DeviceGenericParms)
  | deviceTrigger (parms : DeviceGenericParms)
  | deviceClear (parms : DeviceGenericParms)
  | deviceRemote (parms : DeviceGenericParms)
  | deviceLocal (parms : DeviceGenericParms)
  | deviceLock (parms : DeviceLockParms)
  | deviceUnlock (lid : Int)
  | destroyLink (lid : Int)
  | deviceAbort (lid : Int)
  deriving DecidableEq

/-- One RPC as sent: the client it goes out on and the procedure. -/
structure Rpc where
  client : Client
  procedure : Procedure
  deriving DecidableEq

/-- The parameters of a `device_write`. -/
def Rpc.writeParms (rpc : Rpc) : Option DeviceWriteParms :=
  match rpc.procedure with
  | .deviceWrite parms => some parms
  | _ => none

/-- The parameters of a `device_read`. -/
def Rpc.readParms (rpc : Rpc) : Option DeviceReadParms :=
  match rpc.procedure with
  | .deviceRead parms => some parms
  | _ => none

end GpibUtils.Vxi11
