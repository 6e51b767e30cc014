import GpibUtils.CSem.Inet
import GpibUtils.Settings

/-!
# The configuration interface of ICS instruments

An instrument keeps a configuration in memory, one in flash and its factory defaults. It is
configured by remote procedures, which act as `ics8000.x` says; `ics.c` has a function for each of
them, and they differ in the procedure and its argument only.
-/

namespace GpibUtils.Ics

open CSem Settings

/-- A procedure of `ics8000.x` that reads or writes one part of the configuration. -/
inductive Procedure where
  | interfaceName
  | commTimeout
  | hostname
  | staticIpMode
  | ipNumber
  | netmask
  | gateway
  | keepalive
  | gpibAddress
  | systemController
  | renMode
  deriving DecidableEq

/-- What the procedure reads or writes: bytes, or an unsigned number. -/
abbrev Procedure.Value : Procedure → Type
  | .interfaceName | .hostname => List Char
  | _ => UInt32

/-- The configurations of an instrument: `active`, `flash` and `factory`. -/
abbrev Device := Store Procedure Procedure.Value

/-- A call of a procedure that changes a configuration. -/
inductive Rpc where
  /-- A procedure with the action `ICS_WRITE`. -/
  | write (procedure : Procedure) (value : procedure.Value)
  | reloadConfig
  | reloadFactory
  | commitConfig
  | reboot

/-- What the comments of `ics8000.x` say of a procedure. -/
def Rpc.action : Rpc → Action Procedure Procedure.Value
  | .write procedure value => .set procedure value
  | .reloadConfig => .reload
  | .reloadFactory => .reset
  | .commitConfig => .commit
  | .reboot => .reload

/-- An instrument and the way to it: what a call answers, `none` when there is no answer and
otherwise the field `error`, and the configurations after it. A call that succeeds acts as the
comments say. -/
structure Server where
  serve : Device → Rpc → Option UInt32 × Device
  acts : ∀ device rpc, (serve device rpc).1 = some 0 → (serve device rpc).2 = device.act rpc.action
  /-- What `clnt_sperror` says of a call without an answer. -/
  sperror : List Char
  /-- The host of the client. -/
  host : Endian

/-- `ICS_ERROR_CLNT` -/
def icsErrorClnt : Int := -1
/-- `ICS_ERROR_PARAMETER` -/
def icsErrorParameter : Int := 5

/-- The table `errtab`. -/
def errtab : List (Int × String) :=
  [(0, "success"), (1, "syntax error"), (5, "parameter error"), (8, "unsupported function")]

/-- `_lookup_err` -/
def lookupErr (err : Int) : String := (errtab.lookup err).getD "unknown error"

variable (server : Server)

/-- `ics_strerror`, without the newline that `clnt_sperror` ends its text with. -/
def icsStrerror (err : Int) : List Char :=
  let desc :=
    if err = icsErrorClnt then ((server.sperror.dropWhile (· ≠ ':')).drop 1).dropWhile isSpace
    else (lookupErr err).toList
  let errstr := desc.take 127
  if errstr.getLast? = some '\n' then errstr.dropLast else errstr

/-- The body of the functions of `ics.c` that call a procedure and look at its error only: what
they return, and the configurations after them. -/
def ics (rpc : Rpc) (device : Device) : Int × Device :=
  let (r, device) := server.serve device rpc
  match r with
  | none => (icsErrorClnt, device)
  | some error => (error.toInt32.toInt, device)

/-- `_reverse` -/
def reverse (i : UInt32) : UInt32 :=
  (i &&& 0xff000000) >>> 24 ||| (i &&& 0x00ff0000) >>> 8 ||| (i &&& 0x0000ff00) <<< 8 |||
    (i &&& 0x000000ff) <<< 24

/-- `_str2ip` -/
def str2ip (host : Endian) (str : List Char) : Option UInt32 :=
  (inetAton host str).map fun address => host.net (reverse address)

/-- The functions of `ics.c` that write an address. -/
def icsSetAddress (rpc : UInt32 → Rpc) (ipstr : List Char) (device : Device) : Int × Device :=
  match str2ip server.host ipstr with
  | none => (icsErrorParameter, device)
  | some ip => ics server (rpc ip) device

/-- `ics_set_interface_name` -/
def icsSetInterfaceName (str : List Char) := ics server (.write .interfaceName str)
/-- `ics_set_comm_timeout` -/
def icsSetCommTimeout (timeout : UInt32) := ics server (.write .commTimeout timeout)
/-- `ics_set_hostname` -/
def icsSetHostname (name : List Char) := ics server (.write .hostname name)
/-- `ics_set_static_ip_mode` -/
def icsSetStaticIpMode (flag : UInt32) := ics server (.write .staticIpMode flag)
/-- `ics_set_ip_number` -/
def icsSetIpNumber (ipstr : List Char) := icsSetAddress server (.write .ipNumber) ipstr
/-- `ics_set_netmask` -/
def icsSetNetmask (ipstr : List Char) := icsSetAddress server (.write .netmask) ipstr
/-- `ics_set_gateway` -/
def icsSetGateway (ipstr : List Char) := icsSetAddress server (.write .gateway) ipstr
/-- `ics_set_keepalive` -/
def icsSetKeepalive (time : UInt32) := ics server (.write .keepalive time)
/-- `ics_set_gpib_address` -/
def icsSetGpibAddress (addr : UInt32) := ics server (.write .gpibAddress addr)
/-- `ics_set_system_controller` -/
def icsSetSystemController (flag : UInt32) := ics server (.write .systemController flag)
/-- `ics_set_ren_mode` -/
def icsSetRenMode (flag : UInt32) := ics server (.write .renMode flag)
/-- `ics_reload_config` -/
def icsReloadConfig := ics server .reloadConfig
/-- `ics_reload_factory` -/
def icsReloadFactory := ics server .reloadFactory
/-- `ics_commit_config` -/
def icsCommitConfig := ics server .commitConfig
/-- `ics_reboot` -/
def icsReboot := ics server .reboot

/-- A call that succeeds acts as the comments say. -/
theorem ics_succeeds {rpc : Rpc} {device : Device} (success : (ics server rpc device).1 = 0) :
    (ics server rpc device).2 = device.act rpc.action := by
  have acts := server.acts device rpc
  rw [ics] at success ⊢
  cases served : server.serve device rpc with
  | mk r after =>
    rw [served] at acts success
    cases r with
    | none => cases success
    | some error =>
      have zero := int32_toInt_eq_zero error.toInt32 |>.mp success
      have none : error = 0 := congrArg Int32.toUInt32 zero
      exact acts (congrArg some none)

/-- What comes of writing an address, by what its text says. -/
theorem icsSetAddress_eq (rpc : UInt32 → Rpc) (ipstr : List Char) (device : Device) :
    icsSetAddress server rpc ipstr device =
      (str2ip server.host ipstr).elim (icsErrorParameter, device)
        fun ip => ics server (rpc ip) device := by
  rw [icsSetAddress]
  cases str2ip server.host ipstr with
  | none => rfl
  | some ip => rfl

end GpibUtils.Ics
