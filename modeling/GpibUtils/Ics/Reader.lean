import GpibUtils.Ics.Client
import Mathlib.Data.List.TakeWhile

/-!
# Reading the configuration of ICS instruments

The procedures that write a part of the configuration read it with the action `ICS_READ`. The
functions of `ics.c` that do so differ in the procedure and in what they make of its answer: a
string ends at the first NUL of the bytes, and an address is turned into text the way it was turned
into a number, on hosts of either byte order (`str2ip_dotted`, `ip2str_wordOf`).
-/

namespace GpibUtils.Ics

open CSem Settings

/-- The answer to a question: the field `error`, and the value. -/
structure Resp (α : Type) where
  error : UInt32
  value : α

/-- An instrument that can be asked too; a question without an answer is answered `none`. -/
structure Reader extends Server where
  /-- A procedure with the action `ICS_READ`. -/
  read : Device → (procedure : Procedure) → Option (Resp procedure.Value)
  /-- The procedure `idn_string`, whose answer no configuration changes. -/
  idn : Option (Resp (List Char))

/-- The instrument stores what is written, and returns what it has stored. -/
structure Reader.Keeps (reader : Reader) : Prop where
  stores : ∀ device procedure value, (reader.serve device (.write procedure value)).1 = some 0
  returns : ∀ device procedure, reader.read device procedure = some ⟨0, device.active procedure⟩

/-- `_mkstr`, as a string: the bytes before the first NUL. -/
def mkstr (data : List Char) : List Char := data.takeWhile (· ≠ '\x00')

/-- `_ip2str` -/
def ip2str (host : Endian) (ip : UInt32) : List Char := inetNtoa host (reverse (host.net ip))

/-- The body of the functions of `ics.c` that ask for a value: the value, or what they return when
there is none. -/
def icsGet {α : Type} (r : Option (Resp α)) : Except Int α :=
  match r with
  | none => .error icsErrorClnt
  | some r => if r.error ≠ 0 then .error r.error.toInt32.toInt else .ok r.value

section

variable (reader : Reader) (device : Device)

/-- `ics_get_interface_name` -/
def icsGetInterfaceName := (icsGet (reader.read device .interfaceName)).map mkstr
/-- `ics_get_comm_timeout` -/
def icsGetCommTimeout : Except Int UInt32 := icsGet (reader.read device .commTimeout)
/-- `ics_get_hostname` -/
def icsGetHostname := (icsGet (reader.read device .hostname)).map mkstr
/-- `ics_get_static_ip_mode` -/
def icsGetStaticIpMode : Except Int UInt32 := icsGet (reader.read device .staticIpMode)
/-- `ics_get_ip_number` -/
def icsGetIpNumber := (icsGet (reader.read device .ipNumber)).map (ip2str reader.host)
/-- `ics_get_netmask` -/
def icsGetNetmask := (icsGet (reader.read device .netmask)).map (ip2str reader.host)
/-- `ics_get_gateway` -/
def icsGetGateway := (icsGet (reader.read device .gateway)).map (ip2str reader.host)
/-- `ics_get_keepalive` -/
def icsGetKeepalive : Except Int UInt32 := icsGet (reader.read device .keepalive)
/-- `ics_get_gpib_address` -/
def icsGetGpibAddress : Except Int UInt32 := icsGet (reader.read device .gpibAddress)
/-- `ics_get_system_controller` -/
def icsGetSystemController : Except Int UInt32 := icsGet (reader.read device .systemController)
/-- `ics_get_ren_mode` -/
def icsGetRenMode : Except Int UInt32 := icsGet (reader.read device .renMode)
/-- `ics_idn_string` -/
def icsIdnString := (icsGet reader.idn).map mkstr

end

/-- A string without a NUL is copied whole. -/
theorem mkstr_of_not_mem {str : List Char} (whole : '\x00' ∉ str) : mkstr str = str := by
  apply List.takeWhile_eq_self_iff.mpr
  intro c member
  have other : c ≠ '\x00' := fun same => whole (same ▸ member)
  exact decide_eq_true other

/-- `_reverse` is what `htonl` is on a host that has the lowest byte first. -/
theorem reverse_wordOf (a b c d : UInt8) : reverse (wordOf a b c d) = wordOf d c b a :=
  swapBytes_wordOf a b c d

/-- The number that is sent for an address has the bytes of the address, the first one lowest. -/
theorem str2ip_dotted (host : Endian) (a b c d : UInt8) :
    str2ip host (dotted a b c d) = some (wordOf d c b a) := by
  rw [str2ip, inetAton_dotted, Option.map_some]
  cases host with
  | little => simp only [Endian.net, swapBytes_wordOf, reverse_wordOf]
  | big => simp only [Endian.net, reverse_wordOf]

/-- Such a number is displayed as the address it was. -/
theorem ip2str_wordOf (host : Endian) (a b c d : UInt8) :
    ip2str host (wordOf d c b a) = dotted a b c d := by
  have network : reverse (host.net (wordOf d c b a)) = host.net (wordOf a b c d) := by
    cases host with
    | little => simp only [Endian.net, swapBytes_wordOf, reverse_wordOf]
    | big => simp only [Endian.net, reverse_wordOf]
  rw [ip2str, network, inetNtoa_wordOf]

/-- A value is returned as it was stored. -/
theorem Reader.Keeps.returned {reader : Reader} (keeps : reader.Keeps) (device : Device)
    (procedure : Procedure) :
    icsGet (reader.read device procedure) = .ok (device.active procedure) := by
  rw [keeps.returns]
  rfl

/-- A value that is written is stored. -/
theorem Reader.Keeps.stored {reader : Reader} (keeps : reader.Keeps) (device : Device)
    (procedure : Procedure) (value : procedure.Value) :
    ics reader.toServer (.write procedure value) device =
      (0, device.act (.set procedure value)) := by
  have stored := keeps.stores device procedure value
  have success : (ics reader.toServer (.write procedure value) device).1 = 0 := by
    simp only [ics, stored]
    rfl
  exact Prod.ext success (ics_succeeds reader.toServer success)

end GpibUtils.Ics
