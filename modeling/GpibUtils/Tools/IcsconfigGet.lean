import GpibUtils.Ics.Reader
import GpibUtils.Tools.Icsconfig

/-!
# Displaying attributes with icsconfig

`icsconfig get` prints attributes in a column of names and a column of values. What `set` reads and
what `get` prints are two maps between texts and values, one each for every writable attribute;
they are inverse to each other on the texts that `get` prints, so that a value that was set is
displayed, and the display of every other attribute stays as it was (`set_get`).
-/

namespace GpibUtils.Icsconfig

open CSem Settings Ics

/-! ## The code -/

/-- `ICS_ERROR_UNSUPPORTED` -/
def icsErrorUnsupported : Int := 8

/-- A name as `%-20s` prints it. -/
def column (name : List Char) : List Char := name ++ List.replicate (20 - name.length) ' '

/-- A mode as text, when zero and other numbers are called so. -/
def modeText (zero other : String) (mode : UInt32) : List Char :=
  if mode = 0 then zero.toList else other.toList

/-- A number as `%u` prints it. -/
def unsigned (n : UInt32) : List Char := decimalText n.toNat

variable (reader : Reader)

/-- The chain of comparisons in `_print_attribute`: the text of a value, or what the function of
`ics.c` has returned when there is none. -/
def valueText (device : Device) (name : List Char) : Except Int (List Char) :=
  if name = "ident".toList then icsIdnString reader
  else if name = "timeout".toList then (icsGetCommTimeout reader device).map unsigned
  else if name = "enable-dhcp".toList then
    (icsGetStaticIpMode reader device).map (modeText "yes" "no")
  else if name = "ip-address".toList then icsGetIpNumber reader device
  else if name = "ip-netmask".toList then icsGetNetmask reader device
  else if name = "ip-gateway".toList then icsGetGateway reader device
  else if name = "hostname".toList then icsGetHostname reader device
  else if name = "keepalive".toList then (icsGetKeepalive reader device).map unsigned
  else if name = "vxi11-interface".toList then icsGetInterfaceName reader device
  else if name = "gpib-address".toList then (icsGetGpibAddress reader device).map unsigned
  else if name = "gpib-controller".toList then
    (icsGetSystemController reader device).map (modeText "no" "yes")
  else if name = "gpib-ren-enable".toList then
    (icsGetRenMode reader device).map (modeText "no" "yes")
  else .ok "?".toList

/-- `_print_attribute` -/
def printAttribute (device : Device) (name : List Char) : List Char :=
  column name ++
    match valueText reader device name with
    | .ok text => text ++ ['\n']
    | .error rc =>
      if rc = icsErrorUnsupported then "n/a\n".toList
      else icsStrerror reader.toServer rc ++ ['\n']

/-- `_get`: what is printed, or `none` when it ends at `_usage`. -/
def get (argv : List (List Char)) (device : Device) : Option (List Char) :=
  if argv.length < 1 then none else some (argv.flatMap (printAttribute reader device))

/-! ## Texts and values -/

/-- The texts of the values of a part of the configuration. -/
def Canonical (text : List Char) : Procedure → Prop
  | .commTimeout | .keepalive | .gpibAddress => ∃ n < 2 ^ 32, text = decimalText n
  | .staticIpMode | .systemController | .renMode => text = "yes".toList ∨ text = "no".toList
  | .ipNumber | .netmask | .gateway => ∃ a b c d, text = dotted a b c d
  | .hostname | .interfaceName => '\x00' ∉ text

/-- The text that a value is displayed as. -/
def display (host : Endian) : (procedure : Procedure) → procedure.Value → List Char
  | .commTimeout => unsigned
  | .keepalive => unsigned
  | .gpibAddress => unsigned
  | .staticIpMode => modeText "yes" "no"
  | .systemController => modeText "no" "yes"
  | .renMode => modeText "no" "yes"
  | .ipNumber => ip2str host
  | .netmask => ip2str host
  | .gateway => ip2str host
  | .hostname => mkstr
  | .interfaceName => mkstr

/-- A number that fits the word of a value is displayed whole. -/
theorem unsigned_ofNat {n : Nat} (small : n < 2 ^ 32) :
    unsigned (UInt64.ofNat n).toUInt32 = decimalText n := by
  have value : (UInt64.ofNat n).toUInt32.toNat = n := by
    rw [UInt64.toNat_toUInt32, UInt64.toNat_ofNat']
    omega
  rw [unsigned, value]

/-- A number is displayed as it was read in base ten. -/
theorem unsigned_strtoul {n : Nat} (small : n < 2 ^ 32) :
    unsigned (strtoul (decimalText n)).1.toUInt32 = decimalText n := by
  rw [strtoul_decimalText (by omega), unsigned_ofNat small]

/-- A number is displayed as it was read in base zero. -/
theorem unsigned_strtoul0 {n : Nat} (small : n < 2 ^ 32) :
    unsigned (strtoul0 (decimalText n)).1.toUInt32 = decimalText n := by
  have read := @strtoul0_decimalText n [] (by omega) (by simp)
  rw [List.append_nil] at read
  rw [read, unsigned_ofNat small]

/-- A value is displayed as the text that it was set by. -/
theorem display_meaning (host : Endian) {text : List Char} {procedure : Procedure}
    (canonical : Canonical text procedure) :
    ∃ value, meaning host text procedure = some value ∧ display host procedure value = text := by
  cases procedure with
  | commTimeout | keepalive =>
    have ⟨n, small, same⟩ := canonical
    subst same
    exact ⟨_, rfl, unsigned_strtoul small⟩
  | gpibAddress =>
    have ⟨n, small, same⟩ := canonical
    subst same
    exact ⟨_, rfl, unsigned_strtoul0 small⟩
  | staticIpMode | systemController | renMode =>
    cases canonical with
    | inl yes => exact ⟨_, rfl, yes ▸ rfl⟩
    | inr no => exact ⟨_, rfl, no ▸ rfl⟩
  | ipNumber | netmask | gateway =>
    have ⟨a, b, c, d, same⟩ := canonical
    subst same
    exact ⟨wordOf d c b a, str2ip_dotted host a b c d, ip2str_wordOf host a b c d⟩
  | hostname | interfaceName => exact ⟨text, rfl, mkstr_of_not_mem canonical⟩

variable {reader}

/-- What is printed of a writable attribute is the text of the value that is read. -/
theorem valueText_writable {name : List Char} {procedure : Procedure}
    (named : writable.lookup name = some procedure) (device : Device) :
    valueText reader device name =
      (icsGet (reader.read device procedure)).map (display reader.host procedure) := by
  have same := eq_attributeName named
  subst same
  cases procedure with
  | interfaceName | commTimeout | hostname | staticIpMode | ipNumber | netmask | gateway
  | keepalive | gpibAddress | systemController | renMode => rfl

/-- What is printed of another name is no part of the configuration. -/
theorem valueText_other {name : List Char} (unnamed : writable.lookup name = none)
    (device : Device) :
    valueText reader device name =
      if name = "ident".toList then icsIdnString reader else .ok "?".toList := by
  have other (procedure : Procedure) (text : String)
      (called : attributeName procedure = text.toList) : ¬name = text.toList := by
    intro same
    rw [same, ← called] at unnamed
    cases procedure <;> cases unnamed
  rw [valueText, if_neg (other .commTimeout "timeout" rfl),
    if_neg (other .staticIpMode "enable-dhcp" rfl), if_neg (other .ipNumber "ip-address" rfl),
    if_neg (other .netmask "ip-netmask" rfl), if_neg (other .gateway "ip-gateway" rfl),
    if_neg (other .hostname "hostname" rfl), if_neg (other .keepalive "keepalive" rfl),
    if_neg (other .interfaceName "vxi11-interface" rfl),
    if_neg (other .gpibAddress "gpib-address" rfl),
    if_neg (other .systemController "gpib-controller" rfl),
    if_neg (other .renMode "gpib-ren-enable" rfl)]

/-! ## Setting and displaying -/

/-- Both ways to write the arguments of `set` say the same. -/
theorem nameValue_form {name value : List Char} {procedure : Procedure}
    (named : writable.lookup name = some procedure) {argv : List (List Char)}
    (form : argv = [name ++ '=' :: value] ∨ argv = [name, value]) :
    nameValue argv = some (name, value) := by
  cases form with
  | inl joined =>
    have free : (attributeName procedure).all (· ≠ '=') = true := by
      cases procedure <;> rfl
    have free : ∀ c ∈ name, decide (c ≠ '=') = true :=
      List.all_eq_true.mp (eq_attributeName named ▸ free)
    rw [joined, nameValue, if_pos (List.mem_append_right _ List.mem_cons_self),
      List.takeWhile_append_of_pos free, List.dropWhile_append_of_pos free]
    simp
  | inr apart => rw [apart, nameValue]

/-- The attributes that are addresses, and the calls that write them. -/
def addresses : List (List Char × (UInt32 → Rpc)) :=
  [("ip-address".toList, .write .ipNumber), ("ip-netmask".toList, .write .netmask),
    ("ip-gateway".toList, .write .gateway)]

/-- Setting an attribute calls its procedure with what the value says. -/
theorem set_writes {server : Server} {name value : List Char} {procedure : Procedure}
    (named : writable.lookup name = some procedure) {argv : List (List Char)}
    (form : argv = [name ++ '=' :: value] ∨ argv = [name, value]) {word : procedure.Value}
    (means : meaning server.host value procedure = some word) (device : Device) :
    ∃ reply, set server argv device = some reply ∧
      (reply.rc, reply.device) = ics server (.write procedure word) device := by
  have assigned : assign server name value device =
      ("", ics server (.write procedure word) device) := by
    rw [assign_eq named, means, Option.elim_some]
  rw [set, nameValue_form named form, Option.map_some]
  dsimp only
  rw [assigned]
  exact ⟨_, rfl, rfl⟩

/-- Setting an address calls its procedure with the number that has the first byte lowest. -/
theorem set_address {server : Server} {name : List Char} {rpc : UInt32 → Rpc}
    (address : (name, rpc) ∈ addresses) {a b c d : UInt8} {argv : List (List Char)}
    (form : argv = [name ++ '=' :: dotted a b c d] ∨ argv = [name, dotted a b c d])
    (device : Device) :
    ∃ reply, set server argv device = some reply ∧
      (reply.rc, reply.device) = ics server (rpc (wordOf d c b a)) device := by
  have means := str2ip_dotted server.host a b c d
  simp only [addresses, List.mem_cons, Prod.mk.injEq, List.not_mem_nil, or_false] at address
  rcases address with ⟨named, written⟩ | ⟨named, written⟩ | ⟨named, written⟩
  · rw [written]
    exact @set_writes server name _ .ipNumber (named ▸ rfl) argv form _ means device
  · rw [written]
    exact @set_writes server name _ .netmask (named ▸ rfl) argv form _ means device
  · rw [written]
    exact @set_writes server name _ .gateway (named ▸ rfl) argv form _ means device

/-- What `get` prints of one name. -/
theorem get_single (name : List Char) (device : Device) :
    get reader [name] device = some (printAttribute reader device name) := by
  simp [get]

/-- An instrument that keeps its configuration displays a writable attribute by its value. -/
theorem printAttribute_writable (keeps : reader.Keeps) {name : List Char} {procedure : Procedure}
    (named : writable.lookup name = some procedure) (device : Device) :
    printAttribute reader device name =
      column name ++ (display reader.host procedure (device.active procedure) ++ ['\n']) := by
  rw [printAttribute, valueText_writable named, keeps.returned]
  rfl

/-- After a part of the configuration has changed, other attributes are displayed as before. -/
theorem printAttribute_other (keeps : reader.Keeps) {name other : List Char}
    {procedure : Procedure} (named : writable.lookup name = some procedure)
    (different : other ≠ name) (word : procedure.Value) (device : Device) :
    printAttribute reader (device.act (.set procedure word)) other =
      printAttribute reader device other := by
  cases found : writable.lookup other with
  | none => rw [printAttribute, printAttribute, valueText_other found, valueText_other found]
  | some part =>
    have apart : part ≠ procedure := by
      intro same
      have unequal := different
      rw [eq_attributeName found, eq_attributeName named, same] at unequal
      exact unequal rfl
    rw [printAttribute_writable keeps found, printAttribute_writable keeps found,
      device.active_set_of_ne apart]

/-- On an instrument that keeps its configuration, an attribute that is set to a text in either way
is displayed by that text, and every other attribute is displayed as before. For an address
`a.b.c.d` the procedure of the attribute is called, on every host, with the number that has its
first byte lowest. -/
theorem set_get (reader : Reader) (device : Device) {name value : List Char}
    {procedure : Procedure} (named : writable.lookup name = some procedure)
    (canonical : Canonical value procedure) {argv : List (List Char)}
    (form : argv = [name ++ '=' :: value] ∨ argv = [name, value]) :
    (reader.Keeps → ∃ reply, set reader.toServer argv device = some reply ∧ reply.rc = 0 ∧
      get reader [name] reply.device = some (column name ++ (value ++ ['\n'])) ∧
      ∀ other, other ≠ name → get reader [other] reply.device = get reader [other] device) ∧
    ∀ rpc a b c d, (name, rpc) ∈ addresses → value = dotted a b c d →
      ∃ (ip : UInt32) (reply : Reply),
        ip.toNat = a.toNat + 256 * b.toNat + 65536 * c.toNat + 16777216 * d.toNat ∧
        set reader.toServer argv device = some reply ∧
        (reply.rc, reply.device) = ics reader.toServer (rpc ip) device := by
  constructor
  · intro keeps
    have ⟨word, means, displays⟩ := display_meaning reader.host canonical
    have ⟨reply, ran, wrote⟩ := set_writes named form means device
    rw [keeps.stored] at wrote
    have ⟨success, after⟩ := Prod.mk.inj wrote
    refine ⟨reply, ran, success, ?_, fun other different => ?_⟩
    · rw [get_single, printAttribute_writable keeps named, after, Store.active_set, displays]
    · rw [get_single, get_single, after, printAttribute_other keeps named different]
  · intro rpc a b c d address text
    subst text
    have ⟨reply, ran, wrote⟩ :=
      @set_address reader.toServer name rpc address a b c d argv form device
    refine ⟨wordOf d c b a, reply, ?_, ran, wrote⟩
    rw [toNat_wordOf]
    omega

/-- An instrument that keeps its configuration and answers every question. -/
def answering : Reader where
  toServer := obliging
  read device procedure := some ⟨0, device.active procedure⟩
  idn := some ⟨0, "ICS Electronics".toList⟩

/-- It keeps its configuration. -/
theorem answering_keeps : answering.Keeps := ⟨fun _ _ _ => rfl, fun _ _ => rfl⟩

/-- An address that is set is displayed, and the hostname as before. -/
theorem set_get_address :
    ∃ reply, set obliging ["ip-address=10.0.1.2".toList] changed = some reply ∧ reply.rc = 0 ∧
      get answering ["ip-address".toList] reply.device =
        some "ip-address          10.0.1.2\n".toList ∧
      get answering ["hostname".toList] reply.device =
        get answering ["hostname".toList] changed := by
  have ⟨reply, ran, success, displays, others⟩ :=
    (@set_get answering changed "ip-address".toList "10.0.1.2".toList .ipNumber rfl
      ⟨10, 0, 1, 2, rfl⟩ ["ip-address=10.0.1.2".toList] (.inl rfl)).1 answering_keeps
  exact ⟨reply, ran, success, displays, others _ (by decide)⟩

end GpibUtils.Icsconfig
