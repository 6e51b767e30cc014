import GpibUtils.Ics.Client
import GpibUtils.Runs

/-!
# The commands of icsconfig

`icsconfig` changes one attribute of the active configuration of an instrument, or moves a
configuration between memory and flash. Its manual says what each command does to the two. The
command `factory` calls the procedure that `reload` calls, so that a session does what the manual
says exactly when every `factory` in it finds nothing to change (`icsconfig_documented`).
-/

namespace GpibUtils.Icsconfig

open CSem Settings Runs Ics

/-! ## The code -/

/-- How a command ends when it does not end at its usage: what the function of `ics.c` has returned,
what is printed, and the configurations after it. -/
structure Reply where
  rc : Int
  text : List Char
  device : Device

/-- The number that a `yes` or `no` is sent as. -/
def flag (value : List Char) (yes no : UInt32) : UInt32 := if value = "yes".toList then yes else no

/-- The name and the value that `_set` finds in its arguments, or `none` where it calls `_usage`. -/
def nameValue : List (List Char) → Option (List Char × List Char)
  | [name, value] => some (name, value)
  | [arg] =>
    if '=' ∈ arg then some (arg.takeWhile (· ≠ '='), (arg.dropWhile (· ≠ '=')).tail) else none
  | _ => none

variable (server : Server)

/-- The chain of comparisons in `_set`: what is printed in it, the result of the function called,
and the configurations after it. -/
def assign (name value : List Char) (device : Device) : String × Int × Device :=
  if name = "timeout".toList then ("", icsSetCommTimeout server (strtoul value).1.toUInt32 device)
  else if name = "enable-dhcp".toList then ("", icsSetStaticIpMode server (flag value 0 1) device)
  else if name = "ip-address".toList then ("", icsSetIpNumber server value device)
  else if name = "ip-netmask".toList then ("", icsSetNetmask server value device)
  else if name = "ip-gateway".toList then ("", icsSetGateway server value device)
  else if name = "hostname".toList then ("", icsSetHostname server value device)
  else if name = "keepalive".toList then
    ("", icsSetKeepalive server (strtoul value).1.toUInt32 device)
  else if name = "vxi11-interface".toList then ("", icsSetInterfaceName server value device)
  else if name = "gpib-address".toList then
    ("", icsSetGpibAddress server (strtoul0 value).1.toUInt32 device)
  else if name = "gpib-controller".toList then
    ("", icsSetSystemController server (flag value 1 0) device)
  else if name = "gpib-ren-enable".toList then ("", icsSetRenMode server (flag value 1 0) device)
  else if name = "ident".toList then ("ident is read-only\n", 0, device)
  else ("unknown attribute\n", 0, device)

/-- `_set`; `none` when it ends at `_usage`. -/
def set (argv : List (List Char)) (device : Device) : Option Reply :=
  (nameValue argv).map fun (name, value) =>
    let (said, rc, device) := assign server name value device
    let failure := "set: ".toList ++ name ++ ": ".toList ++ icsStrerror server rc ++ ['\n']
    ⟨rc, said.toList ++ if rc ≠ 0 then failure else [], device⟩

/-- The body of the commands without arguments: the function they call, and what they print. -/
def plain (call : Device → Int × Device) (success failure : String) (argv : List (List Char))
    (device : Device) : Option Reply :=
  if 0 < argv.length then none
  else
    let (rc, device) := call device
    some ⟨rc, if rc = 0 then success.toList
      else failure.toList ++ ": ".toList ++ icsStrerror server rc ++ ['\n'], device⟩

/-- `_reload` -/
def reload := plain server (icsReloadConfig server) "config reloaded from flash\n" "reload"
/-- `_factory` -/
def factory :=
  plain server (icsReloadConfig server) "flash reloaded with factory defaults\n" "factory"
/-- `_commit` -/
def commit := plain server (icsCommitConfig server) "current config written\n" "commit"
/-- `_reboot` -/
def reboot := plain server (icsReboot server) "rebooting\n" "reboot"

/-- A command that changes a configuration, with its arguments. -/
inductive Command where
  | set (argv : List (List Char))
  | reload (argv : List (List Char))
  | factory (argv : List (List Char))
  | commit (argv : List (List Char))
  | reboot (argv : List (List Char))
  deriving DecidableEq

/-- What `main` does with a command. -/
def Command.run (device : Device) : Command → Option Reply
  | .set argv => Icsconfig.set server argv device
  | .reload argv => Icsconfig.reload server argv device
  | .factory argv => Icsconfig.factory server argv device
  | .commit argv => Icsconfig.commit server argv device
  | .reboot argv => Icsconfig.reboot server argv device

/-- The configurations after a command. -/
def step (device : Device) (command : Command) : Device :=
  ((command.run server device).map Reply.device).getD device

/-! ## The manual -/

/-- The attributes that can be set, and the parts of the configuration they are. -/
def writable : List (List Char × Procedure) :=
  [("timeout".toList, .commTimeout), ("enable-dhcp".toList, .staticIpMode),
    ("ip-address".toList, .ipNumber), ("ip-netmask".toList, .netmask),
    ("ip-gateway".toList, .gateway), ("hostname".toList, .hostname),
    ("keepalive".toList, .keepalive), ("vxi11-interface".toList, .interfaceName),
    ("gpib-address".toList, .gpibAddress), ("gpib-controller".toList, .systemController),
    ("gpib-ren-enable".toList, .renMode)]

/-- What a value says of a part of the configuration, when it says something. -/
def meaning (host : Endian) (value : List Char) : (procedure : Procedure) → Option procedure.Value
  | .interfaceName | .hostname => some value
  | .commTimeout | .keepalive => some (strtoul value).1.toUInt32
  | .gpibAddress => some (strtoul0 value).1.toUInt32
  | .staticIpMode => some (flag value 0 1)
  | .systemController | .renMode => some (flag value 1 0)
  | .ipNumber | .netmask | .gateway => str2ip host value

/-- What the manual says a command does to the configurations, when it is well formed. -/
def Command.action (host : Endian) : Command → Option (Action Procedure Procedure.Value)
  | .set argv => do
    let (name, value) ← nameValue argv
    let procedure ← writable.lookup name
    let value ← meaning host value procedure
    some (.set procedure value)
  | .reload _ => some .reload
  | .factory _ => some .reset
  | .commit _ => some .commit
  | .reboot _ => some .reload

/-- The configurations after a command, as the manual says. -/
def documented (host : Endian) (device : Device) (command : Command) : Device :=
  ((command.action host).map device.act).getD device

/-- The instrument accepts a command, which sets an attribute that can be set if it sets any. -/
def Accepted (device : Device) (command : Command) : Prop :=
  (∃ reply, command.run server device = some reply ∧ reply.rc = 0) ∧
    ∀ argv, command = .set argv →
      ∃ name value procedure, nameValue argv = some (name, value) ∧
        writable.lookup name = some procedure

/-- A `factory` finds active what is in flash, and in flash what the factory put there. -/
def NothingToReset (device : Device) (command : Command) : Prop :=
  ∀ argv, command = .factory argv → device.active = device.flash ∧ device.flash = device.factory

/-! ## The code and the manual -/

variable {server}

/-- The name of a part of the configuration. -/
def attributeName : Procedure → List Char
  | .commTimeout => "timeout".toList
  | .staticIpMode => "enable-dhcp".toList
  | .ipNumber => "ip-address".toList
  | .netmask => "ip-netmask".toList
  | .gateway => "ip-gateway".toList
  | .hostname => "hostname".toList
  | .keepalive => "keepalive".toList
  | .interfaceName => "vxi11-interface".toList
  | .gpibAddress => "gpib-address".toList
  | .systemController => "gpib-controller".toList
  | .renMode => "gpib-ren-enable".toList

/-- Every part is found by its name only. -/
theorem eq_attributeName {name : List Char} {procedure : Procedure}
    (named : writable.lookup name = some procedure) : name = attributeName procedure := by
  have listed : ∀ entry ∈ writable, entry.1 = attributeName entry.2 := by decide
  have ⟨front, back, split, _⟩ := List.lookup_eq_some_iff.mp named
  exact listed (name, procedure) (split ▸ List.mem_append_right _ List.mem_cons_self)

/-- Setting an attribute that can be set writes what the value says, when it says something. -/
theorem assign_eq {name : List Char} {procedure : Procedure}
    (named : writable.lookup name = some procedure) (value : List Char) (device : Device) :
    assign server name value device =
      ("", (meaning server.host value procedure).elim (icsErrorParameter, device)
        fun value => ics server (.write procedure value) device) := by
  have same := eq_attributeName named
  subst same
  cases procedure with
  | interfaceName | commTimeout | hostname | staticIpMode | keepalive | gpibAddress
  | systemController | renMode => rfl
  | ipNumber => exact congrArg _ (icsSetAddress_eq server (.write .ipNumber) value device)
  | netmask => exact congrArg _ (icsSetAddress_eq server (.write .netmask) value device)
  | gateway => exact congrArg _ (icsSetAddress_eq server (.write .gateway) value device)

/-- Setting an attribute that can be set, when it succeeds, changes that attribute only. -/
theorem assign_succeeds {name value : List Char} {procedure : Procedure} {device : Device}
    (named : writable.lookup name = some procedure)
    (success : (assign server name value device).2.1 = 0) :
    ∃ value', meaning server.host value procedure = some value' ∧
      (assign server name value device).2.2 = device.act (.set procedure value') := by
  rw [assign_eq named] at success ⊢
  cases means : meaning server.host value procedure with
  | none =>
    rw [means] at success
    cases success
  | some value' =>
    rw [means] at success
    exact ⟨value', rfl, ics_succeeds server success⟩

/-- A command without arguments that succeeds acts as the procedure it calls. -/
theorem plain_succeeds {rpc : Rpc} {done failed : String} {argv : List (List Char)}
    {device : Device} {reply : Reply}
    (ran : plain server (ics server rpc) done failed argv device = some reply)
    (success : reply.rc = 0) : reply.device = device.act rpc.action := by
  rw [plain] at ran
  split at ran
  case isTrue => cases ran
  case isFalse =>
    rw [← Option.some.inj ran] at success ⊢
    exact ics_succeeds server success

/-- A command other than `factory` that is accepted does what the manual says. -/
theorem step_documented {device : Device} {command : Command}
    (accepted : Accepted server device command) (other : ∀ argv, command ≠ .factory argv) :
    step server device command = documented server.host device command := by
  obtain ⟨⟨reply, ran, success⟩, named⟩ := accepted
  rw [step, ran]
  cases command with
  | set argv =>
    obtain ⟨name, value, procedure, found, lookup⟩ := named argv rfl
    simp only [Command.run, set, found, Option.map_some, Option.some.injEq] at ran
    subst ran
    obtain ⟨value', means, acts⟩ := assign_succeeds lookup success
    simp [documented, Command.action, found, lookup, means, acts]
  | reload argv => exact plain_succeeds ran success
  | factory argv => exact absurd rfl (other argv)
  | commit argv => exact plain_succeeds ran success
  | reboot argv => exact plain_succeeds ran success

/-- A `factory` that is accepted does what `reload` does. -/
theorem step_factory {device : Device} {argv : List (List Char)}
    (accepted : Accepted server device (.factory argv)) :
    step server device (.factory argv) = device.act .reload := by
  obtain ⟨⟨reply, ran, success⟩, -⟩ := accepted
  rw [step, ran]
  exact plain_succeeds ran success

/-- A command that is accepted does what the manual says, unless it is a `factory` that finds
something to change. -/
theorem step_iff {device : Device} {command : Command}
    (accepted : Accepted server device command) :
    step server device command = documented server.host device command ↔
      NothingToReset device command := by
  by_cases reset : ∃ argv, command = .factory argv
  · obtain ⟨argv, rfl⟩ := reset
    rw [step_factory accepted]
    refine (reload_eq_reset_iff device).trans ⟨fun same argv _ => same, fun same => same argv rfl⟩
  · have other : ∀ argv, command ≠ .factory argv := fun argv same => reset ⟨argv, same⟩
    exact ⟨fun _ argv same => absurd same (other argv), fun _ => step_documented accepted other⟩

/-- After every command of a session that the instrument accepts, the configurations are those that
the manual says, exactly when every `factory` of the session finds active what is in flash, and in
flash what the factory put there. -/
theorem icsconfig_documented {device : Device} {commands : List Command}
    (accepted : Along (step server) (Accepted server) device commands) :
    (∀ before later, commands = before ++ later →
        run (step server) device before = run (documented server.host) device before) ↔
      Along (step server) NothingToReset device commands := by
  rw [run_eq_iff]
  exact accepted.congr fun device command => step_iff

/-- An instrument that accepts every call. -/
def obliging : Server where
  serve device rpc := (some 0, device.act rpc.action)
  acts _ _ _ := rfl
  sperror := []
  host := .little

/-- A configuration of zeros and empty names. -/
def blank : (procedure : Procedure) → procedure.Value
  | .interfaceName => []
  | .hostname => []
  | .commTimeout => (0 : UInt32)
  | .staticIpMode => (0 : UInt32)
  | .ipNumber => (0 : UInt32)
  | .netmask => (0 : UInt32)
  | .gateway => (0 : UInt32)
  | .keepalive => (0 : UInt32)
  | .gpibAddress => (0 : UInt32)
  | .systemController => (0 : UInt32)
  | .renMode => (0 : UInt32)

/-- An instrument with a timeout in flash that its factory defaults do not have. -/
def changed : Device :=
  let saved := Function.update blank .commTimeout (30 : UInt32)
  ⟨saved, saved, blank⟩

/-- A timeout is set, committed and used after a reboot. -/
theorem icsconfig_documented_timeout :
    run (step obliging) changed
        [.set ["timeout=60".toList], .commit [], .reboot []] =
      run (documented .little) changed
        [.set ["timeout=60".toList], .commit [], .reboot []] :=
  (@icsconfig_documented obliging changed
    [.set ["timeout=60".toList], .commit [], .reboot []]
    ⟨⟨⟨_, rfl, rfl⟩, fun argv same => ⟨"timeout".toList, "60".toList, .commTimeout,
        Command.set.inj same ▸ rfl, rfl⟩⟩,
      ⟨⟨_, rfl, rfl⟩, fun argv same => by cases same⟩,
      ⟨⟨_, rfl, rfl⟩, fun argv same => by cases same⟩, trivial⟩).mpr
    ⟨fun argv same => (by cases same), fun argv same => (by cases same),
      fun argv same => (by cases same), trivial⟩ _ [] rfl

/-- After `factory` and `reload` the instrument still has the timeout it had. -/
theorem factory_resets_nothing :
    Along (step obliging) (Accepted obliging) changed [.factory [], .reload []] ∧
      (run (step obliging) changed [.factory [], .reload []]).active .commTimeout = (30 : UInt32) ∧
      (run (documented .little) changed [.factory [], .reload []]).active .commTimeout =
        (0 : UInt32) :=
  ⟨⟨⟨⟨_, rfl, rfl⟩, fun argv same => by cases same⟩,
    ⟨⟨_, rfl, rfl⟩, fun argv same => by cases same⟩, trivial⟩, rfl, rfl⟩

end GpibUtils.Icsconfig
