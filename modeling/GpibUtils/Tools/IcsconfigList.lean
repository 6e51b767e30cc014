import GpibUtils.Tools.IcsconfigGet
import Mathlib.Data.List.Forall2

/-!
# A configuration listed and set again

`icsconfig list` shows all attributes of an instrument. Whoever sets each attribute of another one
that can be set to what the list shows of it, in any order and in either way to write it, gets an
instrument that shows the same list, whatever its configuration was before, when it shows the same
identification as the first one. The configuration is the same, too, as long as the list shows all
of it: it does not tell a mode other than 0 from 1, and shows names up to their first NUL
(`list_restores`).
-/

namespace GpibUtils.Icsconfig

open CSem Settings Runs Ics

/-! ## The code -/

/-- The table `attrs`. -/
def attrs : List (List Char) :=
  ["ident".toList, "enable-dhcp".toList, "ip-address".toList, "ip-gateway".toList,
    "ip-netmask".toList, "hostname".toList, "timeout".toList, "keepalive".toList,
    "vxi11-interface".toList, "gpib-address".toList, "gpib-controller".toList,
    "gpib-ren-enable".toList]

variable (reader : Reader)

/-- `_list`: what is printed. -/
def list (device : Device) : List Char := attrs.flatMap (printAttribute reader device)

/-! ## What a list shows -/

/-- A list shows a value of an attribute. -/
def Shows (device : Device) (name value : List Char) : Prop :=
  printAttribute reader device name = column name ++ (value ++ ['\n'])

/-- A command sets an attribute to what a list shows of it. -/
def Restores (device : Device) (procedure : Procedure) (command : Command) : Prop :=
  ∃ value, Shows reader device (attributeName procedure) value ∧
    (command = .set [attributeName procedure ++ '=' :: value] ∨
      command = .set [attributeName procedure, value])

/-- The value that an attribute gets when it is set to what is displayed of a value. -/
def restored : (procedure : Procedure) → procedure.Value → procedure.Value
  | .staticIpMode => fun mode => if mode = 0 then 0 else 1
  | .systemController => fun mode => if mode = 0 then 0 else 1
  | .renMode => fun mode => if mode = 0 then 0 else 1
  | .hostname => mkstr
  | .interfaceName => mkstr
  | .commTimeout => id
  | .ipNumber => id
  | .netmask => id
  | .gateway => id
  | .keepalive => id
  | .gpibAddress => id

/-- A value of which all is displayed. -/
def ShownWhole : (procedure : Procedure) → procedure.Value → Prop
  | .staticIpMode => fun mode => mode = 0 ∨ mode = 1
  | .systemController => fun mode => mode = 0 ∨ mode = 1
  | .renMode => fun mode => mode = 0 ∨ mode = 1
  | .hostname => fun name => '\x00' ∉ name
  | .interfaceName => fun name => '\x00' ∉ name
  | .commTimeout => fun _ => True
  | .ipNumber => fun _ => True
  | .netmask => fun _ => True
  | .gateway => fun _ => True
  | .keepalive => fun _ => True
  | .gpibAddress => fun _ => True

/-- A string is cut at its first NUL. -/
theorem mkstr_eq_iff {str : List Char} : mkstr str = str ↔ '\x00' ∉ str := by
  constructor
  · intro same member
    have plain := List.mem_takeWhile_imp (same.symm ▸ member : '\x00' ∈ mkstr str)
    exact absurd plain (by decide)
  · exact mkstr_of_not_mem

/-- Cut once, it is not cut again. -/
theorem mkstr_mkstr (str : List Char) : mkstr (mkstr str) = mkstr str := by
  apply mkstr_of_not_mem
  intro member
  have plain := List.mem_takeWhile_imp member
  exact absurd plain (by decide)

/-- A mode is one of two when it is the one that its text is set to. -/
theorem mode_eq_iff (mode : UInt32) :
    (if mode = 0 then 0 else 1) = mode ↔ mode = 0 ∨ mode = 1 := by
  by_cases zero : mode = 0
  · simp [zero]
  · simp [zero, eq_comm]

/-- A value is stored again exactly when all of it is displayed. -/
theorem restored_eq_iff {procedure : Procedure} (value : procedure.Value) :
    restored procedure value = value ↔ ShownWhole procedure value := by
  cases procedure with
  | staticIpMode | systemController | renMode => exact mode_eq_iff value
  | hostname | interfaceName => exact mkstr_eq_iff
  | commTimeout | ipNumber | netmask | gateway | keepalive | gpibAddress =>
    exact iff_of_true rfl trivial

/-- A mode that was set by a text is displayed by it. -/
theorem modeText_restored (zero other : String) (mode : UInt32) :
    modeText zero other (if mode = 0 then 0 else 1) = modeText zero other mode := by
  by_cases none : mode = 0
  · rw [if_pos none, none]
  · rw [if_neg none, modeText, modeText, if_neg none, if_neg (by decide)]

/-- A word has four bytes. -/
theorem exists_wordOf (word : UInt32) : ∃ a b c d, word = wordOf a b c d := by
  have small := word.toNat_lt
  refine ⟨.ofNat (word.toNat / 256 ^ 3), .ofNat (word.toNat / 256 ^ 2), .ofNat (word.toNat / 256),
    .ofNat word.toNat, ?_⟩
  apply UInt32.toNat_inj.mp
  rw [toNat_wordOf]
  simp only [UInt8.toNat_ofNat']
  omega

/-- An address is displayed alike by all hosts. -/
theorem ip2str_host (host other : Endian) (ip : UInt32) : ip2str other ip = ip2str host ip := by
  obtain ⟨d, c, b, a, same⟩ := exists_wordOf ip
  rw [same, ip2str_wordOf, ip2str_wordOf]

/-- What is displayed does not depend on the host. -/
theorem display_host (host other : Endian) {procedure : Procedure} (value : procedure.Value) :
    display other procedure value = display host procedure value := by
  cases procedure with
  | ipNumber | netmask | gateway => exact ip2str_host host other value
  | staticIpMode | systemController | renMode | hostname | interfaceName => rfl
  | commTimeout | keepalive | gpibAddress => rfl

/-- What was set by a text is displayed by it. -/
theorem display_restored (host : Endian) {procedure : Procedure} (value : procedure.Value) :
    display host procedure (restored procedure value) = display host procedure value := by
  cases procedure with
  | staticIpMode => exact modeText_restored "yes" "no" value
  | systemController | renMode => exact modeText_restored "no" "yes" value
  | hostname | interfaceName => exact mkstr_mkstr value
  | commTimeout | ipNumber | netmask | gateway | keepalive | gpibAddress => rfl

/-- The text of a mode is read as zero or one. -/
theorem flag_modeText (mode : UInt32) :
    flag (modeText "yes" "no" mode) 0 1 = (if mode = 0 then 0 else 1) ∧
      flag (modeText "no" "yes" mode) 1 0 = (if mode = 0 then 0 else 1) := by
  by_cases zero : mode = 0
  · rw [zero]
    exact ⟨rfl, rfl⟩
  · simp only [modeText, if_neg zero]
    exact ⟨rfl, rfl⟩

/-- A number that is displayed is read as it was, in base ten and in base zero. -/
theorem strtoul_unsigned (n : UInt32) :
    (strtoul (unsigned n)).1.toUInt32 = n ∧ (strtoul0 (unsigned n)).1.toUInt32 = n := by
  have small := n.toNat_lt
  have whole : (UInt64.ofNat n.toNat).toUInt32 = n := by
    apply UInt32.toNat_inj.mp
    rw [UInt64.toNat_toUInt32, UInt64.toNat_ofNat']
    omega
  have read := @strtoul0_decimalText n.toNat [] (by omega) (by simp)
  rw [List.append_nil] at read
  rw [unsigned, strtoul_decimalText (by omega), read]
  exact ⟨whole, whole⟩

/-- An address that is displayed is read as it was. -/
theorem str2ip_ip2str (host : Endian) (ip : UInt32) : str2ip host (ip2str host ip) = some ip := by
  obtain ⟨d, c, b, a, same⟩ := exists_wordOf ip
  rw [same, ip2str_wordOf, str2ip_dotted]

/-- The text that a value is displayed as means the value that is stored again. -/
theorem meaning_display (host : Endian) {procedure : Procedure} (value : procedure.Value) :
    meaning host (display host procedure value) procedure = some (restored procedure value) := by
  cases procedure with
  | commTimeout | keepalive => exact congrArg some (strtoul_unsigned value).1
  | gpibAddress => exact congrArg some (strtoul_unsigned value).2
  | staticIpMode => exact congrArg some (flag_modeText value).1
  | systemController | renMode => exact congrArg some (flag_modeText value).2
  | ipNumber | netmask | gateway => exact str2ip_ip2str host value
  | hostname | interfaceName => rfl

/-! ## Listed and set again -/

/-- Every part of the configuration can be set by its name. -/
theorem lookup_attributeName (procedure : Procedure) :
    writable.lookup (attributeName procedure) = some procedure := by
  cases procedure <;> rfl

section

variable {reader} {other : Reader} (keeps : reader.Keeps) (keeps' : other.Keeps)
include keeps

/-- What a list shows of an attribute that can be set is the text of its value. -/
theorem Shows.text {device : Device} {procedure : Procedure} {value : List Char}
    (shows : Shows reader device (attributeName procedure) value) :
    value = display reader.host procedure (device.active procedure) := by
  have line := printAttribute_writable keeps (lookup_attributeName procedure) device
  exact List.append_cancel_right (List.append_cancel_left (shows.symm.trans line))

include keeps'

/-- A command that sets an attribute to what a list of one instrument shows of it stores the value
again in another one. -/
theorem Restores.step {device : Device} {procedure : Procedure} {command : Command}
    (restores : Restores reader device procedure command) (target : Device) :
    step other.toServer target command =
      target.act (.set procedure (restored procedure (device.active procedure))) := by
  obtain ⟨value, shows, form⟩ := restores
  have means := meaning_display other.host (device.active procedure)
  rw [display_host reader.host, ← shows.text keeps] at means
  have argv : ∃ argv, command = .set argv ∧
      (argv = [attributeName procedure ++ '=' :: value] ∨
        argv = [attributeName procedure, value]) := by
    rcases form with joined | apart
    · exact ⟨_, joined, .inl rfl⟩
    · exact ⟨_, apart, .inr rfl⟩
  obtain ⟨argv, same, form⟩ := argv
  obtain ⟨reply, ran, wrote⟩ := @set_writes other.toServer _ _ procedure
    (lookup_attributeName procedure) argv form _ means target
  rw [keeps'.stored] at wrote
  have after := (Prod.mk.inj wrote).2
  rw [same, Icsconfig.step, Command.run, ran, Option.map_some, Option.getD_some]
  exact after

/-- Commands that set attributes to what a list shows of them store the values again. -/
theorem run_restores {device : Device} {procedures : List Procedure} {commands : List Command}
    (each : List.Forall₂ (Restores reader device) procedures commands) (target : Device) :
    run (step other.toServer) target commands =
      procedures.foldl (fun store procedure =>
        store.act (.set procedure (restored procedure (device.active procedure)))) target := by
  induction each generalizing target with
  | nil => rfl
  | cons restores each ih =>
    exact (ih _).trans (by rw [restores.step keeps keeps', List.foldl_cons])

/-- An instrument that has the values of another stored again, and shows the same identification, is
displayed as that one is. -/
theorem printAttribute_restored {device target after : Device}
    (alike : printAttribute other target "ident".toList =
      printAttribute reader device "ident".toList)
    (active : ∀ procedure, after.active procedure =
      restored procedure (device.active procedure)) (name : List Char) :
    printAttribute other after name = printAttribute reader device name := by
  cases found : writable.lookup name with
  | none =>
    have fixed : printAttribute other after name = printAttribute other target name := by
      rw [printAttribute, printAttribute, valueText_other found, valueText_other found]
    rw [fixed]
    by_cases ident : name = "ident".toList
    · rw [ident, alike]
    · rw [printAttribute, printAttribute, valueText_other found, valueText_other found,
        if_neg ident, if_neg ident]
  | some procedure =>
    rw [printAttribute_writable keeps found, printAttribute_writable keeps' found, active,
      display_restored, display_host reader.host]

end

/-- When each attribute of an instrument that can be set is set to what a list of another one shows
of it, in any order, and more than once perhaps, both show the same list, whatever was active
before, as long as they show the same identification. The active configuration is the listed one
exactly when all of that was shown; what is in flash stays. -/
theorem list_restores (reader other : Reader) (keeps : reader.Keeps) (keeps' : other.Keeps)
    (device target : Device) {procedures : List Procedure}
    (all : ∀ procedure, procedure ∈ procedures) {commands : List Command}
    (each : List.Forall₂ (Restores reader device) procedures commands) :
    let after := run (step other.toServer) target commands
    (printAttribute other target "ident".toList = printAttribute reader device "ident".toList →
        list other after = list reader device) ∧
      (after.active = device.active ↔
        ∀ procedure, ShownWhole procedure (device.active procedure)) ∧
      after.flash = target.flash ∧ after.factory = target.factory := by
  dsimp only
  obtain ⟨active, flash, factory⟩ :=
    Store.sets_spec (fun procedure => restored procedure (device.active procedure)) procedures
      target
  rw [← run_restores keeps keeps' each] at active flash factory
  have stored : ∀ procedure, (run (step other.toServer) target commands).active procedure =
      restored procedure (device.active procedure) := fun procedure =>
    (active procedure).trans (if_pos (all procedure))
  refine ⟨fun alike => ?_, ?_, flash, factory⟩
  · have lines := funext (printAttribute_restored keeps keeps' alike stored)
    rw [list, list, lines]
  · rw [funext_iff]
    refine forall_congr' fun procedure => ?_
    rw [stored, restored_eq_iff]

/-- A configuration is set again on an instrument that has nothing but zeros and empty names. -/
theorem list_restores_changed :
    let parts : List Procedure := [.interfaceName, .commTimeout, .hostname, .staticIpMode,
      .ipNumber, .netmask, .gateway, .keepalive, .gpibAddress, .systemController, .renMode]
    let commands := parts.map fun part =>
      Command.set [attributeName part, display .little part (changed.active part)]
    let after := run (step obliging) ⟨blank, blank, blank⟩ commands
    list answering after = list answering changed ∧ after.active = changed.active := by
  intro parts commands
  have all : ∀ procedure, procedure ∈ parts := fun procedure => by cases procedure <;> decide
  have each : List.Forall₂ (Restores answering changed) parts commands := by
    rw [List.forall₂_map_right_iff, List.forall₂_same]
    intro part member
    have shown := printAttribute_writable answering_keeps (lookup_attributeName part) changed
    exact ⟨_, shown, .inr rfl⟩
  have ⟨lists, active, _⟩ := list_restores answering answering answering_keeps answering_keeps
    changed ⟨blank, blank, blank⟩ all each
  refine ⟨lists rfl, active.mpr fun procedure => ?_⟩
  rw [← restored_eq_iff]
  cases procedure <;> rfl

end GpibUtils.Icsconfig
