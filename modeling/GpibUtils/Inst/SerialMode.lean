import GpibUtils.Folds
import GpibUtils.Inst.Address
import GpibUtils.Inst.Poll
import GpibUtils.Runs
import GpibUtils.Vxi11.Device

/-!
# The mode of a serial line

`_init_serial` opens a serial line in raw mode. `inst_set_reos` and `inst_set_eos` store a flag and
a character, and change the mode of the line: it is canonical while the flag is set, and then ends
lines at the character. Whatever they are called with, and in which order, the line reflects the
last flag and the last character (`serial_reflects`). Flags and slots of `struct termios` are those
of Linux.
-/

namespace GpibUtils.Inst

open CSem Vxi11 Runs

/-! ## Terminals -/

/-- `struct termios`, with the speeds as numbers of baud. -/
structure Termios where
  iflag : UInt32
  oflag : UInt32
  cflag : UInt32
  lflag : UInt32
  cc : Nat → UInt8
  ispeed : Int
  ospeed : Int

/-- `IXON|IXANY|IXOFF` -/
def ixall : UInt32 := 0o2000 ||| 0o4000 ||| 0o10000
/-- `INPCK` -/
def inpck : UInt32 := 0o20
/-- `ISTRIP` -/
def istrip : UInt32 := 0o40
/-- `OPOST` -/
def opost : UInt32 := 0o1
/-- `CSIZE` -/
def csize : UInt32 := 0o60
/-- `CS7` -/
def cs7 : UInt32 := 0o40
/-- `CS8` -/
def cs8 : UInt32 := 0o60
/-- `CSTOPB` -/
def cstopb : UInt32 := 0o100
/-- `PARENB` -/
def parenb : UInt32 := 0o400
/-- `PARODD` -/
def parodd : UInt32 := 0o1000
/-- `CLOCAL` -/
def clocal : UInt32 := 0o4000
/-- `CRTSCTS` -/
def crtscts : UInt32 := 0o20000000000
/-- `ISIG` -/
def isig : UInt32 := 0o1
/-- `ICANON` -/
def icanon : UInt32 := 0o2
/-- `ECHO` -/
def echo : UInt32 := 0o10
/-- `ECHOE` -/
def echoe : UInt32 := 0o20

/-- `VEOF` -/
def veof : Nat := 4
/-- `VTIME` -/
def vtime : Nat := 5
/-- `VMIN` -/
def vmin : Nat := 6
/-- `VEOL` -/
def veol : Nat := 11

/-- Put a character into a slot. -/
def Termios.setCc (tio : Termios) (slot : Nat) (c : UInt8) : Termios :=
  { tio with cc := Function.update tio.cc slot c }

/-- The part of `_canon_serial` that changes the attributes. -/
def canonAttrs (eos : Int) (tio : Termios) : Termios :=
  (({ tio with lflag := tio.lflag ||| icanon }).setCc veol (UInt8.ofInt eos)).setCc veof 4

/-- The part of `_raw_serial` that changes the attributes. -/
def rawAttrs (tio : Termios) : Termios :=
  (({ tio with lflag := tio.lflag &&& ~~~icanon }).setCc vmin 1).setCc vtime 0

/-- Whether `tcgetattr` and `tcsetattr` succeed. -/
structure Tc where
  get : Bool
  set : Bool

/-- Change the attributes of a terminal: what `_canon_serial` and `_raw_serial` return, and the
attributes after them. -/
def changeAttrs (change : Termios → Termios) (tc : Tc) (tio : Termios) : Int × Termios :=
  if tc.get = false then (-1, tio) else if tc.set = false then (-1, tio) else (0, change tio)

/-! ## Opening a serial line -/

/-- The variables that `_init_serial` scans its flags into. -/
structure SerialFlags where
  baud : Int := 9600
  databits : Int := 8
  parity : Char := 'N'
  stopbits : Int := 1
  flowctl : Char := 'N'

/-- `sscanf` with `"%d,%d%c%d,%c"`; what is not matched keeps its default. -/
def scanFlags (flags : List Char) : SerialFlags :=
  match scanInt flags with
  | some (baud, ',' :: rest) =>
    match scanInt rest with
    | some (databits, parity :: rest) =>
      match scanInt rest with
      | some (stopbits, ',' :: flowctl :: _) => { baud, databits, parity, stopbits, flowctl }
      | some (stopbits, _) => { baud, databits, parity, stopbits }
      | none => { baud, databits, parity }
    | some (databits, []) => { baud, databits }
    | none => { baud }
  | some (baud, _) => { baud }
  | none => {}

/-- The speeds of `baudmap`. -/
def baudmap : List Int :=
  [300, 1200, 2400, 4800, 9600, 19200, 38400, 57600, 115200, 230400, 460800]

/-- The part of `_init_serial` that sets the speeds. -/
def setBaud (baud : Int) (tio : Termios) : Option Termios :=
  if baud ∈ baudmap then some { tio with ispeed := baud, ospeed := baud } else none

/-- The switch on `databits`. -/
def setDatabits (databits : Int) (tio : Termios) : Option Termios :=
  match databits with
  | 7 => some { tio with cflag := tio.cflag &&& ~~~csize ||| cs7 }
  | 8 => some { tio with cflag := tio.cflag &&& ~~~csize ||| cs8 }
  | _ => none

/-- The switch on `stopbits`. -/
def setStopbits (stopbits : Int) (tio : Termios) : Option Termios :=
  match stopbits with
  | 1 => some { tio with cflag := tio.cflag &&& ~~~cstopb }
  | 2 => some { tio with cflag := tio.cflag ||| cstopb }
  | _ => none

/-- The switch on `parity`. -/
def setParity (parity : Char) (tio : Termios) : Option Termios :=
  match parity with
  | 'n' | 'N' => some { tio with cflag := tio.cflag &&& ~~~parenb }
  | 'e' | 'E' => some { tio with cflag := (tio.cflag ||| parenb) &&& ~~~parodd }
  | 'o' | 'O' => some { tio with cflag := tio.cflag ||| parenb ||| parodd }
  | _ => none

/-- The switch on `flowctl`. -/
def setFlowctl (flowctl : Char) (tio : Termios) : Option Termios :=
  match flowctl with
  | 'n' | 'N' =>
    some { tio with iflag := tio.iflag &&& ~~~ixall, cflag := tio.cflag &&& ~~~crtscts }
  | 'x' | 'X' => some { tio with iflag := tio.iflag ||| ixall }
  | 'h' | 'H' => some { tio with cflag := tio.cflag ||| crtscts }
  | _ => none

/-- The part of `_init_serial` that sets raw mode. -/
def initAttrs (tio : Termios) : Termios :=
  (({ tio with
      iflag := tio.iflag ||| (inpck ||| istrip)
      cflag := tio.cflag ||| clocal
      oflag := tio.oflag &&& ~~~opost
      lflag := tio.lflag &&& ~~~(icanon ||| echo ||| echoe ||| isig) }).setCc vmin 1).setCc vtime 0

/-- The fields of an instrument that say how a response ends, and where they go: the driver of a
GPIB instrument, the handle of a VXI-11 one, and the attributes of a serial line. -/
structure Ending where
  contype : Contype
  reos : Int
  eos : Int
  driverReos : Bool
  driverEos : Int
  vxi11Handle : Device
  tio : Termios

/-- `_new_inst` -/
def newInst (contype : Contype) (tio : Termios) : Ending where
  contype
  reos := 0
  eos := 10
  driverReos := false
  driverEos := 10
  vxi11Handle := vxi11Create
  tio

/-- A device as `_init_serial` finds it: whether it can be opened, is a terminal and can be locked,
whether its attributes can be read and set, and what they are. -/
structure Tty where
  opens : Bool
  isatty : Bool
  locks : Bool
  tc : Tc
  tio : Termios

/-- `_init_serial` -/
def initSerial (tty : Tty) (flags : List Char) : Option Ending :=
  if tty.opens = false ∨ tty.isatty = false ∨ tty.locks = false then none
  else
    let flags := scanFlags flags
    if tty.tc.get = false then none
    else do
      let tio ← setBaud flags.baud tty.tio
      let tio ← setDatabits flags.databits tio
      let tio ← setStopbits flags.stopbits tio
      let tio ← setParity flags.parity tio
      let tio ← setFlowctl flags.flowctl tio
      if tty.tc.set = false then none else some (newInst .serial (initAttrs tio))

/-- What opens an instrument of each kind for `inst_init`: there is no support for sockets. -/
def opened (other : Attempt → Bool) (ttys : List Char → Tty) : Attempt → Option Ending
  | .serial device flags => initSerial (ttys device) flags
  | .gpib board pad sad =>
    if other (.gpib board pad sad) then some (newInst .gpib (ttys []).tio) else none
  | .socket _ _ => none
  | .vxi name => if other (.vxi name) then some (newInst .vxi11 (ttys []).tio) else none

/-! ## Setting the end of a response -/

/-- `_canon_serial` -/
def canonSerial (tc : Tc) (gd : Ending) : Int × Ending :=
  let (res, tio) := changeAttrs (canonAttrs gd.eos) tc gd.tio
  (res, { gd with tio })

/-- `_raw_serial` -/
def rawSerial (tc : Tc) (gd : Ending) : Int × Ending :=
  let (res, tio) := changeAttrs rawAttrs tc gd.tio
  (res, { gd with tio })

/-- `inst_set_reos` -/
def instSetReos (tc : Tc) (flag : Int) (gd : Ending) : Ending :=
  match gd.contype with
  | .gpib => { gd with driverReos := decide (flag ≠ 0) }
  | .vxi11 => { gd with vxi11Handle := vxi11SetTermcharset gd.vxi11Handle (decide (flag ≠ 0)) }
  | .serial =>
    let gd := { gd with reos := flag }
    if flag ≠ 0 then (canonSerial tc gd).2 else (rawSerial tc gd).2
  | .socket => { gd with reos := flag }

/-- `inst_set_eos` -/
def instSetEos (tc : Tc) (c : Int) (gd : Ending) : Ending :=
  match gd.contype with
  | .gpib => { gd with driverEos := c }
  | .vxi11 => { gd with vxi11Handle := vxi11SetTermchar gd.vxi11Handle c }
  | .serial =>
    let gd := { gd with eos := c }
    if gd.reos ≠ 0 then (canonSerial tc gd).2 else gd
  | .socket => { gd with eos := c }

/-- A call of one of them. -/
inductive Setting where
  /-- `inst_set_reos` -/
  | reos (flag : Int)
  /-- `inst_set_eos` -/
  | eos (c : Int)

/-- The instrument after a call. -/
def Setting.apply (tc : Tc) (gd : Ending) : Setting → Ending
  | .reos flag => instSetReos tc flag gd
  | .eos c => instSetEos tc c gd

/-- The flag that a call sets. -/
def Setting.flag? : Setting → Option Int
  | .reos flag => some flag
  | .eos _ => none

/-- The character that a call sets. -/
def Setting.char? : Setting → Option Int
  | .reos _ => none
  | .eos c => some c

/-! ## What the line reflects -/

/-- A terminal in canonical mode. -/
def Termios.Canonical (tio : Termios) : Prop := tio.lflag &&& icanon ≠ 0

/-- Attributes that are the same but for `ICANON`, `VEOL` and `VEOF`. -/
structure Termios.SameBut (base tio : Termios) : Prop where
  iflag : tio.iflag = base.iflag
  oflag : tio.oflag = base.oflag
  cflag : tio.cflag = base.cflag
  lflag : tio.lflag &&& ~~~icanon = base.lflag &&& ~~~icanon
  cc : ∀ slot, slot ≠ veol → slot ≠ veof → tio.cc slot = base.cc slot
  ispeed : tio.ispeed = base.ispeed
  ospeed : tio.ospeed = base.ospeed

/-- What a serial line that was opened with some attributes has come to: the flag and the character
are stored, the mode is that of the flag, and a canonical line ends at the character. -/
structure Reflects (base : Termios) (reos eos : Int) (gd : Ending) : Prop where
  serial : gd.contype = .serial
  flag : gd.reos = reos
  char : gd.eos = eos
  mode : gd.tio.Canonical ↔ reos ≠ 0
  ends : reos ≠ 0 → ((gd.tio.cc veol).toNat : Int) = eos % 256
  same : base.SameBut gd.tio

/-- Attributes that a raw line has. -/
structure Termios.Raw (tio : Termios) : Prop where
  canon : ¬ tio.Canonical
  min : tio.cc vmin = 1
  time : tio.cc vtime = 0

/-- Words whose bits are the same are the same. -/
theorem eq_of_bits {left right : UInt32}
    (bits : ∀ i, left.toBitVec.getLsbD i = right.toBitVec.getLsbD i) : left = right :=
  UInt32.toBitVec_inj.mp (BitVec.eq_of_getLsbD_eq fun i _ => bits i)

/-- Setting a mask and clearing it. -/
theorem or_and_not (flags mask : UInt32) : (flags ||| mask) &&& ~~~mask = flags &&& ~~~mask := by
  apply eq_of_bits
  intro i
  simp only [UInt32.toBitVec_and, UInt32.toBitVec_or, UInt32.toBitVec_not, BitVec.getLsbD_and,
    BitVec.getLsbD_or, BitVec.getLsbD_not]
  cases mask.toBitVec.getLsbD i <;> simp

/-- A mask that was set is set. -/
theorem or_and_self (flags mask : UInt32) : (flags ||| mask) &&& mask = mask := by
  apply eq_of_bits
  intro i
  simp [Bool.and_or_distrib_right]

/-- A mask that was cleared is clear. -/
theorem and_not_and (flags mask : UInt32) : flags &&& ~~~mask &&& mask = 0 := by
  apply eq_of_bits
  intro i
  simp [Bool.and_assoc]

/-- A mask that was cleared can be cleared again. -/
theorem and_not_and_not (flags mask : UInt32) :
    flags &&& ~~~mask &&& ~~~mask = flags &&& ~~~mask := by
  rw [UInt32.and_assoc, UInt32.and_self]

/-- A character is stored in a byte. -/
theorem toNat_ofInt (c : Int) : ((UInt8.ofInt c).toNat : Int) = c % 256 := by
  have low : 0 ≤ c % 256 := Int.emod_nonneg c (by decide)
  have high : c % 256 < 256 := Int.emod_lt_of_pos c (by decide)
  have byte : (c % 256).toNat < 2 ^ 8 := by omega
  change ((UInt8.ofNat (c % 256).toNat).toNat : Int) = c % 256
  rw [UInt8.toNat_ofNat_of_lt' byte, Int.toNat_of_nonneg low]

/-- Canonical mode with a character. -/
theorem reflects_canon {base : Termios} {gd : Ending} {reos eos : Int}
    (serial : gd.contype = .serial) (flag : gd.reos = reos) (set : reos ≠ 0) (char : gd.eos = eos)
    (same : base.SameBut gd.tio) : Reflects base reos eos (canonSerial ⟨true, true⟩ gd).2 := by
  have canon : (gd.tio.lflag ||| icanon) &&& icanon ≠ 0 := by
    rw [or_and_self]
    decide
  refine ⟨serial, flag, char, iff_of_true canon set, fun _ => ?_, ?_⟩
  · rw [← toNat_ofInt, ← char]
    rfl
  · refine ⟨same.iflag, same.oflag, same.cflag, ?_, ?_, same.ispeed, same.ospeed⟩
    · exact (or_and_not _ _).trans same.lflag
    · intro slot line file
      have kept := same.cc slot line file
      simp [canonSerial, changeAttrs, canonAttrs, Termios.setCc, line, file, kept]

/-- Raw mode. -/
theorem reflects_raw {base : Termios} (raw : base.Raw) {gd : Ending} {eos : Int}
    (serial : gd.contype = .serial) (flag : gd.reos = 0) (char : gd.eos = eos)
    (same : base.SameBut gd.tio) : Reflects base 0 eos (rawSerial ⟨true, true⟩ gd).2 := by
  have plain : ¬ (gd.tio.lflag &&& ~~~icanon) &&& icanon ≠ 0 := by
    rw [and_not_and]
    exact not_not.mpr rfl
  refine ⟨serial, flag, char, iff_of_false plain (not_not.mpr rfl), ?_, ?_⟩
  · intro nonzero
    exact absurd rfl nonzero
  · refine ⟨same.iflag, same.oflag, same.cflag, ?_, ?_, same.ispeed, same.ospeed⟩
    · exact (and_not_and_not _ _).trans same.lflag
    · intro slot line file
      have kept := same.cc slot line file
      by_cases time : slot = vtime
      · subst time
        simp [rawSerial, changeAttrs, rawAttrs, Termios.setCc, raw.time]
      · by_cases min : slot = vmin
        · subst min
          simp [rawSerial, changeAttrs, rawAttrs, Termios.setCc, raw.min, time]
        · simp [rawSerial, changeAttrs, rawAttrs, Termios.setCc, time, min, kept]

/-- A call keeps what the line reflects up to date. -/
theorem reflects_apply {base : Termios} (raw : base.Raw) {gd : Ending} {reos eos : Int}
    (reflects : Reflects base reos eos gd) (call : Setting) :
    Reflects base (call.flag?.getD reos) (call.char?.getD eos) (call.apply ⟨true, true⟩ gd) := by
  cases call with
  | reos flag =>
    rw [Setting.apply, instSetReos, reflects.serial]
    by_cases set : flag ≠ 0
    · simp only [if_pos set]
      exact reflects_canon rfl rfl set reflects.char reflects.same
    · simp only [if_neg set]
      have zero : flag = 0 := not_not.mp set
      subst zero
      exact reflects_raw raw rfl rfl reflects.char reflects.same
  | eos c =>
    rw [Setting.apply, instSetEos, reflects.serial]
    by_cases set : gd.reos ≠ 0
    · simp only [if_pos set]
      exact reflects_canon rfl reflects.flag (reflects.flag ▸ set) rfl reflects.same
    · simp only [if_neg set]
      have zero : reos = 0 := reflects.flag ▸ not_not.mp set
      refine ⟨rfl, reflects.flag, rfl, reflects.mode, ?_, reflects.same⟩
      intro nonzero
      exact absurd zero nonzero

/-- The flag that was set last, by `inst_set_reos` or when the instrument was made. -/
def lastFlag (calls : List Setting) : Int := (calls.filterMap Setting.flag?).getLastD 0

/-- The character that was set last, by `inst_set_eos` or when the instrument was made. -/
def lastChar (calls : List Setting) : Int := (calls.filterMap Setting.char?).getLastD 10

/-- Calls keep what the line reflects up to date. -/
theorem reflects_run {base : Termios} (raw : base.Raw) (calls : List Setting) {gd : Ending}
    {reos eos : Int} (reflects : Reflects base reos eos gd) :
    Reflects base ((calls.filterMap Setting.flag?).getLastD reos)
      ((calls.filterMap Setting.char?).getLastD eos)
      (run (fun gd call => Setting.apply ⟨true, true⟩ gd call) gd calls) := by
  induction calls generalizing gd reos eos with
  | nil => exact reflects
  | cons call calls ih =>
    rw [Folds.getLastD_filterMap, Folds.getLastD_filterMap]
    exact ih (reflects_apply raw reflects call)

/-- `_init_serial` leaves a raw line. -/
theorem initAttrs_raw (tio : Termios) : (initAttrs tio).Raw where
  canon := by
    have outside : ~~~(icanon ||| echo ||| echoe ||| isig) &&& icanon = 0 := by decide
    have clear : tio.lflag &&& ~~~(icanon ||| echo ||| echoe ||| isig) &&& icanon = 0 := by
      rw [UInt32.and_assoc, outside, UInt32.and_zero]
    exact not_not.mpr clear
  min := rfl
  time := rfl

/-- What `_init_serial` returns is a serial instrument whose line is raw. -/
theorem initSerial_reflects {tty : Tty} {flags : List Char} {gd : Ending}
    (started : initSerial tty flags = some gd) : gd.tio.Raw ∧ Reflects gd.tio 0 10 gd := by
  have made : ∃ tio, newInst .serial (initAttrs tio) = gd := by
    unfold initSerial at started
    split at started
    · cases started
    · split at started
      · cases started
      · obtain ⟨_, _, started⟩ := Option.bind_eq_some_iff.mp started
        obtain ⟨_, _, started⟩ := Option.bind_eq_some_iff.mp started
        obtain ⟨_, _, started⟩ := Option.bind_eq_some_iff.mp started
        obtain ⟨_, _, started⟩ := Option.bind_eq_some_iff.mp started
        obtain ⟨tio, _, started⟩ := Option.bind_eq_some_iff.mp started
        split at started
        · cases started
        · exact ⟨tio, Option.some.inj started⟩
  obtain ⟨tio, rfl⟩ := made
  have raw := initAttrs_raw tio
  refine ⟨raw, rfl, rfl, rfl, iff_of_false raw.canon (not_not.mpr rfl), ?_, ?_⟩
  · intro nonzero
    exact absurd rfl nonzero
  · exact ⟨rfl, rfl, rfl, rfl, fun _ _ _ => rfl, rfl, rfl⟩

/-- Serial instruments are those that `_init_serial` returns. -/
theorem opened_serial {other : Attempt → Bool} {ttys : List Char → Tty} {attempt : Attempt}
    {gd : Ending} (returned : opened other ttys attempt = some gd) (serial : gd.contype = .serial) :
    ∃ tty flags, initSerial tty flags = some gd := by
  cases attempt with
  | serial device flags => exact ⟨ttys device, flags, returned⟩
  | socket host port => cases returned
  | gpib board pad sad =>
    rw [opened] at returned
    split at returned
    · cases returned
      cases serial
    · cases returned
  | vxi name =>
    rw [opened] at returned
    split at returned
    · cases returned
      cases serial
    · cases returned

/-- The line of a serial instrument is canonical exactly when the last flag is set, and then ends
lines at the last character; nothing else of it is changed. -/
theorem serial_reflects {isChr : List Char → Bool} {other : Attempt → Bool}
    {ttys : List Char → Tty} {addr : List Char} {gd : Ending}
    (returned : (instInit isChr (opened other ttys) addr).2 = some gd)
    (serial : gd.contype = .serial) (calls : List Setting) :
    let after := run (fun gd call => Setting.apply ⟨true, true⟩ gd call) gd calls
    (after.tio.Canonical ↔ lastFlag calls ≠ 0) ∧
      (after.tio.Canonical → ((after.tio.cc veol).toNat : Int) = lastChar calls % 256) ∧
      gd.tio.SameBut after.tio := by
  intro after
  obtain ⟨attempt, _, opens⟩ := Option.bind_eq_some_iff.mp returned
  obtain ⟨tty, flags, started⟩ := opened_serial opens serial
  obtain ⟨raw, first⟩ := initSerial_reflects started
  have reflects : Reflects gd.tio (lastFlag calls) (lastChar calls) after :=
    reflects_run raw calls first
  exact ⟨reflects.mode, fun canon => reflects.ends (reflects.mode.mp canon), reflects.same⟩

/-- A terminal whose attributes are all zero. -/
def zeroTty : Tty := ⟨true, true, true, ⟨true, true⟩, ⟨0, 0, 0, 0, fun _ => 0, 0, 0⟩⟩

/-- A line whose character is set before its flag. -/
theorem serial_reflects_eos_reos :
    ∃ gd, (instInit (fun _ => true) (opened (fun _ => false) fun _ => zeroTty) ['/', 't']).2 =
        some gd ∧
      let after := run (fun gd call => Setting.apply ⟨true, true⟩ gd call) gd [.eos 13, .reos 1]
      (after.tio.Canonical ↔ lastFlag [.eos 13, .reos 1] ≠ 0) ∧
        (after.tio.Canonical →
          ((after.tio.cc veol).toNat : Int) = lastChar [.eos 13, .reos 1] % 256) ∧
        gd.tio.SameBut after.tio :=
  ⟨_, rfl, @serial_reflects (fun _ => true) (fun _ => false) (fun _ => zeroTty) ['/', 't'] _ rfl
    rfl _⟩

end GpibUtils.Inst
