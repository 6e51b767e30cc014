import GpibUtils.CSem.Scan
import Mathlib.Data.List.TakeWhile

/-!
# Instrument addresses

`inst_init` finds out what kind of address it is given by a chain of tests, and opens the
instrument. The grammar of addresses is the one of the manual page: its forms are values here,
each with the text it is written as and the instrument it names. `instInit_opens_iff` says for
which forms the chain ends where it should.
-/

namespace GpibUtils.Inst

open CSem

/-! ## The dispatch -/

/-- An attempt to open an instrument, with its parameters. -/
inductive Attempt where
  /-- `_init_gpib` -/
  | gpib (board pad sad : Int)
  /-- `_init_serial` -/
  | serial (device flags : List Char)
  /-- `_init_socket` -/
  | socket (host port : List Char)
  /-- `_init_vxi` -/
  | vxi (name : List Char)
  deriving DecidableEq

/-- `"%d:%d,%d"` -/
def formatBoardPadSad : List Directive := [.int, .lit ':', .int, .lit ',', .int]
/-- `"%d:%d"` -/
def formatBoardPad : List Directive := [.int, .lit ':', .int]
/-- `"%d,%d"` -/
def formatPadSad : List Directive := [.int, .lit ',', .int]
/-- `"9600,8n1"` -/
def defaultFlags : List Char := ['9', '6', '0', '0', ',', '8', 'n', '1']

/-- The tests of `inst_init` for devices and hosts. `isChr` tells whether a path is that of a
character device; `*sfx` is what follows the first colon. -/
def initNamed (isChr : List Char → Bool) (addr : List Char) : List Attempt :=
  if isChr addr then [.serial addr defaultFlags]
  else
    match addr.dropWhile (· ≠ ':') with
    | [] => []
    | _ :: sfx =>
      let cpy := addr.takeWhile (· ≠ ':')
      if isChr cpy then [.serial cpy sfx]
      else if 0 < (strtoul sfx).1 ∧ (strtoul sfx).2 = [] then [.socket cpy sfx]
      else [.vxi addr]

/-- The chain of tests of `inst_init`, without the first test. -/
def initChain (isChr : List Char → Bool) (addr : List Char) : List Attempt :=
  match sscanf formatBoardPad addr with
  | [board, pad] => [.gpib board pad 0]
  | _ =>
    match sscanf formatPadSad addr with
    | [pad, sad] => [.gpib 0 pad (toInt (0x60 + sad))]
    | _ =>
      let (value, endptr) := strtoul addr
      let pad := toInt value.toNat
      if 0 ≤ pad ∧ endptr = [] then [.gpib 0 pad 0] else initNamed isChr addr

/-- The attempts of `inst_init`. The chain follows the first test whether that succeeds or not. -/
def initAttempts (isChr : List Char → Bool) (addr : List Char) : List Attempt :=
  match sscanf formatBoardPadSad addr with
  | [board, pad, sad] => .gpib board pad (toInt (0x60 + sad)) :: initChain isChr addr
  | _ => initChain isChr addr

/-- `inst_init`: the attempts made, and the instrument returned, which is that of the last. What
an attempt returns is given by `opened`. -/
def instInit {ι : Type} (isChr : List Char → Bool) (opened : Attempt → Option ι)
    (addr : List Char) : List Attempt × Option ι :=
  let attempts := initAttempts isChr addr
  (attempts, attempts.getLast?.bind opened)

/-- One attempt is made, and its instrument returned, when it is the only one. -/
theorem instInit_eq_iff {ι : Type} {isChr : List Char → Bool} {opened : Attempt → Option ι}
    {addr : List Char} {attempt : Attempt} :
    instInit isChr opened addr = ([attempt], opened attempt) ↔
      initAttempts isChr addr = [attempt] := by
  constructor
  · exact fun same => (Prod.mk.inj same).1
  · intro only
    simp [instInit, only]

/-- An address that passes one of the tests for numbers. -/
def ReadsAsGpib (addr : List Char) : Prop :=
  (sscanf formatBoardPad addr).length = 2 ∨ (sscanf formatPadSad addr).length = 2 ∨
    0 ≤ toInt (strtoul addr).1.toNat ∧ (strtoul addr).2 = []

instance (addr : List Char) : Decidable (ReadsAsGpib addr) :=
  inferInstanceAs (Decidable (_ ∨ _ ∨ _))

/-- An address that passes a test for numbers ends in a GPIB attempt. -/
theorem initChain_numeric {isChr : List Char → Bool} {addr : List Char}
    (reads : ReadsAsGpib addr) : ∃ board pad sad, initChain isChr addr = [.gpib board pad sad] := by
  unfold initChain
  split
  · exact ⟨_, _, _, rfl⟩
  · rename_i notPair
    split
    · exact ⟨_, _, _, rfl⟩
    · rename_i notSecondary
      rcases reads with pair | secondary | number
      · obtain ⟨board, pad, values⟩ := List.length_eq_two.mp pair
        exact absurd values (notPair board pad)
      · obtain ⟨pad, sad, values⟩ := List.length_eq_two.mp secondary
        exact absurd values (notSecondary pad sad)
      · exact ⟨_, _, _, if_pos number⟩

/-- Any other address is that of a device or a host. -/
theorem initChain_named {isChr : List Char → Bool} {addr : List Char}
    (other : ¬ReadsAsGpib addr) : initChain isChr addr = initNamed isChr addr := by
  simp only [ReadsAsGpib, not_or] at other
  obtain ⟨notPair, notSecondary, notNumber⟩ := other
  unfold initChain
  split
  · rename_i values
    simp [values] at notPair
  · split
    · rename_i values
      simp [values] at notSecondary
    · exact if_neg notNumber

/-- The first test makes an attempt of its own only where the second does. -/
theorem initAttempts_eq_chain {isChr : List Char → Bool} {addr : List Char}
    (notPair : (sscanf formatBoardPad addr).length ≠ 2) :
    initAttempts isChr addr = initChain isChr addr := by
  have shorter := take_sscanf_append formatBoardPad [.lit ',', .int] addr
  unfold initAttempts
  split
  · rename_i board pad sad values
    have pair : sscanf formatBoardPad addr = [board, pad] := by
      rw [← shorter]
      change (sscanf formatBoardPadSad addr).take 2 = [board, pad]
      rw [values]
      rfl
    simp [pair] at notPair
  · rfl

/-- An attempt of another kind is the only one exactly when the tests for numbers fail and the
tests for devices and hosts make it. -/
theorem initAttempts_eq_iff {isChr : List Char → Bool} {addr : List Char} {attempt : Attempt}
    (named : ∀ board pad sad, attempt ≠ .gpib board pad sad) :
    initAttempts isChr addr = [attempt] ↔
      ¬ReadsAsGpib addr ∧ initNamed isChr addr = [attempt] := by
  by_cases reads : ReadsAsGpib addr
  · obtain ⟨board, pad, sad, chain⟩ := @initChain_numeric isChr _ reads
    have last : (initAttempts isChr addr).getLast? = some (.gpib board pad sad) := by
      unfold initAttempts
      split <;> simp [chain]
    refine ⟨fun only => ?_, fun both => absurd reads both.1⟩
    rw [only] at last
    exact absurd (Option.some.inj last) (named board pad sad)
  · have notPair : (sscanf formatBoardPad addr).length ≠ 2 := fun pair => reads (.inl pair)
    rw [initAttempts_eq_chain notPair, initChain_named reads]
    simp [reads]

/-! ## The grammar of addresses -/

/-- A decimal number. -/
structure Decimal (s : List Char) : Prop where
  nonempty : s ≠ []
  digits : ∀ c ∈ s, c.isDigit = true

instance (s : List Char) : Decidable (Decimal s) :=
  decidable_of_iff (s ≠ [] ∧ s.all Char.isDigit = true)
    ⟨fun both => ⟨both.1, List.all_eq_true.mp both.2⟩,
      fun decimal => ⟨decimal.nonempty, List.all_eq_true.mpr decimal.digits⟩⟩

/-- A decimal number that fits an `int`. -/
structure Field (s : List Char) : Prop extends Decimal s where
  fits : (digitsValue s : Int) ≤ intMax

instance (s : List Char) : Decidable (Field s) :=
  decidable_of_iff (Decimal s ∧ (digitsValue s : Int) ≤ intMax)
    ⟨fun both => ⟨both.1, both.2⟩, fun field => ⟨field.toDecimal, field.fits⟩⟩

/-- The name of a host or of an instrument: it has no colon and no comma, and begins with neither
white space nor a sign. -/
structure Name (s : List Char) : Prop where
  nonempty : s ≠ []
  first : ∀ c ∈ s.head?, isSpace c = false ∧ c ≠ '+' ∧ c ≠ '-'
  inner : ∀ c ∈ s, c ≠ ':' ∧ c ≠ ','

/-- The forms of an address. -/
inductive Form where
  /-- `[board:]primary[,secondary]` -/
  | gpib (board : Option (List Char)) (primary : List Char) (secondary : Option (List Char))
  /-- `device[:flags]` -/
  | serial (device : List Char) (flags : Option (List Char))
  /-- `hostname:port` -/
  | socket (hostname port : List Char)
  /-- `hostname:instr[,primary[,secondary]]`; `fields` are the numbers after `instr`. -/
  | vxi (hostname instr : List Char) (fields : List (List Char))

/-- The address as written. -/
def Form.text : Form → List Char
  | .gpib board primary secondary =>
    board.elim [] (· ++ [':']) ++ primary ++ secondary.elim [] (',' :: ·)
  | .serial device flags => device ++ flags.elim [] (':' :: ·)
  | .socket hostname port => hostname ++ ':' :: port
  | .vxi hostname instr fields => hostname ++ ':' :: (instr ++ fields.flatMap (',' :: ·))

/-- The grammar: which forms are addresses, where `isChr` tells the character devices. -/
def Form.Valid (isChr : List Char → Bool) : Form → Prop
  | .gpib board primary secondary =>
    (∀ b ∈ board, Field b) ∧ Field primary ∧ ∀ s ∈ secondary, Field s
  | .serial device _ => isChr device = true
  | .socket hostname port => Name hostname ∧ Decimal port ∧ 0 < digitsValue port
  | .vxi hostname instr fields =>
    (Name hostname ∧ ¬Decimal hostname) ∧ (Name instr ∧ ¬Decimal instr) ∧
      fields.length ≤ 2 ∧ ∀ field ∈ fields, Decimal field

/-- The instrument that an address names. -/
def Form.names : Form → Attempt
  | .gpib board primary secondary =>
    .gpib (board.elim 0 fun b => digitsValue b) (digitsValue primary)
      (secondary.elim 0 fun s => 0x60 + digitsValue s)
  | .serial device flags => .serial device (flags.getD defaultFlags)
  | .socket hostname port => .socket hostname port
  | .vxi hostname instr fields => .vxi (Form.vxi hostname instr fields).text

/-- No test of `inst_init` mistakes the form for another, and a secondary address comes without
a board and leaves the `int` room for `0x60`. -/
def Form.Distinct (isChr : List Char → Bool) : Form → Prop
  | .gpib board _ secondary => ∀ s ∈ secondary, board = none ∧ 0x60 + (digitsValue s : Int) ≤ intMax
  | .serial device none => ¬ReadsAsGpib device
  | .serial device (some flags) =>
    ¬ReadsAsGpib (device ++ ':' :: flags) ∧ isChr (device ++ ':' :: flags) = false ∧ ':' ∉ device
  | .socket hostname port =>
    ¬Decimal hostname ∧ isChr (hostname ++ ':' :: port) = false ∧ isChr hostname = false
  | .vxi hostname instr fields =>
    isChr (Form.vxi hostname instr fields).text = false ∧ isChr hostname = false

/-! ## Numbers and names -/

/-- A field is read up to the character that ends it. -/
theorem Field.scan {s rest : List Char} (field : Field s)
    (ends : ∀ c ∈ rest.head?, c.isDigit = false) :
    scanInt (s ++ rest) = some ((digitsValue s : Int), rest) :=
  scanInt_fits field.nonempty field.digits ends field.fits

/-- A field at the end is read whole. -/
theorem Field.scan_end {s : List Char} (field : Field s) :
    scanInt s = some ((digitsValue s : Int), []) := by
  simpa using @Field.scan s [] field (by simp)

/-- A name that is no number has a character that ends the number it may begin with. -/
theorem Name.stops {s : List Char} (name : Name s) (notDecimal : ¬Decimal s) (tail : List Char) :
    ∃ d rest, (s ++ tail).dropWhile Char.isDigit = d :: rest ∧ d ≠ ':' ∧ d ≠ ',' := by
  cases after : s.dropWhile Char.isDigit with
  | nil => exact absurd ⟨name.nonempty, List.dropWhile_eq_nil_iff.mp after⟩ notDecimal
  | cons d rest =>
    have member : d ∈ s := (List.dropWhile_sublist _).subset (after ▸ List.mem_cons_self)
    exact ⟨d, rest ++ tail, by simp [List.dropWhile_append, after], name.inner d member⟩

/-- What follows a name begins as the name does. -/
theorem Name.first_append {s : List Char} (name : Name s) (tail : List Char) :
    ∀ c ∈ (s ++ tail).head?, isSpace c = false ∧ c ≠ '+' ∧ c ≠ '-' := by
  have same : (s ++ tail).head? = s.head? := by
    cases s with
    | nil => exact absurd rfl name.nonempty
    | cons c s => rfl
  rw [same]
  exact name.first

/-- `strtoul` does not reach the end of what begins with a name that is no number. -/
theorem Name.strtoul {s : List Char} (name : Name s) (notDecimal : ¬Decimal s)
    (tail : List Char) : (strtoul (s ++ tail)).2 ≠ [] := by
  obtain ⟨d, rest, after, -⟩ := name.stops notDecimal tail
  rw [CSem.strtoul, numeralOf_plain (name.first_append tail)]
  dsimp only
  split
  · simp [name.nonempty]
  · simp [after]

/-- What begins with a name that is no number passes no test for numbers. -/
theorem Name.not_reads {s : List Char} (name : Name s) (notDecimal : ¬Decimal s)
    (tail : List Char) : ¬ReadsAsGpib (s ++ tail) := by
  obtain ⟨d, rest, after, notColon, notComma⟩ := name.stops notDecimal tail
  have pair := sscanf_stuck [.int] (name.first_append tail) after notColon
  have secondary := sscanf_stuck [.int] (name.first_append tail) after notComma
  simp only [ReadsAsGpib, formatBoardPad, formatPadSad, not_or, not_and]
  exact ⟨by omega, by omega, fun _ => name.strtoul notDecimal tail⟩

/-- A number with another behind a colon passes the test for a board. -/
theorem Decimal.reads {s t : List Char} (first : Decimal s) (second : Decimal t) :
    ReadsAsGpib (s ++ ':' :: t) := by
  have board := @scanInt_digits s (':' :: t) first.nonempty first.digits (by simp)
  have pad := @scanInt_digits t [] second.nonempty second.digits (by simp)
  rw [List.append_nil] at pad
  exact .inl (by simp [formatBoardPad, sscanf, board, pad])

/-- `strtoul` reads a positive number to its end. -/
theorem Decimal.strtoul_pos {s : List Char} (decimal : Decimal s) (positive : 0 < digitsValue s) :
    0 < (strtoul s).1 ∧ (strtoul s).2 = [] := by
  have read := @numeralOf_digits s [] decimal.nonempty decimal.digits (by simp)
  rw [List.append_nil] at read
  simp only [strtoul, read, if_neg decimal.nonempty, and_true]
  split
  · decide
  · rename_i small
    rw [if_neg Bool.false_ne_true, UInt64.lt_iff_toNat_lt,
      UInt64.toNat_ofNat_of_lt' (Nat.not_le.mp small)]
    exact positive

/-! ## What each form opens -/

section
variable {isChr : List Char → Bool}

/-- What comes before the first colon, and what comes from it on. -/
theorem cut_colon {front sfx : List Char} (first : ':' ∉ front) :
    (front ++ ':' :: sfx).takeWhile (· ≠ ':') = front ∧
      (front ++ ':' :: sfx).dropWhile (· ≠ ':') = ':' :: sfx := by
  have inside : ∀ c ∈ front, decide (c ≠ ':') = true := by
    intro c member
    simpa using fun same : c = ':' => first (same ▸ member)
  rw [List.takeWhile_append_of_pos inside, List.dropWhile_append_of_pos inside]
  simp

/-- An address with a colon is split at the first. -/
theorem initNamed_colon {front sfx : List Char} (first : ':' ∉ front) :
    initNamed isChr (front ++ ':' :: sfx) =
      if isChr (front ++ ':' :: sfx) then [.serial (front ++ ':' :: sfx) defaultFlags]
      else if isChr front then [.serial front sfx]
      else if 0 < (strtoul sfx).1 ∧ (strtoul sfx).2 = [] then [.socket front sfx]
      else [.vxi (front ++ ':' :: sfx)] := by
  rw [initNamed, (cut_colon first).2, (cut_colon first).1]

/-- A secondary address is passed on when the `int` has room for `0x60`. -/
theorem toInt_secondary {s : List Char} :
    toInt (0x60 + (digitsValue s : Int)) = 0x60 + (digitsValue s : Int) ↔
      0x60 + (digitsValue s : Int) ≤ intMax := by
  constructor
  · intro same
    exact same ▸ (toInt_range _).2
  · exact toInt_of_range (by omega)

/-- GPIB addresses without a board and a secondary address. -/
theorem initAttempts_primary (isChr : List Char → Bool) {p : List Char} (primary : Field p) :
    initAttempts isChr p = [.gpib 0 (digitsValue p) 0] := by
  have scan := primary.scan_end
  have small := primary.fits
  unfold intMax at small
  have fits : digitsValue p < 2 ^ 64 := by omega
  have word : strtoul p = (UInt64.ofNat (digitsValue p), []) := by
    have read := @strtoul_digits p [] primary.nonempty primary.digits (by simp) fits
    rwa [List.append_nil] at read
  have pad : toInt (UInt64.ofNat (digitsValue p)).toNat = digitsValue p := by
    rw [UInt64.toNat_ofNat_of_lt' fits]
    exact toInt_of_range (by omega) primary.fits
  have notPair : sscanf formatBoardPad p = [(digitsValue p : Int)] := by
    simp [formatBoardPad, sscanf, scan]
  have notSecondary : sscanf formatPadSad p = [(digitsValue p : Int)] := by
    simp [formatPadSad, sscanf, scan]
  rw [initAttempts_eq_chain (by simp [notPair])]
  simp only [initChain, notPair, notSecondary, word, pad, and_true]
  exact if_pos (Int.natCast_nonneg _)

/-- With a board. -/
theorem initAttempts_board (isChr : List Char → Bool) {b p : List Char} (board : Field b)
    (primary : Field p) :
    initAttempts isChr (b ++ ':' :: p) = [.gpib (digitsValue b) (digitsValue p) 0] := by
  have first := @Field.scan b (':' :: p) board (by simp)
  have second := primary.scan_end
  simp [initAttempts, initChain, formatBoardPadSad, formatBoardPad, sscanf, first, second]

/-- With a secondary address. -/
theorem initAttempts_secondary (isChr : List Char → Bool) {p s : List Char} (primary : Field p)
    (secondary : Field s) :
    initAttempts isChr (p ++ ',' :: s) =
      [.gpib 0 (digitsValue p) (toInt (0x60 + digitsValue s))] := by
  have first := @Field.scan p (',' :: s) primary (by simp)
  have second := secondary.scan_end
  simp [initAttempts, initChain, formatBoardPadSad, formatBoardPad, formatPadSad, sscanf, first,
    second]

/-- With both, the chain makes an attempt without the secondary address after the first test
has made the one with it. -/
theorem initAttempts_twice (isChr : List Char → Bool) {b p s : List Char} (board : Field b)
    (primary : Field p) (secondary : Field s) :
    initAttempts isChr (b ++ ':' :: (p ++ ',' :: s)) =
      [.gpib (digitsValue b) (digitsValue p) (toInt (0x60 + digitsValue s)),
        .gpib (digitsValue b) (digitsValue p) 0] := by
  have first := @Field.scan b (':' :: (p ++ ',' :: s)) board (by simp)
  have second := @Field.scan p (',' :: s) primary (by simp)
  have third := secondary.scan_end
  simp [initAttempts, initChain, formatBoardPadSad, formatBoardPad, sscanf, first, second, third]

/-- GPIB addresses name one instrument and open it, but for those with a board and a secondary
address. -/
theorem initAttempts_gpib {board secondary : Option (List Char)} {primary : List Char}
    (valid : (Form.gpib board primary secondary).Valid isChr) :
    initAttempts isChr (Form.gpib board primary secondary).text =
        [(Form.gpib board primary secondary).names] ↔
      (Form.gpib board primary secondary).Distinct isChr := by
  obtain ⟨isBoard, isPrimary, isSecondary⟩ := valid
  cases board with
  | none =>
    cases secondary with
    | none => simp [Form.text, Form.names, Form.Distinct, initAttempts_primary isChr isPrimary]
    | some s =>
      have opens := initAttempts_secondary isChr isPrimary (isSecondary s rfl)
      simpa [Form.text, Form.names, Form.Distinct, opens] using toInt_secondary (s := s)
  | some b =>
    cases secondary with
    | none =>
      have opens := initAttempts_board isChr (isBoard b rfl) isPrimary
      simp [Form.text, Form.names, Form.Distinct, opens]
    | some s =>
      have opens := initAttempts_twice isChr (isBoard b rfl) isPrimary (isSecondary s rfl)
      simp [Form.text, Form.names, Form.Distinct, opens]

/-- Addresses of devices. -/
theorem initAttempts_serial {device : List Char} {flags : Option (List Char)}
    (valid : (Form.serial device flags).Valid isChr) :
    initAttempts isChr (Form.serial device flags).text = [(Form.serial device flags).names] ↔
      (Form.serial device flags).Distinct isChr := by
  have isDevice : isChr device = true := valid
  rw [initAttempts_eq_iff (by simp [Form.names])]
  cases flags with
  | none => simp [Form.text, Form.names, Form.Distinct, initNamed, isDevice]
  | some flags =>
    simp only [Form.text, Form.names, Form.Distinct, Option.elim_some, Option.getD_some]
    apply and_congr_right
    intro _
    cases whole : isChr (device ++ ':' :: flags) with
    | true =>
      have longer : device ++ ':' :: flags ≠ device := by simp
      simp [initNamed, whole, longer]
    | false =>
      by_cases colon : ':' ∈ device
      · obtain ⟨front, back, rfl, first⟩ := List.eq_append_cons_of_mem colon
        rw [List.append_assoc, List.cons_append] at whole ⊢
        rw [initNamed_colon first, whole]
        cases shorter : isChr front with
        | true => simp
        | false =>
          simp only [Bool.false_eq_true, if_false]
          split <;> simp
      · simp [initNamed_colon colon, whole, isDevice, colon]

/-- Addresses of sockets. -/
theorem initAttempts_socket {hostname port : List Char}
    (valid : (Form.socket hostname port).Valid isChr) :
    initAttempts isChr (Form.socket hostname port).text = [(Form.socket hostname port).names] ↔
      (Form.socket hostname port).Distinct isChr := by
  obtain ⟨name, decimal, positive⟩ := valid
  have first : ':' ∉ hostname := fun member => (name.inner ':' member).1 rfl
  have number := decimal.strtoul_pos positive
  rw [initAttempts_eq_iff (by simp [Form.names])]
  simp only [Form.text, Form.names, Form.Distinct, initNamed_colon first, number]
  by_cases digits : Decimal hostname
  · simp [digits, digits.reads decimal]
  · simp only [name.not_reads digits, digits, not_false_eq_true, true_and]
    cases isChr (hostname ++ ':' :: port) <;> cases isChr hostname <;> simp

/-- Addresses of VXI-11 instruments. -/
theorem initAttempts_vxi {hostname instr : List Char} {fields : List (List Char)}
    (valid : (Form.vxi hostname instr fields).Valid isChr) :
    initAttempts isChr (Form.vxi hostname instr fields).text =
        [(Form.vxi hostname instr fields).names] ↔
      (Form.vxi hostname instr fields).Distinct isChr := by
  obtain ⟨⟨host, notDigits⟩, ⟨name, notDecimal⟩, -⟩ := valid
  have first : ':' ∉ hostname := fun member => (host.inner ':' member).1 rfl
  have number := name.strtoul notDecimal (fields.flatMap (',' :: ·))
  rw [initAttempts_eq_iff (by simp [Form.names])]
  simp only [Form.text, Form.names, Form.Distinct, initNamed_colon first, number,
    host.not_reads notDigits, not_false_eq_true, true_and, and_false, if_false]
  cases isChr (hostname ++ ':' :: (instr ++ fields.flatMap (',' :: ·))) <;>
    cases isChr hostname <;> simp

/-- An address of the grammar makes `inst_init` attempt to open the instrument it names, once and
nothing else, exactly when no test mistakes it for another. -/
theorem instInit_opens_iff {ι : Type} (opened : Attempt → Option ι) {form : Form}
    (valid : form.Valid isChr) :
    instInit isChr opened form.text = ([form.names], opened form.names) ↔ form.Distinct isChr := by
  rw [instInit_eq_iff]
  cases form with
  | gpib board primary secondary => exact initAttempts_gpib valid
  | serial device flags => exact initAttempts_serial valid
  | socket hostname port => exact initAttempts_socket valid
  | vxi hostname instr fields => exact initAttempts_vxi valid

end

/-- A GPIB device behind a gateway is opened by the name of the gateway. -/
theorem instInit_opens_gateway :
    let form := Form.vxi ['g', 'w', '2'] ['g', 'p', 'i', 'b', '0'] [['2'], ['3', '0']]
    instInit (fun _ => false) (fun _ => some ()) form.text = ([.vxi form.text], some ()) := by
  intro form
  have host : Name ['g', 'w', '2'] := ⟨by simp, by simp [isSpace], by simp⟩
  have instr : Name ['g', 'p', 'i', 'b', '0'] := ⟨by simp, by simp [isSpace], by simp⟩
  have valid : form.Valid fun _ => false :=
    ⟨⟨host, by decide⟩, ⟨instr, by decide⟩, by decide, by decide⟩
  exact (instInit_opens_iff (fun _ => some ()) valid).mpr ⟨rfl, rfl⟩

/-- Secondary address 7 of primary address 5 on board 0 is opened, and then primary address 5
without a secondary address, which is the one returned. -/
theorem instInit_opens_twice :
    let form := Form.gpib (some ['0']) ['5'] (some ['7'])
    form.Valid (fun _ => false) ∧
      instInit (fun _ => false) some form.text =
        ([.gpib 0 5 0x67, .gpib 0 5 0], some (.gpib 0 5 0)) ∧
      instInit (fun _ => false) some form.text ≠ ([form.names], some form.names) :=
  ⟨⟨by decide, by decide, by decide⟩, by decide, by decide⟩

end GpibUtils.Inst
