import GpibUtils.Folds
import GpibUtils.Keyed
import GpibUtils.Words

/-!
# The configuration file

`cf_create` reads a table of instruments from a file. The parser of the file calls `parse_cb` for
each name and value in a section; the record of a section is made when it is first named, and
changed whenever it is named again. So the table is what the events of each section have made of a
new record, if every event is allowed (`cfCreate_folds`).
-/

namespace GpibUtils.Inst

open Words

/-! ## The code -/

/-- `GPIB_FLAG_REOS` -/
def gpibFlagReos : UInt32 := 1

/-- `MAX_GPIB_NAME` -/
def maxGpibName : Nat := 64
/-- `MAX_GPIB_ADDR` -/
def maxGpibAddr : Nat := 128
/-- `MAX_GPIB_MAKE` -/
def maxGpibMake : Nat := 64
/-- `MAX_GPIB_MODEL` -/
def maxGpibModel : Nat := 64
/-- `MAX_GPIB_IDNCMD` -/
def maxGpibIdncmd : Nat := 64

/-- `struct cf_instrument`, with strings for its arrays; nothing sets `eos`. -/
structure CfInstrument where
  name : List Char
  addr : List Char
  make : List Char
  model : List Char
  idncmd : List Char
  flags : UInt32
  deriving DecidableEq

/-- `snprintf` of a string into an array of some size. -/
def snprintf (size : Nat) (s : List Char) : List Char := s.take (size - 1)

/-- A hash table of records by the name that is in them. -/
structure Db where
  find : List Char → Option CfInstrument
  named : ∀ name cfi, find name = some cfi → cfi.name = name

/-- The table of `hash_create`. -/
def Db.empty : Db := ⟨fun _ => none, fun _ _ found => nomatch found⟩

/-- The table after a record has been put or changed in it. -/
def Db.store (db : Db) (cfi : CfInstrument) : Db where
  find := Function.update db.find cfi.name (some cfi)
  named name other found := by
    by_cases same : name = cfi.name
    · rw [same, Function.update_self] at found
      rw [← Option.some.inj found, same]
    · rw [Function.update_of_ne same] at found
      exact db.named name other found

/-- `hash_insert`, which fails where there is a record with the name. -/
def hashInsert (db : Db) (cfi : CfInstrument) : Option Db :=
  if (db.find cfi.name).isSome then none else some (db.store cfi)

/-- The record that `cfi_create` puts into the table. -/
def newInstrument (name : List Char) : CfInstrument :=
  ⟨snprintf maxGpibName name, [], [], [], [], 0⟩

/-- `cfi_create` -/
def cfiCreate (db : Db) (name : List Char) : Option (CfInstrument × Db) :=
  (hashInsert db (newInstrument name)).map fun db => (newInstrument name, db)

/-- The tokens that `strtok_r` finds. -/
def strtok (delim : Char) (s : List Char) : List (List Char) := words (· == delim) s

/-- The loop of `parse_flags` over the tokens: what is returned, and the flags. -/
def parseFlagsLoop : List (List Char) → UInt32 → Int × UInt32
  | [], fp => (0, fp)
  | flag :: more, fp =>
    if flag = "reos".toList then parseFlagsLoop more (fp ||| gpibFlagReos) else (-1, fp)

/-- `parse_flags` -/
def parseFlags (flags : List Char) (fp : UInt32) : Int × UInt32 :=
  parseFlagsLoop (strtok ',' flags) fp

/-- An attribute of an instrument. -/
inductive Attr where
  | address
  | manufacturer
  | model
  | idn
  | flags
  deriving DecidableEq

/-- The name of an attribute. -/
def Attr.text : Attr → List Char
  | .address => "address".toList
  | .manufacturer => "manufacturer".toList
  | .model => "model".toList
  | .idn => "idn".toList
  | .flags => "flags".toList

/-- The comparisons of `parse_cb`: which attribute a name is. -/
def attrOf (name : List Char) : Option Attr :=
  if name = Attr.address.text then some .address
  else if name = Attr.manufacturer.text then some .manufacturer
  else if name = Attr.model.text then some .model
  else if name = Attr.idn.text then some .idn
  else if name = Attr.flags.text then some .flags
  else none

/-- The branches of `parse_cb`: whether it goes well, and the record. -/
def setAttr (attr : Attr) (value : List Char) (cfi : CfInstrument) : Bool × CfInstrument :=
  match attr with
  | .address => (true, { cfi with addr := snprintf maxGpibAddr value })
  | .manufacturer => (true, { cfi with make := snprintf maxGpibMake value })
  | .model => (true, { cfi with model := snprintf maxGpibModel value })
  | .idn => (true, { cfi with idncmd := snprintf maxGpibIdncmd value })
  | .flags =>
    let (res, flags) := parseFlags value cfi.flags
    (decide (0 ≤ res), { cfi with flags })

/-- A name and a value that the parser delivers, the section they are in, and how many lines come
before. -/
structure IniEvent where
  before : Nat
  sect : List Char
  name : List Char
  value : List Char

/-- The first part of `parse_cb`: the record of a section, found or created, and the table. -/
def findOrCreate (db : Db) (name : List Char) : Option (CfInstrument × Db) :=
  match db.find name with
  | some cfi => some (cfi, db)
  | none => cfiCreate db name

/-- `parse_cb`: whether it returns 1, and the table. -/
def parseCb (db : Db) (event : IniEvent) : Bool × Db :=
  match findOrCreate db event.sect with
  | none => (false, db)
  | some (cfi, db) =>
    match attrOf event.name with
    | none => (false, db)
    | some attr =>
      let (ok, cfi) := setAttr attr event.value cfi
      (ok, db.store cfi)

/-- The calls that `ini_parse` makes of its handler, of which the first that fails gives its line;
it goes on after that. -/
def iniEvents {σ : Type} (handler : σ → IniEvent → Bool × σ) :
    List IniEvent → Int → σ → Int × σ
  | [], error, user => (error, user)
  | event :: events, error, user =>
    let (ok, user) := handler user event
    let error := if ok = false ∧ error = 0 then (event.before : Int) + 1 else error
    iniEvents handler events error user

/-- `ini_parse` of a file that has been parsed into events, `none` for one that cannot be opened. -/
def iniParse {σ : Type} (handler : σ → IniEvent → Bool × σ) (file : Option (List IniEvent))
    (user : σ) : Int × σ :=
  match file with
  | none => (-1, user)
  | some events => iniEvents handler events 0 user

/-- `cf_create` -/
def cfCreate (file : Option (List IniEvent)) : Option Db :=
  let (rc, cf) := iniParse parseCb file Db.empty
  if rc = -1 then none else if 0 < rc then none else some cf

/-- `cf_lookup` -/
def cfLookup (cf : Db) (name : List Char) : Option CfInstrument := cf.find name

/-! ## What the file says -/

/-- What an item of a list of flags stands for. -/
def flagOf (item : List Char) : UInt32 := if item = "reos".toList then gpibFlagReos else 0

/-- The parts of a value that commas separate. -/
def pieces (value : List Char) : List (List Char) := value.splitOnP (· == ',')

/-- An event names an attribute, and all that is between the commas of a list of flags, if
anything, is `reos`. -/
def IniEvent.Allowed (event : IniEvent) : Prop :=
  ∃ attr : Attr, event.name = attr.text ∧
    (attr = .flags → ∀ item ∈ pieces event.value, item ≠ [] → item = "reos".toList)

/-- The values of an attribute in a section, in order. -/
def values (events : List IniEvent) (s : List Char) (attr : Attr) : List (List Char) :=
  (events.filter fun event => event.sect = s ∧ event.name = attr.text).map IniEvent.value

/-- The last value of an attribute in a section, empty if there is none. -/
def lastValue (events : List IniEvent) (s : List Char) (attr : Attr) : List Char :=
  (values events s attr).getLastD []

/-- All flags of a section. -/
def allFlags (events : List IniEvent) (s : List Char) : UInt32 :=
  (((values events s .flags).flatMap pieces).map flagOf).foldl (· ||| ·) 0

/-- A record is what the events of a section say. -/
structure Describes (events : List IniEvent) (s : List Char) (cfi : CfInstrument) : Prop where
  name : cfi.name = s
  addr : cfi.addr = (lastValue events s .address).take 127
  make : cfi.make = (lastValue events s .manufacturer).take 63
  model : cfi.model = (lastValue events s .model).take 63
  idncmd : cfi.idncmd = (lastValue events s .idn).take 63
  flags : cfi.flags = allFlags events s

/-! ## One event -/

/-- A name is that of an attribute when its text is. -/
theorem attrOf_eq_some_iff {name : List Char} {attr : Attr} :
    attrOf name = some attr ↔ name = attr.text := by
  constructor
  · intro found
    unfold attrOf at found
    split at found
    case isTrue same => exact Option.some.inj found ▸ same
    case isFalse =>
      split at found
      case isTrue same => exact Option.some.inj found ▸ same
      case isFalse =>
        split at found
        case isTrue same => exact Option.some.inj found ▸ same
        case isFalse =>
          split at found
          case isTrue same => exact Option.some.inj found ▸ same
          case isFalse =>
            split at found
            case isTrue same => exact Option.some.inj found ▸ same
            case isFalse => cases found
  · rintro rfl
    cases attr <;> rfl

/-- The tokens of flags are what is between the commas, less what is empty. -/
theorem strtok_pieces (value : List Char) :
    strtok ',' value = (pieces value).filter fun piece => !piece.isEmpty := rfl

/-- All tokens are `reos` when all that is between commas is, if it is anything. -/
theorem forall_strtok_iff {value : List Char} :
    (∀ item ∈ strtok ',' value, item = "reos".toList) ↔
      ∀ item ∈ pieces value, item ≠ [] → item = "reos".toList := by
  simp [strtok_pieces]

/-- What is empty sets no flag. -/
theorem foldl_strtok (value : List Char) (fp : UInt32) :
    ((strtok ',' value).map flagOf).foldl (· ||| ·) fp =
      ((pieces value).map flagOf).foldl (· ||| ·) fp := by
  rw [strtok_pieces]
  induction pieces value generalizing fp with
  | nil => rfl
  | cons piece more ih =>
    cases piece with
    | nil =>
      have nothing : fp ||| flagOf [] = fp := UInt32.or_zero
      rw [List.filter_cons_of_neg (by simp), ih, List.map_cons, List.foldl_cons, nothing]
    | cons c piece =>
      rw [List.filter_cons_of_pos (by simp), List.map_cons, List.foldl_cons, ih, List.map_cons,
        List.foldl_cons]

/-- Flags can be parsed exactly when every token is `reos`. -/
theorem parseFlagsLoop_nonneg_iff (tokens : List (List Char)) (fp : UInt32) :
    0 ≤ (parseFlagsLoop tokens fp).1 ↔ ∀ item ∈ tokens, item = "reos".toList := by
  induction tokens generalizing fp with
  | nil => simp [parseFlagsLoop]
  | cons flag tokens ih =>
    rw [parseFlagsLoop, List.forall_mem_cons]
    by_cases reos : flag = "reos".toList
    · rw [if_pos reos, ih]
      exact (and_iff_right reos).symm
    · rw [if_neg reos]
      have negative : ¬ (0 : Int) ≤ -1 := by decide
      exact iff_of_false negative fun both => reos both.1

/-- Flags that can be parsed are all set. -/
theorem parseFlagsLoop_flags {tokens : List (List Char)}
    (known : ∀ item ∈ tokens, item = "reos".toList) (fp : UInt32) :
    (parseFlagsLoop tokens fp).2 = (tokens.map flagOf).foldl (· ||| ·) fp := by
  induction tokens generalizing fp with
  | nil => rfl
  | cons flag tokens ih =>
    have parts := List.forall_mem_cons.mp known
    have one : flagOf flag = gpibFlagReos := if_pos parts.1
    rw [parseFlagsLoop, if_pos parts.1, ih parts.2, List.map_cons, List.foldl_cons, one]

/-- An attribute can be set unless it is a list of flags with another item. -/
theorem setAttr_ok_iff (attr : Attr) (value : List Char) (cfi : CfInstrument) :
    (setAttr attr value cfi).1 = true ↔
      (attr = .flags → ∀ item ∈ pieces value, item ≠ [] → item = "reos".toList) := by
  cases attr with
  | flags =>
    have parsed := parseFlagsLoop_nonneg_iff (strtok ',' value) cfi.flags
    rw [forall_strtok_iff] at parsed
    simp only [setAttr, parseFlags, decide_eq_true_eq, parsed, forall_const]
  | _ => simp [setAttr]

/-- No attribute is the name of a record. -/
theorem name_setAttr (attr : Attr) (value : List Char) (cfi : CfInstrument) :
    (setAttr attr value cfi).2.name = cfi.name := by
  cases attr <;> rfl

/-- What an event makes of a record. -/
def applyEvent (cfi : CfInstrument) (event : IniEvent) : CfInstrument :=
  match attrOf event.name with
  | none => cfi
  | some attr => (setAttr attr event.value cfi).2

/-- A section whose name fits has a record or is given one, under its name. -/
theorem findOrCreate_eq {db : Db} {name : List Char} (short : name.length ≤ 63) :
    ∃ after, findOrCreate db name = some ((db.find name).getD (newInstrument name), after) ∧
      ((db.find name).getD (newInstrument name)).name = name ∧
      ∀ record, Function.update after.find name record = Function.update db.find name record := by
  cases found : db.find name with
  | some cfi =>
    refine ⟨db, ?_, db.named name cfi found, fun _ => rfl⟩
    rw [findOrCreate, found, Option.getD_some]
  | none =>
    have whole : (newInstrument name).name = name := List.take_of_length_le short
    refine ⟨db.store (newInstrument name), ?_, whole, fun record => ?_⟩
    · have free : ¬ (db.find (newInstrument name).name).isSome = true := by
        rw [whole, found]
        exact Bool.false_ne_true
      simp only [findOrCreate, found, cfiCreate, hashInsert, if_neg free]
      rfl
    · change Function.update (Function.update db.find (newInstrument name).name _) name record = _
      rw [whole, Function.update_idem]

/-- An event in a section whose name fits goes well exactly when it is allowed. -/
theorem parseCb_ok_iff {db : Db} {event : IniEvent} (short : event.sect.length ≤ 63) :
    (parseCb db event).1 = true ↔ event.Allowed := by
  obtain ⟨after, made, _, _⟩ := @findOrCreate_eq db event.sect short
  rw [parseCb, made]
  cases named : attrOf event.name with
  | none =>
    refine iff_of_false Bool.false_ne_true ?_
    rintro ⟨attr, text, _⟩
    rw [attrOf_eq_some_iff.mpr text] at named
    cases named
  | some attr =>
    have set := setAttr_ok_iff attr event.value
      ((db.find event.sect).getD (newInstrument event.sect))
    refine set.trans ⟨fun known => ⟨attr, attrOf_eq_some_iff.mp named, known⟩, ?_⟩
    rintro ⟨other, text, known⟩
    rw [attrOf_eq_some_iff.mpr text] at named
    exact Option.some.inj named ▸ known

/-- An allowed event in a section whose name fits changes the record of the section. -/
theorem find_parseCb {db : Db} {event : IniEvent} (short : event.sect.length ≤ 63)
    (allowed : event.Allowed) :
    (parseCb db event).2.find =
      Keyed.update IniEvent.sect newInstrument applyEvent db.find event := by
  obtain ⟨after, made, name, same⟩ := @findOrCreate_eq db event.sect short
  obtain ⟨attr, text, _⟩ := allowed
  have named := attrOf_eq_some_iff.mpr text
  have kept := name_setAttr attr event.value
    ((db.find event.sect).getD (newInstrument event.sect))
  rw [name] at kept
  rw [parseCb, made, Keyed.update, applyEvent, named, ← same]
  change Function.update after.find (setAttr attr event.value _).2.name _ = _
  rw [kept]
  rfl

/-- The line of the first call that fails, 0 if none has. -/
theorem first_error {ok : Bool} {error : Int} (nonneg : 0 ≤ error) (line : Nat) :
    0 ≤ (if ok = false ∧ error = 0 then (line : Int) + 1 else error) ∧
      ((if ok = false ∧ error = 0 then (line : Int) + 1 else error) = 0 ↔
        error = 0 ∧ ok = true) := by
  cases ok with
  | true => simpa using nonneg
  | false =>
    by_cases zero : error = 0
    · have late : (line : Int) + 1 ≠ 0 := by omega
      rw [if_pos ⟨rfl, zero⟩]
      exact ⟨by omega, iff_of_false late fun both => Bool.false_ne_true both.2⟩
    · simpa [zero] using nonneg

/-- A parse goes well exactly when every event is allowed, if that is what the handler says, and
then every event has been handled. -/
theorem iniEvents_eq_zero_iff {σ : Type} {handler : σ → IniEvent → Bool × σ}
    {events : List IniEvent} {allowed : IniEvent → Prop}
    (each : ∀ event ∈ events, ∀ user, (handler user event).1 = true ↔ allowed event)
    {error : Int} (nonneg : 0 ≤ error) (user : σ) :
    (∃ rc, 0 ≤ rc ∧ (rc = 0 ↔ error = 0 ∧ ∀ event ∈ events, allowed event) ∧
      iniEvents handler events error user =
        (rc, events.foldl (fun user event => (handler user event).2) user)) := by
  induction events generalizing error user with
  | nil => exact ⟨error, nonneg, by simp, rfl⟩
  | cons event events ih =>
    have later := fun other member => each other (List.mem_cons_of_mem event member)
    have first := each event List.mem_cons_self user
    obtain ⟨low, zero⟩ := @first_error (handler user event).1 error nonneg event.before
    obtain ⟨rc, rcLow, rcZero, parsed⟩ := ih later low (handler user event).2
    refine ⟨rc, rcLow, ?_, parsed⟩
    rw [rcZero, zero, first, List.forall_mem_cons, and_assoc]

/-- Allowed events in sections whose names fit change the records of their sections. -/
theorem find_foldl_parseCb {events : List IniEvent} (db : Db)
    (short : ∀ event ∈ events, event.sect.length ≤ 63) (allowed : ∀ event ∈ events, event.Allowed) :
    (events.foldl (fun db event => (parseCb db event).2) db).find =
      events.foldl (Keyed.update IniEvent.sect newInstrument applyEvent) db.find := by
  induction events generalizing db with
  | nil => rfl
  | cons event events ih =>
    have first := @find_parseCb db event (short event List.mem_cons_self)
      (allowed event List.mem_cons_self)
    have later := ih (parseCb db event).2
      (fun other member => short other (List.mem_cons_of_mem event member))
      fun other member => allowed other (List.mem_cons_of_mem event member)
    rw [List.foldl_cons, List.foldl_cons, later, first]

/-- A table is made exactly when every event is allowed, and has made of a new record what the
events of its section say. -/
theorem cfCreate_eq {events : List IniEvent} (short : ∀ event ∈ events, event.sect.length ≤ 63) :
    ((cfCreate (some events)).isSome = true ↔ ∀ event ∈ events, event.Allowed) ∧
      ∀ cf, cfCreate (some events) = some cf →
        cf.find =
          events.foldl (Keyed.update IniEvent.sect newInstrument applyEvent) Db.empty.find := by
  have each : ∀ event ∈ events, ∀ db, (parseCb db event).1 = true ↔ event.Allowed :=
    fun event member db => parseCb_ok_iff (short event member)
  obtain ⟨rc, low, zero, parsed⟩ := iniEvents_eq_zero_iff each (Int.le_refl 0) Db.empty
  have opened : rc ≠ -1 := by omega
  have made : cfCreate (some events) = if 0 < rc then none else
      some (events.foldl (fun db event => (parseCb db event).2) Db.empty) := by
    rw [cfCreate, iniParse, parsed]
    exact if_neg opened
  by_cases good : ∀ event ∈ events, event.Allowed
  · have plain : ¬ 0 < rc := by
      have none := zero.mpr ⟨rfl, good⟩
      omega
    rw [made, if_neg plain]
    refine ⟨iff_of_true rfl good, fun cf same => ?_⟩
    rw [← Option.some.inj same]
    exact find_foldl_parseCb Db.empty short good
  · have wrong : 0 < rc := by
      have some : rc ≠ 0 := fun none => good (zero.mp none).2
      omega
    rw [made, if_pos wrong]
    exact ⟨iff_of_false Bool.false_ne_true good, fun cf same => nomatch same⟩

/-! ## What has become of a record -/

/-- The field of a record that an attribute is, for those that are texts. -/
def Attr.field : Attr → CfInstrument → List Char
  | .address => CfInstrument.addr
  | .manufacturer => CfInstrument.make
  | .model => CfInstrument.model
  | .idn => CfInstrument.idncmd
  | .flags => fun _ => []

/-- The size of the field. -/
def Attr.size : Attr → Nat
  | .address => maxGpibAddr
  | .manufacturer => maxGpibMake
  | .model => maxGpibModel
  | .idn => maxGpibIdncmd
  | .flags => 0

/-- What an event sets the field of an attribute to. -/
def setText (attr : Attr) (event : IniEvent) : Option (List Char) :=
  if event.name = attr.text then some (snprintf attr.size event.value) else none

/-- An event sets the field of its attribute, and no other. -/
theorem field_applyEvent (attr : Attr) (cfi : CfInstrument) (event : IniEvent) :
    attr.field (applyEvent cfi event) = (setText attr event).getD (attr.field cfi) := by
  rw [applyEvent, setText]
  cases named : attrOf event.name with
  | none =>
    have other : event.name ≠ attr.text := by
      intro text
      rw [attrOf_eq_some_iff.mpr text] at named
      cases named
    rw [if_neg other, Option.getD_none]
  | some found =>
    have text := attrOf_eq_some_iff.mp named
    by_cases same : found = attr
    · subst same
      rw [if_pos text, Option.getD_some]
      cases found <;> rfl
    · have other : event.name ≠ attr.text := by
        intro own
        rw [attrOf_eq_some_iff.mpr own] at named
        exact same (Option.some.inj named).symm
      rw [if_neg other, Option.getD_none]
      cases found <;> cases attr <;> first | rfl | exact absurd rfl same

/-- The flags after an event are those before it and those it lists. -/
theorem flags_applyEvent {event : IniEvent} (allowed : event.Allowed) (cfi : CfInstrument) :
    (applyEvent cfi event).flags =
      ((if event.name = Attr.flags.text then pieces event.value else []).map flagOf).foldl
        (· ||| ·) cfi.flags := by
  obtain ⟨attr, text, known⟩ := allowed
  rw [applyEvent, attrOf_eq_some_iff.mpr text]
  by_cases listed : attr = .flags
  · subst listed
    have parsed := parseFlagsLoop_flags (forall_strtok_iff.mpr (known rfl)) cfi.flags
    rw [if_pos text, ← foldl_strtok]
    exact parsed
  · have other : event.name ≠ Attr.flags.text := by
      intro own
      have named := attrOf_eq_some_iff.mpr own
      rw [attrOf_eq_some_iff.mpr text] at named
      exact listed (Option.some.inj named)
    rw [if_neg other]
    cases attr <;> first | rfl | exact absurd rfl listed

/-- The values of an attribute are those of its events in the section. -/
theorem values_cons (event : IniEvent) (events : List IniEvent) (s : List Char) (attr : Attr) :
    values (event :: events) s attr =
      if event.sect = s ∧ event.name = attr.text then event.value :: values events s attr
      else values events s attr := by
  rw [values, List.filter_cons]
  split
  case isTrue own =>
    rw [if_pos (of_decide_eq_true own)]
    rfl
  case isFalse other =>
    rw [if_neg (fun own => other (decide_eq_true own))]
    rfl

/-- The events of a section set the field of an attribute to its values, as far as they fit. -/
theorem filterMap_setText (events : List IniEvent) (s : List Char) (attr : Attr) :
    (Keyed.history IniEvent.sect s events).filterMap (setText attr) =
      (values events s attr).map (snprintf attr.size) := by
  induction events with
  | nil => rfl
  | cons event events ih =>
    rw [values_cons]
    by_cases here : event.sect = s
    · rw [Keyed.history_cons_self _ here]
      by_cases own : event.name = attr.text
      · have set : setText attr event = some (snprintf attr.size event.value) := if_pos own
        rw [List.filterMap_cons_some set, if_pos ⟨here, own⟩, List.map_cons, ih]
      · have left : setText attr event = none := if_neg own
        rw [List.filterMap_cons_none left, if_neg (fun both => own both.2), ih]
    · rw [Keyed.history_cons_of_ne _ here, if_neg (fun both => here both.1), ih]

/-- The last value of an attribute is what the events of its section have set its field to. -/
theorem getLastD_setText (events : List IniEvent) (s : List Char) (attr : Attr) :
    ((Keyed.history IniEvent.sect s events).filterMap (setText attr)).getLastD [] =
      snprintf attr.size (lastValue events s attr) := by
  have empty : snprintf attr.size [] = [] := List.take_nil
  have mapped := List.getLastD_map (f := snprintf attr.size) (l := values events s attr) (a := [])
  rw [empty] at mapped
  rw [filterMap_setText, mapped, lastValue]

/-- The flags of a section are what its events have made of those before them. -/
theorem foldl_flags {events : List IniEvent} (s : List Char)
    (allowed : ∀ event ∈ events, event.Allowed) (cfi : CfInstrument) :
    ((Keyed.history IniEvent.sect s events).foldl applyEvent cfi).flags =
      (((values events s .flags).flatMap pieces).map flagOf).foldl (· ||| ·) cfi.flags := by
  induction events generalizing cfi with
  | nil => rfl
  | cons event events ih =>
    have later := ih fun other member => allowed other (List.mem_cons_of_mem _ member)
    rw [values_cons]
    by_cases here : event.sect = s
    · have first := flags_applyEvent (allowed event List.mem_cons_self) cfi
      rw [Keyed.history_cons_self _ here, List.foldl_cons, later, first]
      by_cases own : event.name = Attr.flags.text
      · rw [if_pos own, if_pos ⟨here, own⟩, List.flatMap_cons, List.map_append, List.foldl_append]
      · rw [if_neg own, if_neg (fun both => own both.2)]
        rfl
    · rw [Keyed.history_cons_of_ne _ here, if_neg (fun both => here both.1), later]

/-- The name of a record stays. -/
theorem name_foldl (events : List IniEvent) (cfi : CfInstrument) :
    (events.foldl applyEvent cfi).name = cfi.name := by
  induction events generalizing cfi with
  | nil => rfl
  | cons event events ih =>
    rw [List.foldl_cons, ih, applyEvent]
    split
    · rfl
    · exact name_setAttr _ _ _

/-- What the events of a section have made of a new record is what they say. -/
theorem describes_history {events : List IniEvent} {s : List Char} (short : s.length ≤ 63)
    (allowed : ∀ event ∈ events, event.Allowed) :
    Describes events s
      ((Keyed.history IniEvent.sect s events).foldl applyEvent (newInstrument s)) := by
  have text : ∀ attr : Attr, attr.field
      ((Keyed.history IniEvent.sect s events).foldl applyEvent (newInstrument s)) =
        snprintf attr.size (lastValue events s attr) := by
    intro attr
    have empty : attr.field (newInstrument s) = [] := by cases attr <;> rfl
    rw [Folds.foldl_last (field_applyEvent attr), empty, getLastD_setText]
  exact {
    name := (name_foldl _ _).trans (List.take_of_length_le short)
    addr := text .address
    make := text .manufacturer
    model := text .model
    idncmd := text .idn
    flags := foldl_flags s allowed (newInstrument s) }

/-- The table of instruments is what the events of the file say: there is one exactly when every
event is allowed, and then the record of a section is what the events of that section say. -/
theorem cfCreate_folds {events : List IniEvent}
    (short : ∀ event ∈ events, event.sect.length ≤ 63) :
    ((cfCreate (some events)).isSome = true ↔ ∀ event ∈ events, event.Allowed) ∧
      ∀ cf, cfCreate (some events) = some cf → ∀ s,
        (cfLookup cf s = none ↔ ∀ event ∈ events, event.sect ≠ s) ∧
          ∀ cfi, cfLookup cf s = some cfi → Describes events s cfi := by
  obtain ⟨made, found⟩ := cfCreate_eq short
  refine ⟨made, fun cf created s => ?_⟩
  have allowed := made.mp (by rw [created]; rfl)
  have looked : cfLookup cf s = if Keyed.history IniEvent.sect s events = [] then none
      else some ((Keyed.history IniEvent.sect s events).foldl applyEvent (newInstrument s)) := by
    rw [cfLookup, found cf created]
    exact Keyed.foldl_update_none _ _ _ events rfl
  have named := @Keyed.history_eq_nil_iff _ _ _ IniEvent.sect s events
  rw [looked]
  by_cases absent : Keyed.history IniEvent.sect s events = []
  · rw [if_pos absent]
    exact ⟨iff_of_true rfl (named.mp absent), fun cfi same => nomatch same⟩
  · rw [if_neg absent]
    refine ⟨iff_of_false (Option.some_ne_none _) fun none => absent (named.mpr none), ?_⟩
    intro cfi same
    rw [← Option.some.inj same]
    have fits : s.length ≤ 63 := by
      by_contra long
      refine absent (named.mpr fun event member same => long ?_)
      exact same ▸ short event member
    exact describes_history fits allowed

/-- Two sections, one of them opened twice. -/
def mixedEvents : List IniEvent := [
  ⟨1, ['d'], Attr.address.text, ['2', '2']⟩,
  ⟨3, ['s'], Attr.flags.text, "reos".toList⟩,
  ⟨5, ['d'], Attr.address.text, ['9']⟩]

/-- The sections of these events have names that fit. -/
theorem cfCreate_folds_mixed :
    ((cfCreate (some mixedEvents)).isSome = true ↔ ∀ event ∈ mixedEvents, event.Allowed) ∧
      ∀ cf, cfCreate (some mixedEvents) = some cf → ∀ s,
        (cfLookup cf s = none ↔ ∀ event ∈ mixedEvents, event.sect ≠ s) ∧
          ∀ cfi, cfLookup cf s = some cfi → Describes mixedEvents s cfi :=
  cfCreate_folds (by decide)

/-- A list of flags with nothing between two of its commas. -/
def gapEvent : IniEvent := ⟨0, ['d'], Attr.flags.text, "reos,,reos".toList⟩

/-- A table is made though not every item of every list of flags is `reos`: one is empty. -/
theorem cfCreate_gap :
    ¬ ((cfCreate (some [gapEvent])).isSome = true ↔ ∀ event ∈ [gapEvent],
      ∃ attr : Attr, event.name = attr.text ∧
        (attr = .flags → ∀ item ∈ pieces event.value, item = "reos".toList)) := by
  have made : (cfCreate (some [gapEvent])).isSome = true := by decide
  have gap : [] ∈ pieces gapEvent.value := by decide
  intro claimed
  obtain ⟨attr, text, items⟩ := claimed.mp made gapEvent List.mem_cons_self
  have listed : attr = .flags := by
    have named := attrOf_eq_some_iff.mpr text
    exact Option.some.inj (named.symm.trans rfl)
  exact absurd (items listed [] gap) (by decide)

end GpibUtils.Inst
