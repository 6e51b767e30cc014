import GpibUtils.CSem.Text
import GpibUtils.Words

/-!
# The cards of hp3488

The option `-C` names the card in each of the five slots. The string is cut at its commas by
`strtok`, which takes several of them for one, and each piece is read by `strtoul`, for which a
piece without digits is a zero, the number of an empty slot. When a string is refused `main` goes
where it finishes, and finalises an instrument that it has not opened (`config_grammar_iff`).

What a list of hosts stands for is decided by `liblsd`; the ranges in brackets that are used here
are written out.
-/

namespace GpibUtils.Hp3488

open CSem Words

/-! ## The code -/

/-- `modeltab_t`, less the description. -/
structure Modeltab where
  model : Int
  list : Option (List Char)
  deriving DecidableEq

/-- `MODELTAB` -/
def modeltab : List Modeltab :=
  [⟨0, none⟩,
   ⟨44470, some "[00-09]".toList⟩,
   ⟨44471, some "[00-09]".toList⟩,
   ⟨44472, some "[00-03,10-13]".toList⟩,
   ⟨44473, some "[00-03,10-13,20-23,30-33]".toList⟩,
   ⟨44474, some "[00-15]".toList⟩,
   ⟨44475, none⟩,
   ⟨44476, some "[00-03]".toList⟩,
   ⟨44477, some "[00-06]".toList⟩,
   ⟨44478, some "[00-03,10-13]".toList⟩]

/-- `modeltab_find` -/
def modeltabFind (model : Int) : Option Modeltab := modeltab.find? fun cp => cp.model = model

/-- A comma. -/
def isComma (c : Char) : Bool := c = ','

/-- `strtok` with a comma: the token, and what the next call goes on with. -/
def strtok (str : List Char) : Option (List Char × List Char) :=
  let str := str.dropWhile isComma
  if str = [] then none
  else some (str.takeWhile fun c => !isComma c, (str.dropWhile fun c => !isComma c).drop 1)

/-- The numbers of a range with as many digits as its first one. -/
def expandRange (range : List Char) : List (List Char) :=
  let low := range.takeWhile fun c => c ≠ '-'
  let high := (range.dropWhile fun c => c ≠ '-').drop 1
  let high := if high = [] then low else high
  (List.range' (digitsValue low) (digitsValue high + 1 - digitsValue low)).map
    (zeroPadded low.length)

/-- The hosts of a prefix with ranges in brackets. -/
def expandHosts (hosts : List Char) : List (List Char) :=
  let front := hosts.takeWhile fun c => c ≠ '['
  let ranges := ((hosts.dropWhile fun c => c ≠ '[').drop 1).takeWhile fun c => c ≠ ']'
  ((words isComma ranges).flatMap expandRange).map (front ++ ·)

/-- `hostlist_push` -/
def hostlistPush (hl : List (List Char)) (hosts : List Char) : List (List Char) :=
  hl ++ expandHosts hosts

/-- `hostlist_sort` -/
def hostlistSort (hl : List (List Char)) : List (List Char) :=
  hl.mergeSort fun a b => !b.lex a fun c d => decide (c.toNat < d.toNat)

/-- `slot_config` and `valid_targets`. -/
structure Config where
  slotConfig : List Int
  validTargets : List (List Char)
  deriving DecidableEq

/-- The message with which a configuration is refused. -/
inductive Refusal where
  /-- "specify models for all five slots (0=empty)" -/
  | missing
  /-- "unknown model" -/
  | unknown (modstr : List Char)
  deriving DecidableEq

/-- The number that `strtoul` reads, as an `int`. -/
def modelOf (modstr : List Char) : Int := toInt (strtoul modstr).1.toNat

/-- The end of a pass of the loop of `_parse_model_config`, for an entry that was found. -/
def fillSlot (slot : Nat) (model : Int) (cp : Modeltab) (config : Config) : Config where
  slotConfig := config.slotConfig.set (slot - 1) model
  validTargets :=
    match cp.list with
    | none => config.validTargets
    | some list => hostlistPush config.validTargets (Nat.toDigits 10 slot ++ list)

/-- The loop of `_parse_model_config` over some slots; `find` is `modeltab_find`. -/
def parseSlots (find : Int → Option Modeltab) :
    (slots : List Nat) → (str : List Char) → Config → Option Refusal × Config
  | [], _, config => (none, config)
  | slot :: slots, str, config =>
    match strtok str with
    | none => (some .missing, config)
    | some (modstr, str) =>
      match find (modelOf modstr) with
      | none => (some (.unknown modstr), config)
      | some cp => parseSlots find slots str (fillSlot slot (modelOf modstr) cp config)

/-- `_parse_model_config`: the message it fails with, if it does, and the configuration. -/
def parseModelConfig (str : List Char) (config : Config) : Option Refusal × Config :=
  match parseSlots modeltabFind [1, 2, 3, 4, 5] str config with
  | (none, config) => (none, { config with validTargets := hostlistSort config.validTargets })
  | refused => refused

/-- How the program ends. -/
inductive Ended where
  | exit (code : Int)
  /-- An access through a NULL pointer. -/
  | crash
  deriving DecidableEq

/-- `main` from the label `done` on; `inst_fini` looks into the instrument, which is NULL when none
has been opened. -/
def finish (opened : Bool) (exitVal : Int) : Ended := if opened then .exit exitVal else .crash

/-- The case `C` of the first pass of `main`, when no instrument has been opened: `main` goes on
with a configuration, or ends. -/
def optionConfig (validTargets : Option (List (List Char))) (optarg : List Char) :
    Except Ended Config :=
  if validTargets.isSome then .error (finish false 1)
  else
    match parseModelConfig optarg ⟨[0, 0, 0, 0, 0], []⟩ with
    | (some _, _) => .error (finish false 1)
    | (none, config) => .ok config

/-! ## The grammar -/

/-- The channels of a card. -/
def channels (model : Int) : List Nat :=
  if model = 44470 ∨ model = 44471 then List.range 10
  else if model = 44472 ∨ model = 44478 then List.range 4 ++ List.range' 10 4
  else if model = 44473 then
    List.range 4 ++ List.range' 10 4 ++ List.range' 20 4 ++ List.range' 30 4
  else if model = 44474 then List.range 16
  else if model = 44476 then List.range 4
  else if model = 44477 then List.range 7
  else []

/-- The address of a channel: one digit for the slot and two for the channel. -/
def address (slot chan : Nat) : List Char := zeroPadded 1 slot ++ zeroPadded 2 chan

/-- The addresses of the channels of the cards in slots. -/
def addresses (slots : List (Nat × Int)) : List (List Char) :=
  slots.flatMap fun (slot, model) => (channels model).map (address slot)

/-- The number of a field. -/
def numberOf (field : List Char) : Int := digitsValue field

/-- A string is five numbers of the table in decimal, with single commas between them. -/
structure InGrammar (s : List Char) (fields : List (List Char)) : Prop where
  five : fields.length = 5
  decimal : ∀ field ∈ fields, field ≠ [] ∧ ∀ c ∈ field, c.isDigit = true
  known : ∀ field ∈ fields, numberOf field ∈ modeltab.map Modeltab.model
  joined : s = List.intercalate [','] fields

/-- The configuration that five numbers stand for. -/
structure Configures (models : List Int) (config : Config) : Prop where
  slots : config.slotConfig = models
  targets : ∀ target, target ∈ config.validTargets ↔
    target ∈ addresses ([1, 2, 3, 4, 5].zip models)

/-- What the option promises of a string: in the grammar it is accepted, and its numbers are the
configuration; any other string is refused, and the program exits with status 1. -/
structure TakesGrammar (s : List Char) : Prop where
  accepts : ∀ fields, InGrammar s fields →
    ∃ config, optionConfig none s = .ok config ∧ Configures (fields.map numberOf) config
  refuses : (∀ fields, ¬InGrammar s fields) → optionConfig none s = .error (.exit 1)

/-! ## Tokens -/

/-- A string of commas has no token. -/
theorem strtok_none {s : List Char} (none : words isComma s = []) : strtok s = .none := by
  have blank : s.dropWhile isComma = [] := by
    by_contra more
    rw [words_skipped more] at none
    cases none
  rw [strtok, if_pos blank]

/-- A token is the first word, and the next call goes on with the words after it. -/
theorem strtok_some {s word : List Char} {later : List (List Char)}
    (first : words isComma s = word :: later) :
    ∃ rest, strtok s = some (word, rest) ∧ words isComma rest = later := by
  have more : s.dropWhile isComma ≠ [] := by
    intro blank
    rw [← words_dropWhile, blank, words_nil] at first
    cases first
  have parts := List.cons.inj ((words_skipped more).symm.trans first)
  refine ⟨_, by rw [strtok, if_neg more, parts.1], ?_⟩
  rw [← parts.2]
  cases rest : (s.dropWhile isComma).dropWhile fun c => !isComma c with
  | nil => rfl
  | cons c after =>
    have stops := List.head?_dropWhile_not (fun c => !isComma c) (s.dropWhile isComma)
    have comma : isComma c = true := by simpa [rest] using stops
    rw [List.drop_one, List.tail_cons, words_cons after comma]

/-- The loop of `_parse_model_config` over the words of a string. -/
def parseWords (find : Int → Option Modeltab) :
    (slots : List Nat) → (tokens : List (List Char)) → Config → Option Refusal × Config
  | [], _, config => (none, config)
  | _ :: _, [], config => (some .missing, config)
  | slot :: slots, modstr :: tokens, config =>
    match find (modelOf modstr) with
    | none => (some (.unknown modstr), config)
    | some cp => parseWords find slots tokens (fillSlot slot (modelOf modstr) cp config)

section
variable (find : Int → Option Modeltab)

/-- The loop takes one word after another. -/
theorem parseSlots_words (slots : List Nat) (s : List Char) (config : Config) :
    parseSlots find slots s config = parseWords find slots (words isComma s) config := by
  induction slots generalizing s config with
  | nil => simp only [parseSlots, parseWords]
  | cons slot slots ih =>
    rw [parseSlots]
    cases tokens : words isComma s with
    | nil => simp only [strtok_none tokens, parseWords]
    | cons modstr later =>
      obtain ⟨rest, token, next⟩ := strtok_some tokens
      simp only [token, parseWords, ih, next]

/-- The words are accepted when there are enough of them and the first ones are found. -/
theorem parseWords_iff (slots : List Nat) (tokens : List (List Char)) (config : Config) :
    (parseWords find slots tokens config).1 = none ↔ slots.length ≤ tokens.length ∧
      ∀ modstr ∈ tokens.take slots.length, (find (modelOf modstr)).isSome := by
  induction slots generalizing tokens config with
  | nil => simp [parseWords]
  | cons slot slots ih =>
    cases tokens with
    | nil => simp [parseWords]
    | cons modstr tokens =>
      rw [parseWords]
      cases found : find (modelOf modstr) with
      | none => simp [found]
      | some cp => simp [found, ih]

end

/-! ## Configurations -/

/-- What is pushed for a card are the addresses of its channels. -/
theorem expandHosts_list : ∀ cp ∈ modeltab, ∀ slot ∈ [1, 2, 3, 4, 5],
    (cp.list.elim [] fun list => expandHosts (Nat.toDigits 10 slot ++ list)) =
      (channels cp.model).map (address slot) := by
  decide

/-- The targets of a slot come behind the ones before. -/
theorem fillSlot_targets {slot : Nat} (inside : slot ∈ [1, 2, 3, 4, 5]) {cp : Modeltab}
    (member : cp ∈ modeltab) (model : Int) (config : Config) :
    (fillSlot slot model cp config).validTargets =
      config.validTargets ++ (channels cp.model).map (address slot) := by
  rw [← expandHosts_list cp member slot inside, fillSlot]
  cases cp.list with
  | none => exact (List.append_nil _).symm
  | some list => rfl

/-- The number of a field of the grammar is what `strtoul` reads, and is found. -/
theorem found_field {field : List Char} (nonempty : field ≠ [])
    (decimal : ∀ c ∈ field, c.isDigit = true)
    (known : numberOf field ∈ modeltab.map Modeltab.model) :
    modelOf field = numberOf field ∧
      ∃ cp ∈ modeltab, modeltabFind (numberOf field) = some cp ∧ cp.model = numberOf field := by
  constructor
  · have bounded : ∀ model ∈ modeltab.map Modeltab.model, model ≤ 44478 := by decide
    have small : (digitsValue field : Int) ≤ 44478 := bounded _ known
    have fits : digitsValue field < 2 ^ 64 := by omega
    have read := @strtoul_digits field [] nonempty decimal (by simp) fits
    rw [List.append_nil] at read
    have value : (UInt64.ofNat (digitsValue field)).toNat = digitsValue field :=
      UInt64.toNat_ofNat_of_lt' fits
    rw [modelOf, read, value, numberOf]
    exact toInt_of_range (by omega) (by unfold intMax; omega)
  · obtain ⟨entry, member, same⟩ := List.mem_map.mp known
    cases found : modeltabFind (numberOf field) with
    | none =>
      have other := List.find?_eq_none.mp found entry member
      exact absurd (decide_eq_true same) other
    | some cp =>
      have equal := List.find?_some found
      exact ⟨cp, List.mem_of_find?_eq_some found, rfl, of_decide_eq_true equal⟩

/-- Fields of the grammar are put into their slots, one after the other. -/
theorem parseWords_fields {slots : List Nat} (inside : ∀ slot ∈ slots, slot ∈ [1, 2, 3, 4, 5])
    {fields : List (List Char)} (same : slots.length = fields.length)
    (decimal : ∀ field ∈ fields, field ≠ [] ∧ ∀ c ∈ field, c.isDigit = true)
    (known : ∀ field ∈ fields, numberOf field ∈ modeltab.map Modeltab.model) (config : Config) :
    parseWords modeltabFind slots fields config = (none,
      { slotConfig := (slots.zip (fields.map numberOf)).foldl
          (fun slotConfig entry => slotConfig.set (entry.1 - 1) entry.2) config.slotConfig
        validTargets :=
          config.validTargets ++ addresses (slots.zip (fields.map numberOf)) }) := by
  induction slots generalizing fields config with
  | nil => simp [parseWords, addresses]
  | cons slot slots ih =>
    cases fields with
    | nil => cases same
    | cons field fields =>
      have digits := decimal field List.mem_cons_self
      obtain ⟨model, cp, member, found, equal⟩ :=
        found_field digits.1 digits.2 (known field List.mem_cons_self)
      have targets := fillSlot_targets (inside slot List.mem_cons_self) member (numberOf field)
        config
      rw [parseWords, model, found]
      dsimp only
      rw [ih (fun other later => inside other (List.mem_cons_of_mem slot later))
        (Nat.succ.inj same) (fun other later => decimal other (List.mem_cons_of_mem field later))
        (fun other later => known other (List.mem_cons_of_mem field later)), targets, equal]
      simp [fillSlot, addresses]

/-- Five numbers put into five slots are in their order. -/
theorem fill_five {models : List Int} (five : models.length = 5) :
    ([1, 2, 3, 4, 5].zip models).foldl
      (fun slotConfig entry => slotConfig.set (entry.1 - 1) entry.2) [0, 0, 0, 0, 0] = models := by
  match models, five with
  | [_, _, _, _, _], _ => rfl

/-- The case `C`, over the words of the string. -/
theorem optionConfig_words (s : List Char) :
    optionConfig none s =
      match parseWords modeltabFind [1, 2, 3, 4, 5] (words isComma s) ⟨[0, 0, 0, 0, 0], []⟩ with
      | (none, config) => .ok ⟨config.slotConfig, hostlistSort config.validTargets⟩
      | (some _, _) => .error .crash := by
  rw [← parseSlots_words, optionConfig, parseModelConfig]
  cases parseSlots modeltabFind [1, 2, 3, 4, 5] s ⟨[0, 0, 0, 0, 0], []⟩ with
  | mk refusal config => cases refusal <;> rfl

/-- A string of the grammar is accepted, and its numbers are the configuration. -/
theorem optionConfig_accepts {s : List Char} {fields : List (List Char)}
    (grammar : InGrammar s fields) :
    ∃ config, optionConfig none s = .ok config ∧ Configures (fields.map numberOf) config := by
  have plain : ∀ field ∈ fields, field ≠ [] ∧ ∀ c ∈ field, isComma c = false := by
    intro field member
    have digits := grammar.decimal field member
    refine ⟨digits.1, fun c within => decide_eq_false ?_⟩
    rintro rfl
    exact absurd (digits.2 ',' within) (by decide)
  have tokens : words isComma s = fields := by
    rw [grammar.joined]
    exact words_intercalate rfl plain
  have parsed := @parseWords_fields [1, 2, 3, 4, 5] (fun _ => id) fields grammar.five.symm
    grammar.decimal grammar.known ⟨[0, 0, 0, 0, 0], []⟩
  have run := optionConfig_words s
  rw [tokens, parsed] at run
  refine ⟨_, run, ?_, ?_⟩
  · exact fill_five (by rw [List.length_map, grammar.five])
  · intro target
    simp [hostlistSort]

/-- The string has five pieces at least, and each of the first five is read as a number of the
table. -/
def Readable (s : List Char) : Prop :=
  5 ≤ (words isComma s).length ∧
    ∀ modstr ∈ (words isComma s).take 5, (modeltabFind (modelOf modstr)).isSome

/-- A string is accepted when it is readable, and crashes the program when it is not. -/
theorem optionConfig_readable (s : List Char) :
    (Readable s → ∃ config, optionConfig none s = .ok config) ∧
      (¬Readable s → optionConfig none s = .error .crash) := by
  have run := optionConfig_words s
  have accepted := parseWords_iff modeltabFind [1, 2, 3, 4, 5] (words isComma s)
    ⟨[0, 0, 0, 0, 0], []⟩
  cases parsed : parseWords modeltabFind [1, 2, 3, 4, 5] (words isComma s)
      ⟨[0, 0, 0, 0, 0], []⟩ with
  | mk refusal config =>
    rw [parsed] at accepted run
    have readable : refusal = none ↔ Readable s := accepted
    cases refusal with
    | none =>
      exact ⟨fun _ => ⟨_, run⟩, fun not => absurd (readable.mp rfl) not⟩
    | some refusal =>
      exact ⟨fun is => absurd (readable.mpr is) (by simp), fun _ => run⟩

/-- The option takes a string as it promises exactly when the string is in the grammar. Others it
accepts when they are readable, and crashes the program when they are not. -/
theorem config_grammar_iff (s : List Char) :
    (TakesGrammar s ↔ ∃ fields, InGrammar s fields) ∧
      (Readable s → ∃ config, optionConfig none s = .ok config) ∧
      (¬Readable s → optionConfig none s = .error .crash) := by
  have ends := optionConfig_readable s
  refine ⟨⟨fun takes => ?_, fun ⟨fields, grammar⟩ => ?_⟩, ends⟩
  · by_contra outside
    have refused := takes.refuses fun fields grammar => outside ⟨fields, grammar⟩
    by_cases readable : Readable s
    · obtain ⟨config, accepted⟩ := ends.1 readable
      rw [refused] at accepted
      cases accepted
    · rw [ends.2 readable] at refused
      cases refused
  · exact ⟨fun _ other => optionConfig_accepts other, fun none => absurd grammar (none fields)⟩

/-- Four fields, and four fields with a field of blanks: the first crashes the program, the second
is accepted with an empty slot. -/
theorem config_outside :
    optionConfig none "44470,44471,44472,44473".toList = .error .crash ∧
      (∃ config, optionConfig none "44470,44471, ,44472,44473".toList = .ok config ∧
        config.slotConfig = [44470, 44471, 0, 44472, 44473]) ∧
      ¬TakesGrammar "44470,44471,44472,44473".toList := by
  have crash : optionConfig none "44470,44471,44472,44473".toList = .error .crash := by
    decide +kernel
  refine ⟨crash, ⟨_, by rfl, by decide +kernel⟩, fun takes => ?_⟩
  by_cases grammar : ∃ fields, InGrammar "44470,44471,44472,44473".toList fields
  · obtain ⟨fields, grammar⟩ := grammar
    obtain ⟨config, accepted, -⟩ := takes.accepts fields grammar
    rw [crash] at accepted
    cases accepted
  · have refused := takes.refuses fun fields other => grammar ⟨fields, other⟩
    rw [crash] at refused
    cases refused

end GpibUtils.Hp3488
