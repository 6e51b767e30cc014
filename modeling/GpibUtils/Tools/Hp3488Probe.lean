import GpibUtils.CSem.Decimal
import GpibUtils.Tools.Hp3488Disambiguate
import Mathlib.Logic.Function.Basic

/-!
# Probing the cards of hp3488

Without the option `-C` the cards are probed: each slot is asked for its card, and a card that may
be one of three is told from the others. The loop of `_probe_model_config` fills the same variables
as that of `_parse_model_config`, but it does not look whether the number is in the table before it
uses the entry (`probe_like_option_iff`).
-/

namespace GpibUtils.Hp3488

open CSem Inst Interaction Words

/-! ## The code -/

/-- What the probe asks of the instrument: the reply of a slot to `CTYPE`, and which of three cards
is in a slot. -/
inductive ProbeOp where
  | ctype (slot : Nat)
  | disambiguate (slot : Nat)

/-- What it is told. -/
abbrev ProbeOp.Told : ProbeOp → Type
  | .ctype _ => List Char
  | .disambiguate _ => Lookalike

/-- What `_probe_model_config` comes to. -/
inductive Probed where
  | configured (config : Config)
  /-- A message, and `exit(1)`. -/
  | stopped (message : String)
  /-- The entry of a model that is not in the table is used. -/
  | crash
  deriving DecidableEq

/-- A program that probes. -/
abbrev Probing := Program ProbeOp ProbeOp.Told

/-- `_ctype`: the number in a reply, or none when it is too short for one. -/
def ctypeOf (buf : List Char) : Option Int :=
  if buf.length < 15 then none else some (modelOf (buf.drop 11))

/-- The loop of `_probe_model_config` over some slots; `find` is `modeltab_find`. -/
def probeSlots (find : Int → Option Modeltab) : (slots : List Nat) → Config → Probing Probed
  | [], config => .result (.configured config)
  | slot :: slots, config =>
    let identified (model : Int) : Probing Probed :=
      match find model with
      | none => .result .crash
      | some cp => probeSlots find slots (fillSlot slot model cp config)
    .call (.ctype slot) fun buf =>
      match ctypeOf buf with
      | none => .result (.stopped "parse error reading slot ctype")
      | some model =>
        if model = 44471 then .call (.disambiguate slot) fun card => identified card.val
        else identified model

/-- The end of `_probe_model_config`. -/
def sortTargets : Probed → Probed
  | .configured config =>
    .configured { config with validTargets := hostlistSort config.validTargets }
  | other => other

/-- `_probe_model_config` -/
def probeModelConfig (config : Config) : Probing Probed :=
  (probeSlots modeltabFind [1, 2, 3, 4, 5] config).bind fun probed => .result (sortTargets probed)

/-- The string that `inst_rdstr` makes of a response. -/
def replyOf : Answer → List Char
  | .bytes response => (textOf response).map charOf
  | .status _ _ => []

/-- What the probe asks of an instrument. -/
def Probe.ask (gd : Instrument) (surface : Surface) (rounds depth : Nat) :
    (op : ProbeOp) → Probe → Outcome Probe op.Told
  | .ctype slot, p =>
    (p.wrtf gd surface rounds depth (bytesOf "CTYPE " ++ slotBytes slot)).bind fun _ p =>
      (p.perform gd surface rounds depth (.rdstr 128)).bind fun answer p =>
        .done (replyOf answer) p
  | .disambiguate slot, p => disambiguateCtype gd surface rounds depth slot p

/-! ## Replies -/

/-- What a probe is told: each slot's reply to `CTYPE`, and which card is told from the others, if
that does not end the program. -/
structure Replies where
  reply : Nat → List Char
  card : Nat → Option Lookalike

/-- The numbers that the option `-C` takes from a string. -/
def optionModels (str : List Char) : List (Option Int) :=
  ((words isComma str).take 5).map fun modstr => some (modelOf modstr)

namespace Replies

variable (replies : Replies)

/-- Tell the probe. -/
def perform : (op : ProbeOp) → Unit → Outcome Unit op.Told
  | .ctype slot, _ => .done (replies.reply slot) ()
  | .disambiguate slot, _ =>
    match replies.card slot with
    | none => .exited 1 ()
    | some card => .done card ()

/-- The probe that is told so, when the program starts. -/
def probe : Outcome Unit Probed :=
  (probeModelConfig ⟨[0, 0, 0, 0, 0], []⟩).run replies.perform ()

/-- The number that a slot's reply names. -/
def named (slot : Nat) : Option Int := ctypeOf (replies.reply slot)

/-- The model found in a slot. -/
def found (slot : Nat) : Option Int :=
  (replies.named slot).bind fun model =>
    if model = 44471 then (replies.card slot).map Subtype.val else some model

/-- A model of the table was found in a slot. -/
def Identified (slot : Nat) : Prop :=
  ∃ model ∈ replies.found slot, (modeltabFind model).isSome = true

/-- The probe comes to a slot. -/
def Reaches (slot : Nat) : Prop :=
  ∃ before later, [1, 2, 3, 4, 5] = before ++ slot :: later ∧
    ∀ earlier ∈ before, replies.Identified earlier

/-- What the probe promises: when it finds models of the table in all slots it configures what the
option `-C` does with some string; whenever a string gives the option the numbers found, it
configures the same, or stops with a message where the option refuses them; so it does when it comes
to a reply that cannot be parsed or names a model that is not in the table; and it does not use an
entry that is not there. -/
structure LikeOption : Prop where
  configures : (∀ slot ∈ [1, 2, 3, 4, 5], replies.Identified slot) →
    ∃ str config, [1, 2, 3, 4, 5].map replies.found = optionModels str ∧
      parseModelConfig str ⟨[0, 0, 0, 0, 0], []⟩ = (none, config) ∧
        replies.probe = .done (.configured config) ()
  agrees : ∀ str, [1, 2, 3, 4, 5].map replies.found = optionModels str →
    match parseModelConfig str ⟨[0, 0, 0, 0, 0], []⟩ with
    | (none, config) => replies.probe = .done (.configured config) ()
    | (some _, _) => ∃ message, replies.probe = .done (.stopped message) ()
  refuses : ∀ slot, replies.Reaches slot →
    (∀ model ∈ replies.named slot, modeltabFind model = none) →
      ∃ message, replies.probe = .done (.stopped message) ()
  finds : replies.probe ≠ .done .crash ()

/-! ## One slot -/

section
variable {replies} (find : Int → Option Modeltab) {slot : Nat} (slots : List Nat)
  (config : Config)

/-- A reply that is too short ends the program. -/
theorem run_unparsable (short : replies.named slot = none) :
    (probeSlots find (slot :: slots) config).run replies.perform () =
      .done (.stopped "parse error reading slot ctype") () := by
  have short : ctypeOf (replies.reply slot) = none := short
  simp [probeSlots, Program.run, perform, short]

/-- A model that is found is looked up. -/
theorem run_found {model : Int} (found : replies.found slot = some model) :
    (probeSlots find (slot :: slots) config).run replies.perform () =
      match find model with
      | none => .done .crash ()
      | some cp =>
        (probeSlots find slots (fillSlot slot model cp config)).run replies.perform () := by
  rw [Replies.found, Replies.named] at found
  cases named : ctypeOf (replies.reply slot) with
  | none => simp [named] at found
  | some number =>
    rw [named, Option.bind_some] at found
    by_cases alike : number = 44471
    · rw [if_pos alike] at found
      obtain ⟨card, told, same⟩ := Option.map_eq_some_iff.mp found
      simp only [probeSlots, Program.run, perform, Outcome.bind_done, named, alike, if_true, told,
        same]
      cases find model <;> rfl
    · rw [if_neg alike] at found
      obtain rfl := Option.some.inj found
      simp only [probeSlots, Program.run, perform, Outcome.bind_done, named, alike, if_false]
      cases find number <;> rfl

/-- A card that is not told from the others ends the program. -/
theorem run_untold (long : replies.named slot ≠ none) (untold : replies.found slot = none) :
    (probeSlots find (slot :: slots) config).run replies.perform () = .exited 1 () := by
  rw [Replies.found] at untold
  rw [Replies.named] at long untold
  cases named : ctypeOf (replies.reply slot) with
  | none => exact absurd named long
  | some number =>
    rw [named, Option.bind_some] at untold
    by_cases alike : number = 44471
    · rw [if_pos alike, Option.map_eq_none_iff] at untold
      simp [probeSlots, Program.run, perform, named, alike, untold]
    · simp [alike] at untold

end

/-! ## All slots -/

section
variable {replies}

/-- The loop of the probe goes like that of the option over the same numbers, but where the option
refuses a number it crashes. -/
theorem probeSlots_like (find : Int → Option Modeltab) {slots : List Nat}
    {tokens : List (List Char)} (config : Config)
    (same : slots.map replies.found =
      (tokens.take slots.length).map fun modstr => some (modelOf modstr)) :
    (probeSlots find slots config).run replies.perform () =
      match parseWords find slots tokens config with
      | (none, config) => .done (.configured config) ()
      | (some _, _) => .done .crash () := by
  induction slots generalizing tokens config with
  | nil => rfl
  | cons slot slots ih =>
    cases tokens with
    | nil => cases same
    | cons modstr tokens =>
      obtain ⟨found, same⟩ := List.cons.inj same
      rw [run_found find slots config found, parseWords]
      cases find (modelOf modstr) with
      | none => rfl
      | some cp => exact ih _ same

/-- Slots in which models of the table are found let the loop go on. -/
theorem probeSlots_prefix {before : List Nat}
    (identified : ∀ slot ∈ before, replies.Identified slot) (slots : List Nat) (config : Config) :
    ∃ config', (probeSlots modeltabFind (before ++ slots) config).run replies.perform () =
      (probeSlots modeltabFind slots config').run replies.perform () := by
  induction before generalizing config with
  | nil => exact ⟨config, rfl⟩
  | cons slot before ih =>
    obtain ⟨model, found, known⟩ := identified slot List.mem_cons_self
    obtain ⟨cp, known⟩ := Option.isSome_iff_exists.mp known
    obtain ⟨config', same⟩ := ih (fun other later => identified other
      (List.mem_cons_of_mem slot later)) (fillSlot slot model cp config)
    refine ⟨config', ?_⟩
    rw [List.cons_append, run_found modeltabFind _ _ found, known]
    exact same

/-- The loop crashes only at a model that is not in the table, after slots in which models of the
table were found. -/
theorem probeSlots_crash {slots : List Nat} {config : Config}
    (crash : (probeSlots modeltabFind slots config).run replies.perform () = .done .crash ()) :
    ∃ before slot later, slots = before ++ slot :: later ∧
      (∀ earlier ∈ before, replies.Identified earlier) ∧
        ∃ model ∈ replies.found slot, modeltabFind model = none := by
  induction slots generalizing config with
  | nil => cases crash
  | cons slot slots ih =>
    cases found : replies.found slot with
    | none =>
      by_cases named : replies.named slot = none
      · rw [run_unparsable modeltabFind slots config named] at crash
        cases crash
      · rw [run_untold modeltabFind slots config named found] at crash
        cases crash
    | some model =>
      rw [run_found modeltabFind slots config found] at crash
      cases known : modeltabFind model with
      | none => exact ⟨[], slot, slots, rfl, by simp, model, found, known⟩
      | some cp =>
        rw [known] at crash
        obtain ⟨before, other, later, split, identified, unknown⟩ := ih crash
        refine ⟨slot :: before, other, later, by rw [split, List.cons_append], ?_, unknown⟩
        rintro earlier (_ | ⟨_, member⟩)
        · exact ⟨model, found, by rw [known, Option.isSome_some]⟩
        · exact identified earlier member

/-- The loop over all slots, when the program starts. -/
def loop (replies : Replies) : Outcome Unit Probed :=
  (probeSlots modeltabFind [1, 2, 3, 4, 5] ⟨[0, 0, 0, 0, 0], []⟩).run replies.perform ()

/-- The probe runs its loop, and sorts. -/
theorem probe_eq : replies.probe = replies.loop.bind fun probed m => .done (sortTargets probed) m :=
  Program.run_bind _ _ _

/-- The probe crashes when it comes to a model that is not in the table, and only then. -/
theorem probe_crash_iff :
    replies.probe = .done .crash () ↔
      ∃ slot, replies.Reaches slot ∧ ∃ model ∈ replies.found slot, modeltabFind model = none := by
  rw [probe_eq]
  constructor
  · intro crash
    obtain ⟨probed, m, looped, sorted⟩ := Outcome.bind_eq_done.mp crash
    cases probed with
    | configured config => cases sorted
    | stopped message => cases sorted
    | crash =>
      obtain ⟨before, slot, later, split, identified, unknown⟩ := probeSlots_crash looped
      exact ⟨slot, ⟨before, later, split, identified⟩, unknown⟩
  · rintro ⟨slot, ⟨before, later, split, identified⟩, model, found, unknown⟩
    obtain ⟨config, same⟩ := probeSlots_prefix identified (slot :: later) ⟨[0, 0, 0, 0, 0], []⟩
    have looped : replies.loop = .done .crash () := by
      rw [loop, split, same, run_found modeltabFind later config found, unknown]
    rw [looped]
    rfl

/-- The probe stops at a reply that cannot be parsed. -/
theorem probe_unparsable {slot : Nat} (reaches : replies.Reaches slot)
    (short : replies.named slot = none) :
    replies.probe = .done (.stopped "parse error reading slot ctype") () := by
  obtain ⟨before, later, split, identified⟩ := reaches
  obtain ⟨config, same⟩ := probeSlots_prefix identified (slot :: later) ⟨[0, 0, 0, 0, 0], []⟩
  have looped : replies.loop = .done (.stopped "parse error reading slot ctype") () := by
    rw [loop, split, same, run_unparsable modeltabFind later config short]
  rw [probe_eq, looped]
  rfl

/-- A card that is told from the others is in the table. -/
theorem modeltabFind_card (card : Lookalike) : (modeltabFind card.val).isSome = true := by
  obtain ⟨model, rfl | rfl | rfl⟩ := card <;> rfl

/-- A model that is not in the table is found exactly when a reply names it. -/
theorem found_unknown_iff {slot : Nat} {model : Int} (unknown : modeltabFind model = none) :
    model ∈ replies.found slot ↔ model ∈ replies.named slot := by
  rw [Replies.found]
  cases named : replies.named slot with
  | none => rfl
  | some number =>
    rw [Option.bind_some]
    by_cases alike : number = 44471
    · rw [if_pos alike]
      constructor
      · intro found
        obtain ⟨card, -, same⟩ := Option.map_eq_some_iff.mp found
        have known := modeltabFind_card card
        rw [same, unknown] at known
        cases known
      · intro same
        rw [← Option.some.inj same, alike] at unknown
        cases unknown
    · rw [if_neg alike]

/-- The option, for the numbers found. -/
theorem probe_like (str : List Char)
    (same : [1, 2, 3, 4, 5].map replies.found = optionModels str) :
    replies.probe =
      match parseModelConfig str ⟨[0, 0, 0, 0, 0], []⟩ with
      | (none, config) => .done (.configured config) ()
      | (some _, _) => .done .crash () := by
  have looped := probeSlots_like modeltabFind ⟨[0, 0, 0, 0, 0], []⟩ same
  rw [← parseSlots_words] at looped
  rw [probe_eq, loop, looped, parseModelConfig]
  cases parseSlots modeltabFind [1, 2, 3, 4, 5] str ⟨[0, 0, 0, 0, 0], []⟩ with
  | mk refusal config => cases refusal <;> rfl

/-- A number of the table is read as it is printed. -/
theorem modelOf_decimalText {model : Int} (known : (modeltabFind model).isSome = true) :
    modelOf (decimalText model.toNat) = model := by
  obtain ⟨cp, lookup⟩ := Option.isSome_iff_exists.mp known
  have entry := List.mem_of_find?_eq_some lookup
  have equal := List.find?_some lookup
  have number : cp.model = model := of_decide_eq_true equal
  have nonneg : ∀ cp ∈ modeltab, 0 ≤ cp.model := by decide
  have positive := nonneg cp entry
  have value : numberOf (decimalText model.toNat) = model := by
    rw [numberOf, digitsValue_decimalText]
    omega
  have listed : numberOf (decimalText model.toNat) ∈ modeltab.map Modeltab.model :=
    value.symm ▸ number ▸ List.mem_map_of_mem entry
  rw [(found_field (decimalText_ne_nil _) (fun _ => isDigit_decimalText) listed).1, value]

/-- Numbers that are printed with commas between them are the words. -/
theorem words_decimalText (models : List Int) :
    let fields := models.map fun model => decimalText model.toNat
    words isComma (List.intercalate [','] fields) = fields := by
  apply words_intercalate rfl
  intro field member
  obtain ⟨model, -, rfl⟩ := List.mem_map.mp member
  refine ⟨decimalText_ne_nil _, fun c within => decide_eq_false ?_⟩
  rintro rfl
  exact absurd (isDigit_decimalText within) (by decide)

/-- Numbers of the table are those of a string, which the option accepts. -/
theorem exists_option {models : List Int} (five : models.length = 5)
    (known : ∀ model ∈ models, (modeltabFind model).isSome = true) :
    ∃ str config, optionModels str = models.map some ∧
      parseModelConfig str ⟨[0, 0, 0, 0, 0], []⟩ = (none, config) := by
  let fields := models.map fun model => decimalText model.toNat
  have tokens : words isComma (List.intercalate [','] fields) = fields := words_decimalText models
  have all : fields.take 5 = fields := List.take_of_length_le (by simp [fields, five])
  have found : ∀ modstr ∈ fields.take 5, (modeltabFind (modelOf modstr)).isSome = true := by
    intro modstr member
    obtain ⟨model, within, rfl⟩ := List.mem_map.mp (List.mem_of_mem_take member)
    rw [modelOf_decimalText (known model within)]
    exact known model within
  have accepted := (parseWords_iff modeltabFind [1, 2, 3, 4, 5] fields
    ⟨[0, 0, 0, 0, 0], []⟩).mpr ⟨by simp [fields, five], found⟩
  rw [← tokens, ← parseSlots_words] at accepted
  cases parsed : parseSlots modeltabFind [1, 2, 3, 4, 5] (List.intercalate [','] fields)
      ⟨[0, 0, 0, 0, 0], []⟩ with
  | mk refusal config =>
    rw [parsed] at accepted
    cases accepted
    refine ⟨List.intercalate [','] fields, _, ?_, by rw [parseModelConfig, parsed]⟩
    rw [optionModels, tokens, all, List.map_map]
    exact List.map_congr_left fun model member =>
      congrArg some (modelOf_decimalText (known model member))

/-- Models of the table that are found in all slots are configured. -/
theorem probe_configures (identified : ∀ slot ∈ [1, 2, 3, 4, 5], replies.Identified slot) :
    ∃ str config, [1, 2, 3, 4, 5].map replies.found = optionModels str ∧
      parseModelConfig str ⟨[0, 0, 0, 0, 0], []⟩ = (none, config) ∧
        replies.probe = .done (.configured config) () := by
  let models := [1, 2, 3, 4, 5].map fun slot => (replies.found slot).getD 0
  have found : [1, 2, 3, 4, 5].map replies.found = models.map some := by
    rw [List.map_map]
    apply List.map_congr_left
    intro slot member
    obtain ⟨model, found, -⟩ := identified slot member
    simp [Option.mem_def.mp found]
  have listed : ∀ model ∈ models, (modeltabFind model).isSome = true := by
    intro model member
    obtain ⟨slot, within, rfl⟩ := List.mem_map.mp member
    obtain ⟨model, found, known⟩ := identified slot within
    simpa [Option.mem_def.mp found] using known
  obtain ⟨str, config, same, accepted⟩ := exists_option rfl listed
  have like := probe_like str (found.trans same.symm)
  rw [accepted] at like
  exact ⟨str, config, found.trans same.symm, accepted, like⟩

end

/-- The probe does what the option does exactly when no reply that it comes to names a model that is
not in the table. -/
theorem probe_like_option_iff (replies : Replies) :
    replies.LikeOption ↔ ∀ slot, replies.Reaches slot →
      ∀ model ∈ replies.named slot, (modeltabFind model).isSome = true := by
  constructor
  · intro like slot reaches model named
    by_contra unknown
    have unknown : modeltabFind model = none := by simpa using unknown
    exact like.finds (probe_crash_iff.mpr
      ⟨slot, reaches, model, (found_unknown_iff unknown).mpr named, unknown⟩)
  · intro known
    have finds : replies.probe ≠ .done .crash () := by
      intro crash
      obtain ⟨slot, reaches, model, found, unknown⟩ := probe_crash_iff.mp crash
      have named := known slot reaches model ((found_unknown_iff unknown).mp found)
      rw [unknown] at named
      cases named
    refine ⟨probe_configures, ?_, ?_, finds⟩
    · intro str same
      have like := probe_like str same
      cases parsed : parseModelConfig str ⟨[0, 0, 0, 0, 0], []⟩ with
      | mk refusal config =>
        rw [parsed] at like
        cases refusal with
        | none => exact like
        | some refusal => exact absurd like finds
    · intro slot reaches trouble
      cases named : replies.named slot with
      | none => exact ⟨_, probe_unparsable reaches named⟩
      | some model =>
        have isSome := known slot reaches model named
        rw [trouble model named] at isSome
        cases isSome

/-- A card with a number that is not in the table crashes the probe; the option refuses the
number. -/
theorem unknown_card_crashes :
    let replies : Replies := ⟨fun _ => "CARD #1 IS 12345".toList, fun _ => none⟩
    replies.probe = .done .crash () ∧
      (parseModelConfig "12345,0,0,0,0".toList ⟨[0, 0, 0, 0, 0], []⟩).1 =
        some (.unknown "12345".toList) ∧
      ¬replies.LikeOption := by
  intro replies
  have found : replies.found 1 = some 12345 := by decide +kernel
  have crash : replies.probe = .done .crash () :=
    probe_crash_iff.mpr ⟨1, ⟨[], [2, 3, 4, 5], rfl, by simp⟩, 12345, found, by decide⟩
  exact ⟨crash, by decide +kernel, fun like => like.finds crash⟩

/-! ## Any instrument -/

section
variable {replies}

/-- The loop is told of its own slots only. -/
theorem probeSlots_congr (find : Int → Option Modeltab) {replies' : Replies} {slots : List Nat}
    (same : ∀ slot ∈ slots, replies.reply slot = replies'.reply slot ∧
      replies.card slot = replies'.card slot) (config : Config) :
    (probeSlots find slots config).run replies.perform () =
      (probeSlots find slots config).run replies'.perform () := by
  induction slots generalizing config with
  | nil => rfl
  | cons slot slots ih =>
    have first := same slot List.mem_cons_self
    have later := ih fun other member => same other (List.mem_cons_of_mem slot member)
    have told : replies.named slot = replies'.named slot := by
      rw [Replies.named, Replies.named, first.1]
    have alike : replies.found slot = replies'.found slot := by
      rw [Replies.found, Replies.found, told, first.2]
    cases named : replies.named slot with
    | none =>
      rw [run_unparsable find slots config named,
        run_unparsable find slots config (told ▸ named)]
    | some number =>
      cases found : replies.found slot with
      | none =>
        rw [run_untold find slots config (by simp [named]) found,
          run_untold find slots config (by simp [← told, named]) (alike ▸ found)]
      | some model =>
        rw [run_found find slots config found, run_found find slots config (alike ▸ found)]
        cases find model with
        | none => rfl
        | some cp => exact later _

/-- One slot of a probe that returns: its reply is too short, or a model is found and looked up. -/
theorem probeSlots_step {μ : Type} {perform : (op : ProbeOp) → μ → Outcome μ op.Told}
    (find : Int → Option Modeltab) {slot : Nat} {slots : List Nat} {config : Config} {m m' : μ}
    {probed : Probed}
    (returns : (probeSlots find (slot :: slots) config).run perform m = .done probed m') :
    ∃ buf card, (ctypeOf buf = none ∧ probed = .stopped "parse error reading slot ctype") ∨
      ∃ model between, Replies.found ⟨fun _ => buf, fun _ => card⟩ slot = some model ∧
        match find model with
        | none => probed = .crash
        | some cp => (probeSlots find slots (fillSlot slot model cp config)).run perform between =
            .done probed m' := by
  obtain ⟨buf, n, -, returns⟩ := Outcome.bind_eq_done.mp returns
  cases named : ctypeOf buf with
  | none =>
    simp only [named, Program.run] at returns
    cases returns
    exact ⟨buf, none, .inl ⟨named, rfl⟩⟩
  | some number =>
    simp only [named] at returns
    by_cases alike : number = 44471
    · rw [if_pos alike] at returns
      obtain ⟨card, l, -, returns⟩ := Outcome.bind_eq_done.mp returns
      refine ⟨buf, some card, .inr ⟨card.val, l, ?_, ?_⟩⟩
      · simp [Replies.found, Replies.named, named, alike]
      · cases known : find card.val with
        | none =>
          simp only [known, Program.run] at returns
          cases returns
          rfl
        | some cp => simpa only [known] using returns
    · rw [if_neg alike] at returns
      refine ⟨buf, none, .inr ⟨number, n, ?_, ?_⟩⟩
      · simp [Replies.found, Replies.named, named, alike]
      · cases known : find number with
        | none =>
          simp only [known, Program.run] at returns
          cases returns
          rfl
        | some cp => simpa only [known] using returns

/-- A probe that returns what it does on any machine is told some replies. -/
theorem probeSlots_answered {μ : Type} {perform : (op : ProbeOp) → μ → Outcome μ op.Told}
    (find : Int → Option Modeltab) {slots : List Nat} (distinct : slots.Nodup) {config : Config}
    {m m' : μ} {probed : Probed}
    (returns : (probeSlots find slots config).run perform m = .done probed m') :
    ∃ replies : Replies,
      (probeSlots find slots config).run replies.perform () = .done probed () := by
  induction slots generalizing config m with
  | nil =>
    cases returns
    exact ⟨⟨fun _ => [], fun _ => none⟩, rfl⟩
  | cons slot slots ih =>
    obtain ⟨buf, card, ⟨short, rfl⟩ | ⟨model, between, found, rest⟩⟩ :=
      probeSlots_step find returns
    · exact ⟨⟨fun _ => buf, fun _ => card⟩, run_unparsable find slots config short⟩
    · cases known : find model with
      | none =>
        rw [known] at rest
        refine ⟨⟨fun _ => buf, fun _ => card⟩, ?_⟩
        rw [run_found find slots config found, known, rest]
      | some cp =>
        rw [known] at rest
        obtain ⟨fresh, distinct⟩ := List.nodup_cons.mp distinct
        obtain ⟨later, told⟩ := ih distinct rest
        let replies : Replies :=
          ⟨Function.update later.reply slot buf, Function.update later.card slot card⟩
        have first : replies.found slot = some model := by
          simpa [Replies.found, Replies.named, replies] using found
        have others : ∀ other ∈ slots, replies.reply other = later.reply other ∧
            replies.card other = later.card other := by
          intro other member
          have differ : other ≠ slot := fun same => fresh (same ▸ member)
          exact ⟨Function.update_of_ne differ _ _, Function.update_of_ne differ _ _⟩
        refine ⟨replies, ?_⟩
        rw [run_found find slots config first, known]
        exact (probeSlots_congr find others _).trans told

end

end Replies

/-- What the probe of an instrument comes to, when it returns, is what a probe comes to that is told
some replies. -/
theorem probe_answered (gd : Instrument) (surface : Surface) (rounds depth : Nat) {p q : Probe}
    {probed : Probed}
    (returns : (probeModelConfig ⟨[0, 0, 0, 0, 0], []⟩).run
      (Probe.ask gd surface rounds depth) p = .done probed q) :
    ∃ replies : Replies, replies.probe = .done probed () := by
  rw [probeModelConfig, Program.run_bind] at returns
  obtain ⟨unsorted, l, looped, sorted⟩ := Outcome.bind_eq_done.mp returns
  obtain ⟨replies, told⟩ := Replies.probeSlots_answered modeltabFind (by decide) looped
  refine ⟨replies, ?_⟩
  rw [Replies.probe_eq, Replies.loop, told]
  cases sorted
  rfl

end GpibUtils.Hp3488
