import GpibUtils.Lsd.HostlistReckless
import GpibUtils.Lsd.HostlistSort
import GpibUtils.Tools.Hp3488Config

/-!
# The list of channels of hp3488

The addresses of the channels of the installed cards are pushed to a host list, a card after
another, and the list is sorted. Its ranges are in order and apart, so the list stands for the
addresses of one card after another. When the cards have sixteen ranges of channels the array of the
list is full, and whatever goes through the list to its end leaves the array (`targetsOf_known`).
-/

namespace GpibUtils.Hp3488

open CSem Lsd

/-! ## The code -/

/-- What a pass of the loops of `_parse_model_config` and `_probe_model_config` pushes, for an entry
that was found. -/
def pushCard (slot : Nat) (cp : Modeltab) (validTargets : Hostlist) : Option Hostlist :=
  match cp.list with
  | none => some validTargets
  | some list => Lsd.hostlistPush validTargets (Nat.toDigits 10 slot ++ list)

/-- What the passes push for the cards in some slots. -/
def pushCards : List (Nat × Int) → Hostlist → Option Hostlist
  | [], validTargets => some validTargets
  | (slot, model) :: slots, validTargets => do
    let cp ← modeltabFind model
    let validTargets ← pushCard slot cp validTargets
    pushCards slots validTargets

/-- `valid_targets`, for the cards in the five slots: `hostlist_create("")`, the pushes, and
`hostlist_sort`. -/
def targetsOf (rounds : Nat) (slotConfig : List Int) : Option Hostlist :=
  (pushCards ([1, 2, 3, 4, 5].zip slotConfig) hostlistNew).bind (Lsd.hostlistSort rounds)

/-! ## Cards -/

/-- The bounds of the ranges of channels of a card. -/
def cardBounds (model : Int) : List (UInt64 × UInt64) :=
  if model = 44470 ∨ model = 44471 then [(0, 9)]
  else if model = 44472 ∨ model = 44478 then [(0, 3), (10, 13)]
  else if model = 44473 then [(0, 3), (10, 13), (20, 23), (30, 33)]
  else if model = 44474 then [(0, 15)]
  else if model = 44476 then [(0, 3)]
  else if model = 44477 then [(0, 6)]
  else []

/-- The ranges of hosts of a card in a slot. -/
def cardRanges (slot : Nat) (model : Int) : List Hostrange :=
  (cardBounds model).map fun (lo, hi) => hostrangeCreate (Nat.toDigits 10 slot) lo hi 2

/-- The number of ranges of some cards. -/
def rangeCount (models : List Int) : Nat := (models.map fun model => (cardBounds model).length).sum

/-- The list that the text of a card makes. -/
theorem hostlistCreate_card : ∀ cp ∈ modeltab, ∀ slot ∈ [1, 2, 3, 4, 5],
    (cp.list.map fun list => hostlistCreate (Nat.toDigits 10 slot ++ list)) =
      cp.list.map fun _ => .list ⟨cardRanges slot cp.model, 16, (channels cp.model).length⟩ := by
  decide

/-- The hosts of the ranges of a card are the addresses of its channels. -/
theorem cardRanges_hosts : ∀ cp ∈ modeltab, ∀ slot ∈ [1, 2, 3, 4, 5],
    Blocks.all Hostrange.hosts (cardRanges slot cp.model) =
      (channels cp.model).map (address slot) := by
  decide

/-- A card without channels has no ranges, and no card has more than four. -/
theorem cardBounds_length : ∀ cp ∈ modeltab,
    (cp.list = none → cardBounds cp.model = []) ∧ (cardBounds cp.model).length ≤ 4 ∧
      (channels cp.model).length ≤ 16 := by
  decide

/-- The bounds of the ranges of a card are in order, and small. -/
theorem cardBounds_order : ∀ cp ∈ modeltab, ∀ bounds ∈ cardBounds cp.model,
    bounds.1.toNat ≤ bounds.2.toNat ∧ bounds.2.toNat < 100 := by
  have each : ∀ cp ∈ modeltab, (cardBounds cp.model).all fun bounds =>
      decide (bounds.1.toNat ≤ bounds.2.toNat ∧ bounds.2.toNat < 100) := by decide
  intro cp inTable bounds member
  exact of_decide_eq_true (List.all_eq_true.mp (each cp inTable) bounds member)

/-- The ranges of a card come one after another, and do not touch. -/
theorem cardBounds_apart : ∀ cp ∈ modeltab,
    (cardBounds cp.model).Pairwise fun first second => first.2.toNat + 1 < second.1.toNat := by
  decide

/-- The digits of the slots are in order. -/
theorem slots_apart : [1, 2, 3, 4, 5].Pairwise fun slot slot' =>
    strcmp (Nat.toDigits 10 slot) (Nat.toDigits 10 slot') < 0 := by
  decide

/-- The ranges of a card fit. -/
theorem cardRanges_fit {cp : Modeltab} (member : cp ∈ modeltab) {slot : Nat}
    (inside : slot ∈ [1, 2, 3, 4, 5]) : ∀ hr ∈ cardRanges slot cp.model, hr.Fits := by
  intro hr range
  obtain ⟨⟨lo, hi⟩, bounds, rfl⟩ := List.mem_map.mp range
  obtain ⟨order, small⟩ := cardBounds_order cp member (lo, hi) bounds
  have digits : ∀ slot ∈ [1, 2, 3, 4, 5], (Nat.toDigits 10 slot).length ≤ maxhostnamelen := by
    decide
  dsimp only at order small
  have fits : hi.toNat < 10 ^ 14 := by omega
  exact ⟨.numbers _ _ order (by omega), digits slot inside, Nat.le_add_left 2 12, fits⟩

/-- The ranges of a card are apart. -/
theorem cardRanges_apart {cp : Modeltab} (member : cp ∈ modeltab) (slot : Nat) :
    (cardRanges slot cp.model).Pairwise Apart := by
  rw [cardRanges, List.pairwise_map]
  refine (cardBounds_apart cp member).imp_of_mem fun {first second} front back below => ?_
  obtain ⟨order, -⟩ := cardBounds_order cp member first front
  obtain ⟨order', small⟩ := cardBounds_order cp member second back
  exact .inr ⟨rfl, rfl, rfl, rfl, order, below, by dsimp only [hostrangeCreate]; omega⟩

/-- The ranges of all cards. -/
def allRanges (slots : List (Nat × Int)) : List Hostrange :=
  slots.flatMap fun slot => cardRanges slot.1 slot.2

/-- Slots that there are, with cards that are known, in order. -/
structure Slots (slots : List (Nat × Int)) : Prop where
  inside : ∀ slot ∈ slots, slot.1 ∈ [1, 2, 3, 4, 5]
  known : ∀ slot ∈ slots, ∃ cp ∈ modeltab, cp.model = slot.2 ∧ modeltabFind slot.2 = some cp
  order : slots.Pairwise fun slot slot' =>
    strcmp (Nat.toDigits 10 slot.1) (Nat.toDigits 10 slot'.1) < 0

/-- The ranges of cards in slots that are in order are apart. -/
theorem Slots.apart {slots : List (Nat × Int)} (valid : Slots slots) :
    (allRanges slots).Pairwise Apart := by
  rw [allRanges, List.pairwise_flatMap]
  constructor
  · intro slot member
    obtain ⟨cp, inTable, same, -⟩ := valid.known slot member
    exact same ▸ cardRanges_apart inTable slot.1
  · refine valid.order.imp fun {slot slot'} less hr range hr' range' => ?_
    obtain ⟨bounds, -, rfl⟩ := List.mem_map.mp range
    obtain ⟨bounds', -, rfl⟩ := List.mem_map.mp range'
    exact .inl less

/-- The hosts of the ranges of all cards are the addresses of their channels. -/
theorem Slots.hosts {slots : List (Nat × Int)} (valid : Slots slots) :
    Blocks.all Hostrange.hosts (allRanges slots) = addresses slots := by
  rw [Blocks.all, allRanges, List.flatMap_assoc, addresses]
  refine List.flatMap_congr fun slot member => ?_
  obtain ⟨cp, inTable, same, -⟩ := valid.known slot member
  have hosts := cardRanges_hosts cp inTable slot.1 (valid.inside slot member)
  rw [same] at hosts
  exact hosts

/-- Slots go on being in order without the first one. -/
theorem Slots.tail {slot : Nat × Int} {slots : List (Nat × Int)} (valid : Slots (slot :: slots)) :
    Slots slots where
  inside := fun other member => valid.inside other (List.mem_cons_of_mem _ member)
  known := fun other member => valid.known other (List.mem_cons_of_mem _ member)
  order := (List.pairwise_cons.mp valid.order).2

/-- The ranges of all cards fit. -/
theorem Slots.fit {slots : List (Nat × Int)} (valid : Slots slots) :
    ∀ hr ∈ allRanges slots, hr.Fits := by
  intro hr member
  obtain ⟨slot, inSlots, range⟩ := List.mem_flatMap.mp member
  obtain ⟨cp, inTable, same, -⟩ := valid.known slot inSlots
  rw [← same] at range
  exact cardRanges_fit inTable (valid.inside slot inSlots) hr range

/-- There are not too many channels, and not too many ranges of them. -/
theorem Slots.few {slots : List (Nat × Int)} (valid : Slots slots) :
    (addresses slots).length ≤ 16 * slots.length ∧ (allRanges slots).length ≤ 4 * slots.length := by
  induction slots with
  | nil => exact ⟨Nat.le_refl 0, Nat.le_refl 0⟩
  | cons slot slots ih =>
    obtain ⟨cp, inTable, same, -⟩ := valid.known slot List.mem_cons_self
    obtain ⟨-, ranges, most⟩ := cardBounds_length cp inTable
    obtain ⟨names, count⟩ := ih valid.tail
    have first : addresses (slot :: slots) =
        (channels slot.2).map (address slot.1) ++ addresses slots := List.flatMap_cons
    have first' : allRanges (slot :: slots) = cardRanges slot.1 slot.2 ++ allRanges slots :=
      List.flatMap_cons
    rw [first, first', List.length_append, List.length_append, List.length_map, cardRanges,
      List.length_map, List.length_cons, ← same]
    omega

/-- What is pushed for a card is the list of its ranges. -/
theorem pushCard_eq {slot : Nat} (inside : slot ∈ [1, 2, 3, 4, 5]) {cp : Modeltab}
    (member : cp ∈ modeltab) (hl : Hostlist) :
    pushCard slot cp hl =
      some (hostlistPushList hl ⟨cardRanges slot cp.model, 16, (channels cp.model).length⟩).2 := by
  have created := hostlistCreate_card cp member slot inside
  rw [pushCard]
  cases list : cp.list with
  | none =>
    rw [cardRanges, (cardBounds_length cp member).1 list]
    rfl
  | some text =>
    rw [list, Option.map_some, Option.map_some] at created
    dsimp only
    rw [Lsd.hostlistPush, Option.some.inj created]

/-- The cards in slots that are in order are pushed to a list: their ranges are kept as they are. -/
theorem pushCards_ranges {slots : List (Nat × Int)} (valid : Slots slots) {hl : Hostlist}
    (sound : hl.Sound) (sized : hl.Sized) (apart : (hl.hr ++ allRanges slots).Pairwise Apart)
    (few : (hl.hosts.length + (addresses slots).length : Int) ≤ intMax) :
    ∃ hl', pushCards slots hl = some hl' ∧ hl'.hr = hl.hr ++ allRanges slots ∧ hl'.Sized ∧
      hl'.Sound := by
  induction slots generalizing hl with
  | nil => exact ⟨hl, rfl, (List.append_nil _).symm, sized, sound⟩
  | cons slot slots ih =>
    obtain ⟨cp, inTable, same, found⟩ := valid.known slot List.mem_cons_self
    have inside := valid.inside slot List.mem_cons_self
    have ranges : allRanges (slot :: slots) =
        cardRanges slot.1 cp.model ++ allRanges slots := by
      rw [allRanges, List.flatMap_cons, same]
      rfl
    have names : addresses (slot :: slots) =
        (channels cp.model).map (address slot.1) ++ addresses slots := by
      rw [same]
      exact List.flatMap_cons
    have hosts := cardRanges_hosts cp inTable slot.1 inside
    let card : Hostlist := ⟨cardRanges slot.1 cp.model, 16, (channels cp.model).length⟩
    have cardHosts : card.hosts = (channels cp.model).map (address slot.1) := hosts
    have small := cardBounds_length cp inTable
    have cardSound : card.Sound := by
      refine ⟨cardRanges_fit inTable inside, Nat.succ_pos 15, ?_, ?_, ?_⟩
      · show ((cardBounds cp.model).map _).length ≤ 16
        rw [List.length_map]
        omega
      · rw [cardHosts, List.length_map]
      · rw [cardHosts, List.length_map, intMax]
        omega
    rw [names, List.length_append, List.length_map] at few
    rw [ranges, ← List.append_assoc] at apart
    obtain ⟨pushed, sized'⟩ := @hostlistPushList_apart hl card (List.pairwise_append.mp apart).1
      sized
    obtain ⟨-, hosts', sound'⟩ := hostlistPushList_spec sound cardSound (by
      rw [cardHosts, List.length_map]
      omega)
    obtain ⟨hl', rest, all, sized'', sound''⟩ := ih valid.tail sound' sized' (pushed ▸ apart) (by
      rw [hosts', cardHosts, List.length_append, List.length_map]
      omega)
    refine ⟨hl', ?_, ?_, sized'', sound''⟩
    · rw [pushCards, found, Option.bind_eq_bind, Option.bind_some, pushCard_eq inside inTable]
      exact rest
    · rw [all, pushed, ranges, List.append_assoc]

/-- The slots of five known cards. -/
theorem slots_of_known {models : List Int} (five : models.length = 5)
    (known : ∀ model ∈ models, model ∈ modeltab.map Modeltab.model) :
    Slots ([1, 2, 3, 4, 5].zip models) where
  inside := fun slot member => (List.of_mem_zip member).1
  known := by
    intro slot member
    have inTable := known slot.2 (List.of_mem_zip member).2
    have found : ∀ model ∈ modeltab.map Modeltab.model,
        ∃ cp ∈ modeltab, cp.model = model ∧ modeltabFind model = some cp := by decide
    exact found slot.2 inTable
  order := by
    have firsts : (([1, 2, 3, 4, 5] : List Nat).zip models).map Prod.fst = [1, 2, 3, 4, 5] :=
      List.map_fst_zip (by rw [five]; decide)
    rw [← List.pairwise_map (f := Prod.fst) (R := fun slot slot' =>
      strcmp (Nat.toDigits 10 slot) (Nat.toDigits 10 slot') < 0), firsts]
    exact slots_apart

/-- The ranges of five cards are counted. -/
theorem length_allRanges {models : List Int} (five : models.length = 5) :
    (allRanges ([1, 2, 3, 4, 5].zip models)).length = rangeCount models := by
  have seconds : (([1, 2, 3, 4, 5] : List Nat).zip models).map Prod.snd = models :=
    List.map_snd_zip (by rw [five]; decide)
  have counts :=
    congrArg (fun models => (models.map fun model => (cardBounds model).length).sum) seconds
  rw [allRanges, List.length_flatMap, rangeCount, ← counts, List.map_map]
  refine congrArg List.sum (List.map_congr_left fun slot _ => ?_)
  exact List.length_map _

/-- For any five cards that are known the list of channels is built, and stands for the addresses of
the channels of one card after another. Whatever goes through it gets all of them, and then comes to
the end of the list, unless the cards have sixteen ranges of channels: then it leaves the array. -/
theorem targetsOf_known {models : List Int} (five : models.length = 5)
    (known : ∀ model ∈ models, model ∈ modeltab.map Modeltab.model) {rounds : Nat}
    (enough : 20 ≤ rounds) :
    ∃ validTargets, targetsOf rounds models = some validTargets ∧ validTargets.Sound ∧
      validTargets.hosts = addresses ([1, 2, 3, 4, 5].zip models) ∧
      ∀ steps, validTargets.hosts.length < steps →
        iterate validTargets steps = (validTargets.hosts, decide (rangeCount models ≠ 16)) := by
  have valid := slots_of_known five known
  have length : ([1, 2, 3, 4, 5].zip models).length = 5 := by
    rw [List.length_zip, five]
    rfl
  obtain ⟨channels, ranges⟩ := valid.few
  rw [length] at channels ranges
  obtain ⟨validTargets, pushed, all, sized, sound⟩ := pushCards_ranges valid hostlistNew_sound
    hostlistNew_sized valid.apart (by
      rw [intMax]
      show ((0 : Nat) + (addresses ([1, 2, 3, 4, 5].zip models)).length : Int) ≤ 2 ^ 31 - 1
      omega)
  have all : validTargets.hr = allRanges ([1, 2, 3, 4, 5].zip models) := all
  have count : validTargets.hr.length = rangeCount models := by rw [all, length_allRanges five]
  have apart : validTargets.hr.Pairwise Apart := all ▸ valid.apart
  refine ⟨validTargets, ?_, sound, ?_, fun steps enough => ?_⟩
  · rw [targetsOf, pushed, Option.bind_some]
    exact hostlistSort_apart apart (by rw [all]; omega)
  · rw [Hostlist.hosts, all, valid.hosts]
  · have ends : validTargets.hr = [] ∨ validTargets.hr.length < validTargets.size ↔
        rangeCount models ≠ 16 := by
      rw [Hostlist.Sized] at sized
      rw [← List.length_eq_zero_iff, sized, count]
      rw [← all, count] at ranges
      omega
    rw [iterate_eq sound enough, decide_eq_decide.mpr ends]

end GpibUtils.Hp3488
