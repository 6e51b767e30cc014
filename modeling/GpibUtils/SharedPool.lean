import Mathlib.Algebra.Order.Group.Multiset
import Mathlib.Algebra.Order.Ring.Int
import Mathlib.Data.Multiset.Count

/-!
# Pools of shared items

A pool hands out items that are costly to open and may be shared. Each pooled item has a key
and a use count; a request for a key that is pooled is given the item there, another request
opens an item, which is pooled unless there is no memory for it; an item given back is
destroyed with its last use. The bookkeeping is justified by plain ownership: the multiset of
hand-outs that have not been given back. `Counted` relates the two, and every operation keeps
it whatever the keys are; `Keyed` says what the keys mean, and needs items to be pooled under
the key they were asked for.
-/

namespace SharedPool

variable {κ ρ : Type}

/-- A pooled item. -/
structure Entry (κ ρ : Type) where
  key : κ
  item : ρ
  uses : Int
  deriving DecidableEq

/-- What happens to items. -/
inductive Event (κ ρ : Type) where
  /-- An item is opened for a request. -/
  | opened (key : κ) (item : ρ)
  /-- An item is destroyed. -/
  | destroyed (item : ρ)
  deriving DecidableEq

/-- A pool with the hand-outs that have not been given back, and the events so far. -/
structure Holdings (κ ρ : Type) where
  entries : List (Entry κ ρ)
  held : Multiset ρ
  log : List (Event κ ρ)

/-- Nothing pooled, nothing handed out. -/
def Holdings.empty : Holdings κ ρ := ⟨[], 0, []⟩

/-! ## Events -/

section
variable [DecidableEq ρ]

/-- How often an item has been opened. -/
def opens (log : List (Event κ ρ)) (item : ρ) : Nat :=
  log.countP fun
    | .opened _ other => other = item
    | .destroyed _ => false

/-- How often an item has been destroyed. -/
def destroys (log : List (Event κ ρ)) (item : ρ) : Nat :=
  log.countP fun
    | .opened _ _ => false
    | .destroyed other => other = item

/-- An item is open: it has been opened and not been destroyed since. -/
def Open (log : List (Event κ ρ)) (item : ρ) : Prop := destroys log item < opens log item

instance (log : List (Event κ ρ)) (item : ρ) : Decidable (Open log item) :=
  inferInstanceAs (Decidable (_ < _))

/-- The key for which an item was opened last. -/
def openedFor (log : List (Event κ ρ)) (item : ρ) : Option κ :=
  log.reverse.findSome? fun
    | .opened key other => if other = item then some key else none
    | .destroyed _ => none

@[simp] theorem opens_opened (log : List (Event κ ρ)) (key : κ) (item other : ρ) :
    opens (log ++ [.opened key item]) other = opens log other + if item = other then 1 else 0 := by
  simp [opens, List.countP_singleton]

@[simp] theorem opens_destroyed (log : List (Event κ ρ)) (item other : ρ) :
    opens (log ++ [.destroyed item]) other = opens log other := by
  simp [opens]

@[simp] theorem destroys_opened (log : List (Event κ ρ)) (key : κ) (item other : ρ) :
    destroys (log ++ [.opened key item]) other = destroys log other := by
  simp [destroys]

@[simp] theorem destroys_destroyed (log : List (Event κ ρ)) (item other : ρ) :
    destroys (log ++ [.destroyed item]) other =
      destroys log other + if item = other then 1 else 0 := by
  simp [destroys, List.countP_singleton]

@[simp] theorem openedFor_opened (log : List (Event κ ρ)) (key : κ) (item other : ρ) :
    openedFor (log ++ [.opened key item]) other =
      if item = other then some key else openedFor log other := by
  by_cases same : item = other <;> simp [openedFor, same]

@[simp] theorem openedFor_destroyed (log : List (Event κ ρ)) (item other : ρ) :
    openedFor (log ++ [.destroyed item]) other = openedFor log other := by
  simp [openedFor]

end

/-! ## Searches -/

section
variable [DecidableEq κ]

/-- The first entry under a key counts one use more; the item there. -/
def reuse (key : κ) : List (Entry κ ρ) → Option (ρ × List (Entry κ ρ))
  | [] => none
  | e :: later =>
    if e.key = key then some (e.item, { e with uses := e.uses + 1 } :: later)
    else (reuse key later).map fun (item, later) => (item, e :: later)

/-- The search for a key fails when no entry has it. -/
theorem reuse_eq_none {key : κ} {entries : List (Entry κ ρ)} :
    reuse key entries = none ↔ ∀ e ∈ entries, e.key ≠ key := by
  induction entries with
  | nil => simp [reuse]
  | cons e later ih =>
    by_cases here : e.key = key <;> simp [reuse, here, ih]

/-- The search for a key finds an entry that has it and counts one use more there. -/
theorem reuse_eq_some {key : κ} {entries later : List (Entry κ ρ)} {item : ρ}
    (found : reuse key entries = some (item, later)) :
    ∃ before e after, entries = before ++ e :: after ∧ e.key = key ∧ e.item = item ∧
      later = before ++ { e with uses := e.uses + 1 } :: after := by
  induction entries generalizing later with
  | nil => simp [reuse] at found
  | cons e rest ih =>
    by_cases here : e.key = key
    · rw [reuse, if_pos here, Option.some.injEq, Prod.mk.injEq] at found
      obtain ⟨rfl, rfl⟩ := found
      exact ⟨[], e, rest, rfl, here, rfl, rfl⟩
    · rw [reuse, if_neg here, Option.map_eq_some_iff, Prod.exists] at found
      simp only [Prod.mk.injEq] at found
      obtain ⟨other, tail, inner, rfl, rfl⟩ := found
      obtain ⟨before, e', after, rfl, key, item, rfl⟩ := ih inner
      exact ⟨e :: before, e', after, rfl, key, item, rfl⟩

end

section
variable [DecidableEq ρ]

/-- The first entry of an item counts one use less, and goes with the last one; whether it has
gone. -/
def giveBack (item : ρ) : List (Entry κ ρ) → Option (Bool × List (Entry κ ρ))
  | [] => none
  | e :: later =>
    if e.item = item then
      if e.uses - 1 = 0 then some (true, later)
      else some (false, { e with uses := e.uses - 1 } :: later)
    else (giveBack item later).map fun (gone, later) => (gone, e :: later)

/-- The search for an item fails when no entry has it. -/
theorem giveBack_eq_none {item : ρ} {entries : List (Entry κ ρ)} :
    giveBack item entries = none ↔ ∀ e ∈ entries, e.item ≠ item := by
  induction entries with
  | nil => simp [giveBack]
  | cons e later ih =>
    by_cases here : e.item = item
    · by_cases last : e.uses - 1 = 0 <;> simp [giveBack, here, last]
    · simp [giveBack, here, ih]

/-- The search for an item finds its entry, and takes it out with its last use or counts one
use less there. -/
theorem giveBack_eq_some {item : ρ} {entries later : List (Entry κ ρ)} {gone : Bool}
    (found : giveBack item entries = some (gone, later)) :
    ∃ before e after, entries = before ++ e :: after ∧ e.item = item ∧
      (gone = true ∧ e.uses = 1 ∧ later = before ++ after ∨
        gone = false ∧ e.uses ≠ 1 ∧ later = before ++ { e with uses := e.uses - 1 } :: after) := by
  induction entries generalizing later with
  | nil => simp [giveBack] at found
  | cons e rest ih =>
    by_cases here : e.item = item
    · by_cases last : e.uses - 1 = 0
      · rw [giveBack, if_pos here, if_pos last, Option.some.injEq, Prod.mk.injEq] at found
        obtain ⟨rfl, rfl⟩ := found
        exact ⟨[], e, rest, rfl, here, .inl ⟨rfl, by omega, rfl⟩⟩
      · rw [giveBack, if_pos here, if_neg last, Option.some.injEq, Prod.mk.injEq] at found
        obtain ⟨rfl, rfl⟩ := found
        exact ⟨[], e, rest, rfl, here, .inr ⟨rfl, by omega, rfl⟩⟩
    · rw [giveBack, if_neg here, Option.map_eq_some_iff, Prod.exists] at found
      simp only [Prod.mk.injEq] at found
      obtain ⟨other, tail, inner, rfl, rfl⟩ := found
      obtain ⟨before, e', after, rfl, same, parts⟩ := ih inner
      refine ⟨e :: before, e', after, rfl, same, ?_⟩
      rcases parts with ⟨rfl, uses, rfl⟩ | ⟨rfl, uses, rfl⟩
      · exact .inl ⟨rfl, uses, rfl⟩
      · exact .inr ⟨rfl, uses, rfl⟩

end

/-! ## Operations -/

section
variable [DecidableEq κ] [DecidableEq ρ]

/-- Ask for an item under a key. One that has to be opened is `fresh`, when it can be, and is
pooled under the key `stored` when there is room for an entry. -/
def Holdings.acquire (s : Holdings κ ρ) (key stored : κ) (fresh : Option ρ) (room : Bool) :
    Holdings κ ρ × Option ρ :=
  match reuse key s.entries with
  | some (item, entries) => (⟨entries, item ::ₘ s.held, s.log⟩, some item)
  | none =>
    match fresh with
    | none => (s, none)
    | some item =>
      (⟨if room then ⟨stored, item, 1⟩ :: s.entries else s.entries, item ::ₘ s.held,
        s.log ++ [.opened key item]⟩, some item)

/-- Give an item back. One that is not pooled is destroyed at once. -/
def Holdings.release (s : Holdings κ ρ) (item : ρ) : Holdings κ ρ :=
  match giveBack item s.entries with
  | some (gone, entries) =>
    ⟨entries, s.held.erase item, if gone then s.log ++ [.destroyed item] else s.log⟩
  | none => ⟨s.entries, s.held.erase item, s.log ++ [.destroyed item]⟩

end

/-! ## Counting -/

/-- What holds of the members of a list holds of the one in the middle and of the others. -/
theorem forall_mem_middle {α : Type} {p : α → Prop} {before after : List α} {a : α} :
    (∀ x ∈ before ++ a :: after, p x) ↔ p a ∧ ∀ x ∈ before ++ after, p x := by
  simp only [List.forall_mem_append, List.forall_mem_cons, and_left_comm]

section
variable [DecidableEq ρ]

/-- The bookkeeping agrees with the hand-outs: an item has one entry at most, whose use count is
the number of its hand-outs; an item without an entry is handed out once at most; and the items
handed out are the open ones. -/
structure Counted (s : Holdings κ ρ) : Prop where
  items : (s.entries.map Entry.item).Nodup
  uses : ∀ e ∈ s.entries, e.uses = s.held.count e.item ∧ 1 ≤ e.uses
  alone : ∀ item, (∀ e ∈ s.entries, e.item ≠ item) → s.held.count item ≤ 1
  balance : ∀ item, opens s.log item = destroys s.log item + if item ∈ s.held then 1 else 0

/-- Nothing is handed out of an empty pool. -/
theorem counted_empty : Counted (Holdings.empty : Holdings κ ρ) := by
  constructor <;> simp [Holdings.empty, opens, destroys]

variable {s : Holdings κ ρ}

/-- The items handed out are the open ones. -/
theorem Counted.open_iff (counted : Counted s) (item : ρ) : Open s.log item ↔ item ∈ s.held := by
  have balance := counted.balance item
  rw [Open, balance]
  by_cases holds : item ∈ s.held <;> simp [holds]

/-- A pooled item is handed out. -/
theorem Counted.held (counted : Counted s) {e : Entry κ ρ} (member : e ∈ s.entries) :
    e.item ∈ s.held := by
  have uses := counted.uses e member
  rw [← Multiset.count_pos]
  omega

/-- No other entry has the item of an entry. -/
theorem Counted.item_ne (counted : Counted s) {before after : List (Entry κ ρ)} {e : Entry κ ρ}
    (split : s.entries = before ++ e :: after) :
    ∀ x ∈ before ++ after, x.item ≠ e.item := by
  have items := counted.items
  rw [split, List.map_append, List.map_cons, List.nodup_middle, List.nodup_cons,
    ← List.map_append] at items
  intro x member same
  exact items.1 (same ▸ List.mem_map_of_mem member)

/-- Without any hand-outs nothing is pooled, and what was opened has been destroyed. -/
theorem Counted.drained (counted : Counted s) (none : s.held = 0) :
    s.entries = [] ∧ ∀ item, opens s.log item = destroys s.log item := by
  constructor
  · rw [List.eq_nil_iff_forall_not_mem]
    intro e member
    have held := counted.held member
    simp [none] at held
  · intro item
    simpa [none] using counted.balance item

/-- An item that was not open and is opened now has one hand-out. -/
theorem Counted.opened (counted : Counted s) {key stored : κ} {item : ρ} {room : Bool}
    (fresh : ¬Open s.log item) :
    Counted ⟨if room then ⟨stored, item, 1⟩ :: s.entries else s.entries, item ::ₘ s.held,
      s.log ++ [.opened key item]⟩ := by
  rw [counted.open_iff] at fresh
  have others : ∀ e ∈ s.entries, e.item ≠ item := fun e member same =>
    fresh (same ▸ counted.held member)
  have kept : ∀ e ∈ s.entries, e.uses = (item ::ₘ s.held).count e.item ∧ 1 ≤ e.uses := by
    intro e member
    rw [Multiset.count_cons_of_ne (others e member)]
    exact counted.uses e member
  constructor
  · cases room with
    | false => exact counted.items
    | true =>
      rw [if_pos rfl, List.map_cons, List.nodup_cons, List.mem_map]
      exact ⟨fun ⟨e, member, same⟩ => others e member same, counted.items⟩
  · cases room with
    | false => exact kept
    | true =>
      intro e member
      rcases List.mem_cons.mp member with rfl | member
      · simp [Multiset.count_eq_zero_of_notMem fresh]
      · exact kept e member
  · intro other absent
    by_cases same : other = item
    · simp [same, Multiset.count_eq_zero_of_notMem fresh]
    · rw [Multiset.count_cons_of_ne same]
      refine counted.alone other fun e member => absent e ?_
      cases room with
      | false => exact member
      | true => exact List.mem_cons_of_mem _ member
  · intro other
    have balance := counted.balance other
    by_cases same : other = item
    · rw [same, if_neg fresh] at balance
      simp [same, balance]
    · simp [same, Ne.symm same, balance]

/-- Giving an item back changes nothing for the other entries. -/
theorem Counted.erase_others (counted : Counted s) {before after : List (Entry κ ρ)}
    {e : Entry κ ρ} (split : s.entries = before ++ e :: after) :
    ∀ x ∈ before ++ after, x.uses = (s.held.erase e.item).count x.item ∧ 1 ≤ x.uses := by
  have uses := counted.uses
  rw [split, forall_mem_middle] at uses
  intro x inside
  rw [Multiset.count_erase_of_ne (counted.item_ne split x inside)]
  exact uses.2 x inside

/-- Giving an item back changes nothing for the other items without an entry. -/
theorem Counted.erase_alone (counted : Counted s) {before after : List (Entry κ ρ)}
    {e : Entry κ ρ} (split : s.entries = before ++ e :: after) {item : ρ}
    (different : item ≠ e.item) (absent : ∀ x ∈ before ++ after, x.item ≠ item) :
    (s.held.erase e.item).count item ≤ 1 := by
  rw [Multiset.count_erase_of_ne different]
  apply counted.alone item
  rw [split, forall_mem_middle]
  exact ⟨different.symm, absent⟩

/-- Destroying an item with its last hand-out keeps the balance of events. -/
theorem Counted.balance_destroyed (counted : Counted s) {item : ρ}
    (last : s.held.count item = 1) (other : ρ) :
    opens (s.log ++ [.destroyed item]) other = destroys (s.log ++ [.destroyed item]) other +
      if other ∈ s.held.erase item then 1 else 0 := by
  have balance := counted.balance other
  by_cases same : other = item
  · have held : item ∈ s.held := Multiset.count_pos.mp (by omega)
    have none : item ∉ s.held.erase item := by
      rw [← Multiset.count_eq_zero, Multiset.count_erase_self, last]
    rw [same, if_pos held] at balance
    simp [same, none, balance]
  · simp [Ne.symm same, Multiset.mem_erase_of_ne same, balance]

/-- With its last hand-out a pooled item goes, and its entry with it. -/
theorem Counted.removed (counted : Counted s) {before after : List (Entry κ ρ)} {e : Entry κ ρ}
    (split : s.entries = before ++ e :: after) (last : s.held.count e.item = 1) :
    Counted ⟨before ++ after, s.held.erase e.item, s.log ++ [.destroyed e.item]⟩ := by
  constructor
  · have items := counted.items
    rw [split] at items
    have shorter := (List.sublist_cons_self e after).append_left before
    exact items.sublist (shorter.map _)
  · exact counted.erase_others split
  · intro item absent
    by_cases same : item = e.item
    · rw [same, Multiset.count_erase_self]
      omega
    · exact counted.erase_alone split same absent
  · exact counted.balance_destroyed last

/-- With any other hand-out its entry counts one use less. -/
theorem Counted.lowered (counted : Counted s) {before after : List (Entry κ ρ)} {e : Entry κ ρ}
    (split : s.entries = before ++ e :: after) (several : 2 ≤ s.held.count e.item) :
    Counted ⟨before ++ { e with uses := e.uses - 1 } :: after, s.held.erase e.item, s.log⟩ := by
  have uses := counted.uses e (by simp [split])
  constructor
  · have items := counted.items
    rw [split] at items
    simpa using items
  · rw [forall_mem_middle, Multiset.count_erase_self]
    exact ⟨by dsimp only; omega, counted.erase_others split⟩
  · intro item absent
    rw [forall_mem_middle] at absent
    exact counted.erase_alone split (Ne.symm absent.1) absent.2
  · intro item
    have balance := counted.balance item
    have held : e.item ∈ s.held := Multiset.count_pos.mp (by omega)
    by_cases same : item = e.item
    · have still : e.item ∈ s.held.erase e.item := by
        rw [← Multiset.count_pos, Multiset.count_erase_self]
        omega
      rw [same, if_pos held] at balance
      simpa [same, still] using balance
    · simpa [Multiset.mem_erase_of_ne same] using balance

/-- An item that is not pooled goes with its one hand-out. -/
theorem Counted.dropped (counted : Counted s) {item : ρ} (held : item ∈ s.held)
    (unpooled : ∀ e ∈ s.entries, e.item ≠ item) :
    Counted ⟨s.entries, s.held.erase item, s.log ++ [.destroyed item]⟩ := by
  have positive := Multiset.count_pos.mpr held
  have once := counted.alone item unpooled
  constructor
  · exact counted.items
  · intro e member
    rw [Multiset.count_erase_of_ne (unpooled e member)]
    exact counted.uses e member
  · intro other absent
    have fewer := Multiset.count_le_of_le other (Multiset.erase_le item s.held)
    exact fewer.trans (counted.alone other absent)
  · exact counted.balance_destroyed (by omega)

/-- An item given back has one hand-out less. -/
theorem Counted.release (counted : Counted s) {item : ρ} (held : item ∈ s.held) :
    Counted (s.release item) := by
  unfold Holdings.release
  split
  · rename_i gone entries found
    obtain ⟨before, e, after, split, rfl, parts⟩ := giveBack_eq_some found
    have uses := counted.uses e (by simp [split])
    rcases parts with ⟨rfl, once, rfl⟩ | ⟨rfl, more, rfl⟩
    · exact counted.removed split (by omega)
    · exact counted.lowered split (by omega)
  · rename_i absent
    exact counted.dropped held (giveBack_eq_none.mp absent)

variable [DecidableEq κ]

/-- An item found in the pool has one hand-out more. -/
theorem Counted.reused (counted : Counted s) {key : κ} {item : ρ} {entries : List (Entry κ ρ)}
    (found : reuse key s.entries = some (item, entries)) :
    Counted ⟨entries, item ::ₘ s.held, s.log⟩ := by
  obtain ⟨before, e, after, split, -, rfl, rfl⟩ := reuse_eq_some found
  have member : e ∈ s.entries := by simp [split]
  have held := counted.held member
  have others := counted.item_ne split
  constructor
  · have items := counted.items
    rw [split] at items
    simpa using items
  · have uses := counted.uses
    rw [split, forall_mem_middle] at uses
    rw [forall_mem_middle, Multiset.count_cons_self]
    refine ⟨by dsimp only; omega, fun x inside => ?_⟩
    rw [Multiset.count_cons_of_ne (others x inside)]
    exact uses.2 x inside
  · intro item absent
    rw [forall_mem_middle] at absent
    rw [Multiset.count_cons_of_ne (Ne.symm absent.1)]
    apply counted.alone item
    rw [split, forall_mem_middle]
    exact absent
  · intro item
    rw [counted.balance item]
    by_cases same : item = e.item
    · simp [same, held]
    · simp [same]

/-- A request keeps the bookkeeping when an item that is opened was not open before. -/
theorem Counted.acquire (counted : Counted s) (key stored : κ) {fresh : Option ρ} (room : Bool)
    (isFresh : ∀ item, fresh = some item → ¬Open s.log item) :
    Counted (s.acquire key stored fresh room).1 := by
  unfold Holdings.acquire
  split
  · rename_i found
    exact counted.reused found
  · split
    · exact counted
    · exact counted.opened (isFresh _ rfl)

/-- A request that is given an item has one hand-out more, of that item; one that is given none
changes no hand-outs. -/
theorem Counted.acquired (counted : Counted s) {key stored : κ} {fresh : Option ρ} {room : Bool}
    (isFresh : ∀ item, fresh = some item → ¬Open s.log item) {next : Holdings κ ρ}
    {got : Option ρ} (result : s.acquire key stored fresh room = (next, got)) :
    Counted next ∧ next.held = got.elim 0 (fun item => {item}) + s.held := by
  have kept := counted.acquire key stored room isFresh
  rw [result] at kept
  refine ⟨kept, ?_⟩
  unfold Holdings.acquire at result
  split at result
  · cases result
    simp
  · split at result
    · cases result
      simp
    · cases result
      simp

omit [DecidableEq κ] in
/-- An item given back, if there is one, leaves the other hand-outs. -/
theorem Counted.returned (counted : Counted s) {item : Option ρ} {rest : Multiset ρ}
    (held : s.held = item.elim 0 (fun item => {item}) + rest) :
    Counted (item.elim s s.release) ∧ (item.elim s s.release).held = rest := by
  cases item with
  | none => exact ⟨counted, by simpa using held⟩
  | some item =>
    have cons : s.held = item ::ₘ rest := by simpa using held
    refine ⟨counted.release (by simp [cons]), ?_⟩
    have erased : (s.release item).held = s.held.erase item := by
      unfold Holdings.release
      split <;> rfl
    rw [Option.elim_some, erased, cons, Multiset.erase_cons_head]

/-! ## Keys -/

/-- The keys mean what they say: no two entries share one, and each is the key for which its
item was opened. -/
structure Keyed (s : Holdings κ ρ) : Prop where
  keys : (s.entries.map Entry.key).Nodup
  opened : ∀ e ∈ s.entries, openedFor s.log e.item = some e.key

omit [DecidableEq κ] in
/-- An empty pool has no keys. -/
theorem keyed_empty : Keyed (Holdings.empty : Holdings κ ρ) := by
  constructor <;> simp [Holdings.empty]

omit [DecidableEq κ] in
/-- A change of the use count of an entry keeps the keys. -/
theorem Keyed.recounted (keyed : Keyed s) {before after : List (Entry κ ρ)} {e : Entry κ ρ}
    (split : s.entries = before ++ e :: after) (uses : Int) (held : Multiset ρ) :
    Keyed ⟨before ++ { e with uses } :: after, held, s.log⟩ := by
  obtain ⟨keys, opened⟩ := keyed
  rw [split] at keys opened
  constructor
  · simpa using keys
  · rw [forall_mem_middle] at opened ⊢
    exact opened

omit [DecidableEq κ] in
/-- An item that was not open and is opened now is pooled under the key it was asked for. -/
theorem Keyed.pooled (keyed : Keyed s) (counted : Counted s) {key : κ} {item : ρ} (room : Bool)
    (fresh : ¬Open s.log item) (absent : ∀ e ∈ s.entries, e.key ≠ key) :
    Keyed ⟨if room then ⟨key, item, 1⟩ :: s.entries else s.entries, item ::ₘ s.held,
      s.log ++ [.opened key item]⟩ := by
  have notHeld : item ∉ s.held := (counted.open_iff item).not.mp fresh
  have kept : ∀ e ∈ s.entries, openedFor (s.log ++ [.opened key item]) e.item = some e.key := by
    intro e member
    have different : item ≠ e.item := fun same => notHeld (same ▸ counted.held member)
    rw [openedFor_opened, if_neg different]
    exact keyed.opened e member
  cases room with
  | false => exact ⟨keyed.keys, kept⟩
  | true =>
    constructor
    · rw [if_pos rfl, List.map_cons, List.nodup_cons, List.mem_map]
      exact ⟨fun ⟨e, member, same⟩ => absent e member same, keyed.keys⟩
    · rw [if_pos rfl, List.forall_mem_cons]
      exact ⟨by simp, kept⟩

/-- A request keeps the keys when an item that is opened is pooled under the key it was asked
for. -/
theorem Keyed.acquire (keyed : Keyed s) (counted : Counted s) (key : κ) {fresh : Option ρ}
    (room : Bool) (isFresh : ∀ item, fresh = some item → ¬Open s.log item) :
    Keyed (s.acquire key key fresh room).1 := by
  unfold Holdings.acquire
  split
  · rename_i item entries found
    obtain ⟨before, e, after, split, -, rfl, rfl⟩ := reuse_eq_some found
    exact keyed.recounted split _ _
  · rename_i unpooled
    split
    · exact keyed
    · exact keyed.pooled counted room (isFresh _ rfl) (reuse_eq_none.mp unpooled)

omit [DecidableEq κ] in
/-- A destroyed item leaves the keys of the entries there are. -/
theorem Keyed.destroyed (keyed : Keyed s) {entries : List (Entry κ ρ)}
    (fewer : entries.Sublist s.entries) (held : Multiset ρ) (item : ρ) :
    Keyed ⟨entries, held, s.log ++ [.destroyed item]⟩ := by
  constructor
  · exact keyed.keys.sublist (fewer.map _)
  · intro x inside
    rw [openedFor_destroyed]
    exact keyed.opened x (fewer.subset inside)

omit [DecidableEq κ] in
/-- Giving an item back keeps the keys. -/
theorem Keyed.release (keyed : Keyed s) (item : ρ) : Keyed (s.release item) := by
  unfold Holdings.release
  split
  · rename_i gone entries found
    obtain ⟨before, e, after, split, rfl, parts⟩ := giveBack_eq_some found
    rcases parts with ⟨rfl, -, rfl⟩ | ⟨rfl, -, rfl⟩
    · have fewer : (before ++ after).Sublist s.entries := by
        rw [split]
        exact (List.sublist_cons_self e after).append_left before
      exact keyed.destroyed fewer _ _
    · exact keyed.recounted split _ _
  · exact keyed.destroyed (List.Sublist.refl _) _ _

/-! ## What one operation does -/

omit [DecidableEq ρ] in
/-- A request for a pooled key is given an item pooled under it, and opens none. -/
theorem acquire_pooled {key stored : κ} {fresh : Option ρ} {room : Bool} {e : Entry κ ρ}
    (keys : (s.entries.map Entry.key).Nodup) (member : e ∈ s.entries) (same : e.key = key) :
    (s.acquire key stored fresh room).2 = some e.item ∧
      (s.acquire key stored fresh room).1.log = s.log := by
  cases found : reuse key s.entries with
  | none => exact absurd same (reuse_eq_none.mp found e member)
  | some result =>
    obtain ⟨item, entries⟩ := result
    obtain ⟨before, other, after, split, key', rfl, rfl⟩ := reuse_eq_some found
    have unique : other = e := by
      refine List.inj_on_of_nodup_map keys ?_ member (key'.trans same.symm)
      rw [split]
      exact List.mem_append_right _ List.mem_cons_self
    simp [Holdings.acquire, found, unique]

/-- What a request is given was opened for its key. -/
theorem Keyed.acquired (keyed : Keyed s) {key : κ} {fresh : Option ρ} {room : Bool} {item : ρ}
    {stored : κ} (got : (s.acquire key stored fresh room).2 = some item) :
    openedFor (s.acquire key stored fresh room).1.log item = some key := by
  cases found : reuse key s.entries with
  | none =>
    cases fresh with
    | none => simp [Holdings.acquire, found] at got
    | some other =>
      simp only [Holdings.acquire, found, Option.some.injEq] at got ⊢
      simp [got]
  | some result =>
    obtain ⟨other, entries⟩ := result
    obtain ⟨before, e, after, split, rfl, rfl, rfl⟩ := reuse_eq_some found
    simp only [Holdings.acquire, found, Option.some.injEq] at got ⊢
    rw [← got]
    exact keyed.opened e (by simp [split])

omit [DecidableEq ρ] in
/-- Where nothing is pooled, it does not matter under which key. -/
theorem acquire_unpooled {s : Holdings κ ρ} {key stored : κ} {fresh : Option ρ} {room : Bool}
    (nothing : fresh = none ∨ room = false) :
    s.acquire key stored fresh room = s.acquire key key fresh room := by
  rcases nothing with rfl | rfl
  · rfl
  · rfl

/-- A request destroys nothing. -/
theorem acquire_destroys (s : Holdings κ ρ) (key stored : κ) (fresh : Option ρ) (room : Bool)
    (item : ρ) : destroys (s.acquire key stored fresh room).1.log item = destroys s.log item := by
  unfold Holdings.acquire
  split
  · rfl
  · split <;> simp

omit [DecidableEq κ] in
/-- An item is destroyed exactly with its last hand-out. -/
theorem Counted.release_log (counted : Counted s) {item : ρ} (held : item ∈ s.held) :
    (s.release item).log = if s.held.count item = 1 then s.log ++ [.destroyed item] else s.log := by
  unfold Holdings.release
  split
  · rename_i gone entries found
    obtain ⟨before, e, after, split, rfl, parts⟩ := giveBack_eq_some found
    have uses := counted.uses e (by simp [split])
    rcases parts with ⟨rfl, once, -⟩ | ⟨rfl, more, -⟩
    · rw [if_pos rfl, if_pos (by omega)]
    · rw [if_neg (by simp), if_neg (by omega)]
  · rename_i absent
    have once := counted.alone item (giveBack_eq_none.mp absent)
    have positive := Multiset.count_pos.mpr held
    rw [if_pos (by omega)]

end

end SharedPool
