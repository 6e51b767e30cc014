import GpibUtils.CSem.Word
import GpibUtils.Refinement
import Mathlib.Data.Finmap

/-!
# Hash tables

A table has slots, and a chain of nodes for each of them. The node of a key is in the chain of the
slot that its hash gives, so the others are not gone through to find it. However keys are hashed and
however many slots there are, a table answers as a finite map does (`hash_refines`).
-/

namespace GpibUtils.Lsd

open CSem

/-! ## The code -/

/-- `HASH_DEF_SIZE` -/
def hashDefSize : Nat := 1213

/-- The nodes of a table: a key, and the item of it. -/
abbrev HashNode (κ α : Type) : Type := Sigma fun _ : κ => α

/-- `struct hash`, less its functions: the number of items, and the chains of its slots. -/
structure Hash (κ α : Type) where
  count : Int
  table : List (List (HashNode κ α))

section
variable {κ α : Type} [DecidableEq κ] (keyF : κ → UInt32)

/-- `hash_create`; allocation succeeds. -/
def hashCreate (size : Int) : Hash κ α :=
  ⟨0, List.replicate (if size ≤ 0 then hashDefSize else size.toNat) []⟩

/-- The slot of a key. -/
def Hash.slot (h : Hash κ α) (key : κ) : Nat := (keyF key).toNat % h.table.length

/-- The chain of a slot. -/
def Hash.chain (h : Hash κ α) (slot : Nat) : List (HashNode κ α) := h.table[slot]?.getD []

/-- `hash_find`, which takes the first node of the chain with the key. -/
def hashFind (h : Hash κ α) (key : κ) : Option α := (h.chain (h.slot keyF key)).dlookup key

/-- `hash_insert`: the item unless there is a node with the key already. Allocation succeeds. -/
def hashInsert (h : Hash κ α) (key : κ) (data : α) : Option α × Hash κ α :=
  let slot := h.slot keyF key
  match (h.chain slot).dlookup key with
  | some _ => (none, h)
  | none => (some data, ⟨toInt (h.count + 1), h.table.set slot (⟨key, data⟩ :: h.chain slot)⟩)

/-- `hash_remove`: the item of the first node with the key, if there is one. -/
def hashRemove (h : Hash κ α) (key : κ) : Option α × Hash κ α :=
  let slot := h.slot keyF key
  match (h.chain slot).dlookup key with
  | some data =>
    (some data, ⟨toInt (h.count - 1), h.table.set slot ((h.chain slot).kerase key)⟩)
  | none => (none, h)

/-- The loop of `hash_delete_if` over a chain: the nodes that are left, and the items that are
deleted. -/
def deleteIfChain (argF : α → κ → Int) : List (HashNode κ α) → List (HashNode κ α) × List α
  | [] => ([], [])
  | p :: next =>
    let (left, deleted) := deleteIfChain argF next
    if argF p.2 p.1 > 0 then (left, p.2 :: deleted) else (p :: left, deleted)

/-- `hash_delete_if`: the items that are deleted, which it counts. -/
def hashDeleteIf (h : Hash κ α) (argF : α → κ → Int) : List α × Hash κ α :=
  let passes := h.table.map (deleteIfChain argF)
  let deleted := passes.flatMap Prod.snd
  (deleted, ⟨toInt (h.count - deleted.length), passes.map Prod.fst⟩)

/-- The loop of `hash_for_each` over a chain: how often the function was positive, and what it has
made of its argument. -/
def forEachChain {σ : Type} (argF : α → κ → σ → Int × σ) :
    List (HashNode κ α) → Int × σ → Int × σ
  | [], counted => counted
  | p :: next, (n, arg) =>
    let (positive, arg) := argF p.2 p.1 arg
    forEachChain argF next (if positive > 0 then toInt (n + 1) else n, arg)

/-- `hash_for_each` -/
def hashForEach {σ : Type} (h : Hash κ α) (argF : α → κ → σ → Int × σ) (arg : σ) : Int × σ :=
  h.table.foldl (fun counted chain => forEachChain argF chain counted) (0, arg)

/-- The items that `hash_destroy` deletes, one after the other. -/
def hashDestroy (h : Hash κ α) : List α := h.table.flatMap fun chain => chain.map Sigma.snd

/-- `hash_key_string` -/
def hashKeyString (str : List Char) : UInt32 :=
  str.foldl (fun hval p => hval + (31 * hval + UInt32.ofNat p.toNat)) 0

/-! ## Nodes and entries -/

/-- A finite map of items. -/
abbrev Items (κ α : Type) : Type := Finmap fun _ : κ => α

/-- A table stands for a map: its nodes are the entries of the map, each of them in the chain of its
slot, and it counts them as an `int` does. -/
structure Hash.Stands (h : Hash κ α) (items : Items κ α) : Prop where
  nodes : (h.table.flatten : Multiset (HashNode κ α)) = items.entries
  slots : ∀ i chain, h.table[i]? = some chain → ∀ node ∈ chain, h.slot keyF node.1 = i
  cells : 0 < h.table.length
  count : h.count = items.entries.card
  few : (items.entries.card : Int) ≤ intMax

/-- A map is looked up in any list of its entries. -/
theorem lookup_entries {items : Items κ α} {nodes : List (HashNode κ α)}
    (entries : (nodes : Multiset (HashNode κ α)) = items.entries) (key : κ) :
    items.lookup key = nodes.dlookup key := by
  have distinct : nodes.NodupKeys := by
    rw [← Multiset.coe_nodupKeys, entries]
    exact items.nodupKeys
  have same : items = AList.toFinmap ⟨nodes, distinct⟩ := Finmap.ext entries.symm
  rw [same, Finmap.lookup_toFinmap]
  rfl

/-- An entry is taken from a map as it is from any list of its entries. -/
theorem erase_entries {items : Items κ α} {nodes : List (HashNode κ α)}
    (entries : (nodes : Multiset (HashNode κ α)) = items.entries) (key : κ) :
    (nodes.kerase key : Multiset (HashNode κ α)) = (items.erase key).entries := by
  have distinct : nodes.NodupKeys := by
    rw [← Multiset.coe_nodupKeys, entries]
    exact items.nodupKeys
  have same : items = AList.toFinmap ⟨nodes, distinct⟩ := Finmap.ext entries.symm
  rw [same, Finmap.erase_toFinmap]
  rfl

/-- The entries of a map that a function does not pick. -/
def Items.keep (items : Items κ α) (argF : α → κ → Int) : Items κ α :=
  ⟨items.entries.filter fun node => ¬argF node.2 node.1 > 0,
    Multiset.nodup_keys.mp (Multiset.nodup_of_le
      (Multiset.map_le_map (Multiset.filter_le _ _)) items.nodupKeys.nodup_keys)⟩

omit [DecidableEq κ] in
/-- A chain is parted into the nodes that are left and the items that are deleted. -/
theorem deleteIfChain_eq (argF : α → κ → Int) (chain : List (HashNode κ α)) :
    deleteIfChain argF chain =
      (chain.filter fun node => ¬argF node.2 node.1 > 0,
        (chain.filter fun node => argF node.2 node.1 > 0).map Sigma.snd) := by
  induction chain with
  | nil => rfl
  | cons p next ih =>
    rw [deleteIfChain, ih]
    by_cases picked : argF p.2 p.1 > 0
    · simp only [picked, List.filter_cons, decide_true, if_true, not_true_eq_false, decide_false,
        Bool.false_eq_true, if_false, List.map_cons]
    · simp only [picked, List.filter_cons, decide_true, if_true, not_false_eq_true, decide_false,
        Bool.false_eq_true, if_false]

omit [DecidableEq κ] in
/-- A function is called for each node of a chain, and counted when it is positive. -/
theorem forEachChain_eq {σ : Type} (positive : α → κ → Int) (change : α → κ → σ → σ)
    (chain : List (HashNode κ α)) {n : Int} {arg : σ} (low : 0 ≤ n)
    (room : n + chain.length ≤ intMax) :
    forEachChain (fun data key arg => (positive data key, change data key arg)) chain (n, arg) =
      (n + (chain.countP fun node => positive node.2 node.1 > 0 : Nat),
        chain.foldl (fun arg node => change node.2 node.1 arg) arg) := by
  induction chain generalizing n arg with
  | nil => simp [forEachChain]
  | cons p next ih =>
    rw [List.length_cons] at room
    rw [forEachChain, List.foldl_cons, List.countP_cons]
    by_cases counts : positive p.2 p.1 > 0
    · have succ : toInt (n + 1) = n + 1 := toInt_of_range (by omega) (by omega)
      simp only [counts, if_true, decide_true, succ]
      rw [ih (by omega) (by omega)]
      push_cast
      rw [Int.add_assoc, Int.add_comm 1]
    · simp only [counts, if_false, decide_false, Bool.false_eq_true]
      exact ih low (by omega)

section
variable {keyF} {h : Hash κ α} {items : Items κ α} (stands : h.Stands keyF items)
include stands

omit [DecidableEq κ] in
/-- The table around the chain of a key, which is not in any other chain. -/
theorem Hash.Stands.around (key : κ) :
    ∃ front back, h.table = front ++ h.chain (h.slot keyF key) :: back ∧
      front.length = h.slot keyF key ∧ key ∉ front.flatten.keys ∧ key ∉ back.flatten.keys := by
  have inside : h.slot keyF key < h.table.length := Nat.mod_lt _ stands.cells
  have chain : h.chain (h.slot keyF key) = h.table[h.slot keyF key] := by
    rw [Hash.chain, List.getElem?_eq_getElem inside, Option.getD_some]
  have split : h.table = h.table.take (h.slot keyF key) ++
      h.table[h.slot keyF key] :: h.table.drop (h.slot keyF key + 1) := by
    rw [← List.drop_eq_getElem_cons inside, List.take_append_drop]
  -- A node with the key is in its slot, which is neither in front nor behind.
  have other : ∀ chains : List (List (HashNode κ α)),
      (∀ chain ∈ chains, ∃ i, h.table[i]? = some chain ∧ i ≠ h.slot keyF key) →
        key ∉ chains.flatten.keys := by
    intro chains places member
    obtain ⟨node, inside, same⟩ := List.mem_map.mp member
    obtain ⟨chain, listed, inChain⟩ := List.mem_flatten.mp inside
    obtain ⟨i, place, elsewhere⟩ := places chain listed
    have here := stands.slots i chain place node inChain
    rw [same] at here
    exact elsewhere here.symm
  refine ⟨h.table.take (h.slot keyF key), h.table.drop (h.slot keyF key + 1), chain ▸ split,
    List.length_take_of_le (Nat.le_of_lt inside), other _ ?_, other _ ?_⟩
  · intro chain member
    obtain ⟨i, bound, same⟩ := List.mem_take_iff_getElem.mp member
    have before : i < h.slot keyF key := (Nat.lt_min.mp bound).1
    exact ⟨i, same ▸ List.getElem?_eq_getElem _, Nat.ne_of_lt before⟩
  · intro chain member
    obtain ⟨i, bound, same⟩ := List.mem_drop_iff_getElem.mp member
    exact ⟨_, same ▸ List.getElem?_eq_getElem _, by omega⟩

/-- A table finds the item that the map has. -/
theorem Hash.Stands.find_eq (key : κ) :
    (h.chain (h.slot keyF key)).dlookup key = items.lookup key := by
  obtain ⟨front, back, table, -, before, behind⟩ := stands.around key
  rw [lookup_entries stands.nodes, table, List.flatten_append, List.flatten_cons,
    List.dlookup_append, List.dlookup_append, List.dlookup_eq_none.mpr before,
    List.dlookup_eq_none.mpr behind, Option.none_or, Option.or_none]

omit [DecidableEq κ] in
/-- The chain of a key is replaced by one with nodes of the slot. -/
theorem Hash.Stands.set {key : κ} {chain : List (HashNode κ α)} {items' : Items κ α} {count : Int}
    (inSlot : ∀ node ∈ chain, h.slot keyF node.1 = h.slot keyF key)
    (nodes : ∀ front back, h.table = front ++ h.chain (h.slot keyF key) :: back →
      key ∉ front.flatten.keys → key ∉ back.flatten.keys →
        ((front ++ chain :: back).flatten : Multiset (HashNode κ α)) = items'.entries)
    (counted : count = items'.entries.card) (few : (items'.entries.card : Int) ≤ intMax) :
    Hash.Stands keyF ⟨count, h.table.set (h.slot keyF key) chain⟩ items' := by
  obtain ⟨front, back, table, place, before, behind⟩ := stands.around key
  have set : h.table.set (h.slot keyF key) chain = front ++ chain :: back := by
    conv_lhs => rw [table]
    rw [← place]
    simp
  refine ⟨?_, ?_, ?_, counted, few⟩
  · rw [set]
    exact nodes front back table before behind
  · intro i other place' node member
    rw [Hash.slot, List.length_set]
    rw [List.getElem?_set] at place'
    split at place'
    · rename_i same
      split at place'
      · cases place'
        exact (inSlot node member).trans same
      · cases place'
    · exact stands.slots i other place' node member
  · rw [List.length_set]
    exact stands.cells

omit [DecidableEq κ] in
/-- A node is in the chain of the slot of its key. -/
theorem Hash.Stands.in_slot (key : κ) :
    ∀ node ∈ h.chain (h.slot keyF key), h.slot keyF node.1 = h.slot keyF key := by
  have inside : h.slot keyF key < h.table.length := Nat.mod_lt _ stands.cells
  have place : h.table[h.slot keyF key]? = some (h.chain (h.slot keyF key)) := by
    rw [Hash.chain, List.getElem?_eq_getElem inside, Option.getD_some]
  exact stands.slots _ _ place

/-- An item is put into a table unless there is one with its key. -/
theorem Hash.Stands.insert (key : κ) (data : α)
    (room : (items.entries.card + 1 : Int) ≤ intMax) :
    if key ∈ items then hashInsert keyF h key data = (none, h)
    else ∃ h', hashInsert keyF h key data = (some data, h') ∧
      h'.Stands keyF (items.insert key data) := by
  rw [hashInsert, stands.find_eq key]
  split
  · rename_i found
    obtain ⟨other, same⟩ := Finmap.mem_iff.mp found
    rw [same]
  · rename_i absent
    rw [Finmap.lookup_eq_none.mpr absent]
    have entries := @Finmap.entries_insert_of_notMem _ _ _ key data items absent
    refine ⟨_, rfl, stands.set ?_ ?_ ?_ ?_⟩
    · exact List.forall_mem_cons.mpr ⟨rfl, stands.in_slot key⟩
    · intro front back table _ _
      have nodes := stands.nodes
      rw [table] at nodes
      rw [entries, ← nodes, Multiset.cons_coe, Multiset.coe_eq_coe]
      simp only [List.flatten_append, List.flatten_cons, List.cons_append]
      exact List.perm_middle
    · rw [entries, Multiset.card_cons, stands.count]
      exact toInt_of_range (by omega) (by omega)
    · rw [entries, Multiset.card_cons]
      push_cast
      exact room

/-- The item of a key is taken from a table if there is one. -/
theorem Hash.Stands.remove (key : κ) :
    (hashRemove keyF h key).1 = items.lookup key ∧
      (hashRemove keyF h key).2.Stands keyF (items.erase key) := by
  have few := stands.few
  have erased := erase_entries stands.nodes key
  rw [hashRemove, stands.find_eq key]
  cases found : items.lookup key with
  | none =>
    have absent : key ∉ h.table.flatten.keys := by
      rw [← List.dlookup_eq_none, ← lookup_entries stands.nodes]
      exact found
    rw [List.kerase_of_notMem_keys absent, stands.nodes] at erased
    exact ⟨rfl, Finmap.ext erased ▸ stands⟩
  | some data =>
    have member : key ∈ h.table.flatten.keys := by
      rw [← List.dlookup_isSome, ← lookup_entries stands.nodes, found]
      rfl
    have card : (items.erase key).entries.card + 1 = items.entries.card := by
      rw [← erased, ← stands.nodes, Multiset.coe_card, Multiset.coe_card]
      obtain ⟨node, inside, same⟩ := List.mem_map.mp member
      have erased := List.length_eraseP_of_mem (p := fun s => key = s.1) inside (by simp [same])
      have some := List.length_pos_of_mem inside
      rw [List.kerase, erased]
      omega
    refine ⟨rfl, stands.set ?_ ?_ ?_ ?_⟩
    · exact fun node inside => stands.in_slot key node ((List.kerase_sublist _ _).subset inside)
    · intro front back table before behind
      rw [← erased, table, List.flatten_append, List.flatten_append, List.flatten_cons,
        List.flatten_cons, List.kerase_append_right before]
      by_cases inside : key ∈ (h.chain (h.slot keyF key)).keys
      · rw [List.kerase_append_left inside]
      · rw [List.kerase_append_right inside, List.kerase_of_notMem_keys behind,
          List.kerase_of_notMem_keys inside]
    · rw [stands.count]
      exact (toInt_of_range (by omega) (by omega)).trans (by omega)
    · omega

omit [DecidableEq κ] in
/-- The items that a function picks are deleted from a table. -/
theorem Hash.Stands.deleteIf (argF : α → κ → Int) :
    ((hashDeleteIf h argF).1 : Multiset α) =
        (items.entries.filter fun node => argF node.2 node.1 > 0).map Sigma.snd ∧
      (hashDeleteIf h argF).2.Stands keyF (items.keep argF) := by
  have passes : h.table.map (deleteIfChain argF) = h.table.map fun chain =>
      (chain.filter fun node => ¬argF node.2 node.1 > 0,
        (chain.filter fun node => argF node.2 node.1 > 0).map Sigma.snd) :=
    List.map_congr_left fun chain _ => deleteIfChain_eq argF chain
  have deleted : (hashDeleteIf h argF).1 =
      (h.table.flatten.filter fun node => argF node.2 node.1 > 0).map Sigma.snd := by
    rw [hashDeleteIf, passes, List.flatMap_map, List.filter_flatten, List.map_flatten,
      List.map_map, List.map_map, List.flatMap_def]
    rfl
  have left : (hashDeleteIf h argF).2.table =
      h.table.map fun chain => chain.filter fun node => ¬argF node.2 node.1 > 0 := by
    rw [hashDeleteIf, passes, List.map_map]
    rfl
  have entries : ((hashDeleteIf h argF).1 : Multiset α) =
      (items.entries.filter fun node => argF node.2 node.1 > 0).map Sigma.snd := by
    rw [deleted, ← stands.nodes, Multiset.filter_coe, Multiset.map_coe]
  have cards : (items.keep argF).entries.card + (hashDeleteIf h argF).1.length =
      items.entries.card := by
    rw [← Multiset.coe_card, entries, Multiset.card_map, ← Multiset.card_add, add_comm]
    exact congrArg Multiset.card (Multiset.filter_add_not _ items.entries)
  have few := stands.few
  refine ⟨entries, ?_, ?_, ?_, ?_, ?_⟩
  · rw [left, ← List.filter_flatten, ← Multiset.filter_coe, stands.nodes]
    simp [Items.keep]
  · intro i chain place node member
    rw [left, List.getElem?_map] at place
    obtain ⟨whole, listed, rfl⟩ := Option.map_eq_some_iff.mp place
    have inSlot := stands.slots i whole listed node (List.mem_of_mem_filter member)
    rw [Hash.slot, left, List.length_map]
    exact inSlot
  · rw [left, List.length_map]
    exact stands.cells
  · have counted : (hashDeleteIf h argF).2.count =
        toInt (h.count - (hashDeleteIf h argF).1.length) := rfl
    rw [counted, stands.count]
    exact (toInt_of_range (by omega) (by omega)).trans (by omega)
  · omega

omit [DecidableEq κ] in
/-- A function is called for each node of a table, and it is counted how often it is positive. -/
theorem Hash.Stands.forEach {σ : Type} (positive : α → κ → Int) (change : α → κ → σ → σ) (arg : σ) :
    hashForEach h (fun data key arg => (positive data key, change data key arg)) arg =
      (((items.entries.countP fun node => positive node.2 node.1 > 0 : Nat) : Int),
        h.table.flatten.foldl (fun arg node => change node.2 node.1 arg) arg) := by
  have few := stands.few
  rw [← stands.nodes, Multiset.coe_card] at few
  rw [← stands.nodes, Multiset.coe_countP, hashForEach]
  have all : ∀ (chains : List (List (HashNode κ α))) (n : Int) (arg : σ), 0 ≤ n →
      n + chains.flatten.length ≤ intMax →
        chains.foldl (fun counted chain => forEachChain
            (fun data key arg => (positive data key, change data key arg)) chain counted) (n, arg) =
          (n + (chains.flatten.countP fun node => positive node.2 node.1 > 0 : Nat),
            chains.flatten.foldl (fun arg node => change node.2 node.1 arg) arg) := by
    intro chains
    induction chains with
    | nil =>
      intro n arg _ _
      rw [List.flatten_nil, List.countP_nil, Int.natCast_zero, Int.add_zero]
      rfl
    | cons chain chains ih =>
      intro n arg low room
      rw [List.flatten_cons, List.length_append] at room
      have counted := chain.countP_le_length (p := fun node => decide (positive node.2 node.1 > 0))
      rw [List.foldl_cons, forEachChain_eq positive change chain low (by omega),
        ih _ _ (by omega) (by omega), List.flatten_cons, List.countP_append, List.foldl_append,
        Int.natCast_add, Int.add_assoc]
  have whole := all h.table 0 arg (Int.le_refl 0) (by rw [Int.zero_add]; exact few)
  rw [Int.zero_add] at whole
  exact whole

omit [DecidableEq κ] in
/-- A table that is destroyed deletes each item of the map. -/
theorem Hash.Stands.destroy :
    (hashDestroy h : Multiset α) = items.entries.map Sigma.snd := by
  rw [← stands.nodes, Multiset.map_coe, List.map_flatten]
  rfl

end

/-! ## Runs -/

/-- What can be asked of a table. -/
inductive HashRequest (κ α : Type) where
  | find (key : κ)
  | insert (key : κ) (data : α)
  | remove (key : κ)
  | deleteIf (argF : α → κ → Int)
  | forEach (argF : α → κ → Int)
  | count
  | isEmpty

/-- What a table answers. -/
inductive HashAnswer (α : Type) where
  | item (data : Option α)
  | number (n : Int)
  /-- The items that are deleted, in whatever order. -/
  | deleted (items : Multiset α)

/-- What a table answers to a request, and the table after it. -/
def Hash.serve (h : Hash κ α) : HashRequest κ α → HashAnswer α × Hash κ α
  | .find key => (.item (hashFind keyF h key), h)
  | .insert key data =>
    let (item, h) := hashInsert keyF h key data
    (.item item, h)
  | .remove key =>
    let (item, h) := hashRemove keyF h key
    (.item item, h)
  | .deleteIf argF =>
    let (deleted, h) := hashDeleteIf h argF
    (.deleted deleted, h)
  | .forEach argF => (.number (hashForEach h (fun data key () => (argF data key, ())) ()).1, h)
  | .count => (.number h.count, h)
  | .isEmpty => (.number (if h.count = 0 then 1 else 0), h)

/-- What a finite map answers, and the map after it. -/
def Items.serve (items : Items κ α) : HashRequest κ α → HashAnswer α × Items κ α
  | .find key => (.item (items.lookup key), items)
  | .insert key data =>
    if key ∈ items then (.item none, items) else (.item (some data), items.insert key data)
  | .remove key => (.item (items.lookup key), items.erase key)
  | .deleteIf argF =>
    (.deleted ((items.entries.filter fun node => argF node.2 node.1 > 0).map Sigma.snd),
      items.keep argF)
  | .forEach argF =>
    (.number (items.entries.countP fun node => argF node.2 node.1 > 0 : Nat), items)
  | .count => (.number items.entries.card, items)
  | .isEmpty => (.number (if items.entries.card = 0 then 1 else 0), items)

/-- There are not more items than an `int` counts. -/
def Items.Roomy (items : Items κ α) : HashRequest κ α → Prop
  | .insert _ _ => (items.entries.card + 1 : Int) ≤ intMax
  | _ => True

/-- A table answers as the map that it stands for. -/
theorem hash_simulates :
    Refinement.Simulates (Hash.serve keyF) Items.serve
      (fun (h : Hash κ α) items => h.Stands keyF items) Items.Roomy := by
  intro h items request stands roomy
  cases request with
  | find key => exact ⟨congrArg HashAnswer.item (stands.find_eq key), stands⟩
  | insert key data =>
    have inserted := stands.insert key data roomy
    rw [Hash.serve, Items.serve]
    split at inserted
    · rename_i found
      rw [inserted, if_pos found]
      exact ⟨rfl, stands⟩
    · rename_i absent
      obtain ⟨h', result, goes⟩ := inserted
      rw [result, if_neg absent]
      exact ⟨rfl, goes⟩
  | remove key =>
    obtain ⟨item, goes⟩ := stands.remove key
    exact ⟨congrArg HashAnswer.item item, goes⟩
  | deleteIf argF =>
    obtain ⟨deleted, goes⟩ := stands.deleteIf argF
    exact ⟨congrArg HashAnswer.deleted deleted, goes⟩
  | forEach argF =>
    have visited := stands.forEach argF (fun _ _ () => ()) ()
    exact ⟨congrArg HashAnswer.number (congrArg Prod.fst visited), stands⟩
  | count => exact ⟨congrArg HashAnswer.number stands.count, stands⟩
  | isEmpty =>
    have empty : h.count = 0 ↔ items.entries.card = 0 := by rw [stands.count, Int.natCast_eq_zero]
    exact ⟨congrArg HashAnswer.number (if_congr empty rfl rfl), stands⟩

omit [DecidableEq κ] in
/-- A new table stands for the empty map. -/
theorem hashCreate_stands (size : Int) : (hashCreate size : Hash κ α).Stands keyF ∅ where
  nodes := by
    rw [hashCreate, List.flatten_replicate_nil]
    rfl
  slots := by
    intro i chain place node member
    have empty : chain = [] := List.eq_of_mem_replicate (List.mem_of_getElem? place)
    rw [empty] at member
    cases member
  cells := by
    rw [hashCreate, List.length_replicate]
    split
    · decide
    · omega
  count := rfl
  few := Int.le_of_lt (show (0 : Int) < 2 ^ 31 - 1 by decide)

/-- Whatever the hash of keys is and however many slots there are, a table that was created empty
answers every run of requests as a finite map does, and deletes each item that is left when it is
destroyed. -/
theorem hash_refines (size : Int) (requests : List (HashRequest κ α))
    (roomy : Runs.Along (Refinement.next Items.serve) Items.Roomy ∅ requests) :
    Refinement.answers (Hash.serve keyF) (hashCreate size) requests =
        Refinement.answers Items.serve ∅ requests ∧
      (hashDestroy (Runs.run (Refinement.next (Hash.serve keyF)) (hashCreate size) requests) :
          Multiset α) =
        (Runs.run (Refinement.next Items.serve) ∅ requests).entries.map Sigma.snd := by
  obtain ⟨alike, ends⟩ := (hash_simulates keyF).run (hashCreate_stands keyF size) roomy
  exact ⟨alike, ends.destroy⟩

end

/-- Two names in one slot, one of which is inserted twice and the other removed. -/
theorem hash_refines_collision :
    Refinement.answers (Hash.serve hashKeyString) (hashCreate 1)
        [.insert ['a'] 1, .insert ['b'] 2, .insert ['a'] 3, .remove ['b'], .find ['a'], .count] =
      [.item (some 1), .item (some 2), .item none, .item (some 2), .item (some 1), .number 1] := by
  have roomy : Runs.Along (Refinement.next Items.serve) Items.Roomy (∅ : Items (List Char) Nat)
      [.insert ['a'] 1, .insert ['b'] 2, .insert ['a'] 3, .remove ['b'], .find ['a'], .count] :=
    ⟨show ((0 : Nat) + 1 : Int) ≤ intMax by decide, show ((1 : Nat) + 1 : Int) ≤ intMax by decide,
      show ((2 : Nat) + 1 : Int) ≤ intMax by decide, trivial, trivial, trivial, trivial⟩
  exact (hash_refines hashKeyString 1 _ roomy).1.trans rfl

end GpibUtils.Lsd
