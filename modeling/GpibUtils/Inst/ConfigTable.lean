import GpibUtils.Inst.ConfigFile
import GpibUtils.Lsd.Hash

/-!
# The table of instruments

`cf_create` keeps its records in a hash table, which has pointers to them; `parse_cb` looks a
pointer up and changes the record that it points to. Looked up by name, the table gives what a
function from names to records gives, and it lists and frees each record once (`cfCreate_table`).
-/

namespace GpibUtils.Inst.Table

open CSem Lsd

/-! ## The code -/

/-- `struct cf_file`, with the records that were allocated; a pointer to one is its number. -/
structure CfFile where
  db : Hash (List Char) Nat
  cfis : List CfInstrument

/-- The file that `cf_create` begins with. -/
def CfFile.new : CfFile := ⟨hashCreate 0, []⟩

/-- `cfi_create`; a record that is not inserted is freed. -/
def cfiCreate (cf : CfFile) (name : List Char) : Option Nat × CfFile :=
  let cfi := newInstrument name
  match Lsd.hashInsert hashKeyString cf.db cfi.name cf.cfis.length with
  | (none, _) => (none, cf)
  | (some p, db) => (some p, ⟨db, cf.cfis ++ [cfi]⟩)

/-- The first part of `parse_cb`: the record of a section, found or created. -/
def findOrCreate (cf : CfFile) (name : List Char) : Option Nat × CfFile :=
  match hashFind hashKeyString cf.db name with
  | some p => (some p, cf)
  | none => cfiCreate cf name

/-- `parse_cb`; a pointer points to a record. -/
def parseCb (cf : CfFile) (event : IniEvent) : Bool × CfFile :=
  match findOrCreate cf event.sect with
  | (none, cf) => (false, cf)
  | (some p, cf) =>
    match attrOf event.name, cf.cfis[p]? with
    | some attr, some cfi =>
      let (ok, cfi) := setAttr attr event.value cfi
      (ok, { cf with cfis := cf.cfis.set p cfi })
    | _, _ => (false, cf)

/-- `cf_create`, of a file that has been parsed into events. -/
def cfCreate (file : Option (List IniEvent)) : Option CfFile :=
  let (rc, cf) := iniParse parseCb file CfFile.new
  if rc = -1 then none else if 0 < rc then none else some cf

/-- `cf_lookup` -/
def cfLookup (cf : CfFile) (name : List Char) : Option CfInstrument :=
  (hashFind hashKeyString cf.db name).bind fun p => cf.cfis[p]?

/-- A text with blanks behind it, as `%-*s` has it. -/
def padded (width : Nat) (s : List Char) : List Char := s ++ List.replicate (width - s.length) ' '

/-- The line of `cfi_list`; the array `make` is no NULL pointer. -/
def cfiLine (cfi : CfInstrument) : List Char :=
  padded 16 cfi.name ++ ' ' :: (padded 30 cfi.addr ++ ' ' :: (cfi.make ++ ' ' :: (cfi.model ++
    ['\n'])))

/-- `cf_list`: what is printed. -/
def cfList (cf : CfFile) : List Char :=
  (hashForEach cf.db (fun p _ f => ((1 : Int), f ++ (cf.cfis[p]?.map cfiLine).getD [])) []).2

/-- `cf_destroy`: the records that are freed, one after the other. -/
def cfDestroy (cf : CfFile) : List Nat := hashDestroy cf.db

/-! ## Records by name -/

/-- A table keeps the records of a function from names: its items are pointers, one to each record,
and the pointer of a name is to the record of the name. -/
structure Points (cf : CfFile) (items : Items (List Char) Nat) (db : Db) : Prop where
  stands : cf.db.Stands hashKeyString items
  owners : items.entries.map Sigma.snd = Multiset.range cf.cfis.length
  found : ∀ name, db.find name = (items.lookup name).bind fun p => cf.cfis[p]?

section
variable {cf : CfFile} {items : Items (List Char) Nat} {db : Db} (points : Points cf items db)
include points

/-- There are as many items as records. -/
theorem Points.card : items.entries.card = cf.cfis.length := by
  rw [← Multiset.card_map Sigma.snd, points.owners, Multiset.card_range]

/-- The pointer of a name is to a record. -/
theorem Points.inside {name : List Char} {p : Nat} (listed : items.lookup name = some p) :
    p < cf.cfis.length := by
  have entries : (⟨name, p⟩ : HashNode (List Char) Nat) ∈ items.entries := by
    have nodes := lookup_entries points.stands.nodes name
    rw [nodes] at listed
    rw [← points.stands.nodes]
    exact List.of_mem_dlookup listed
  rw [← Multiset.mem_range, ← points.owners]
  exact Multiset.mem_map_of_mem Sigma.snd entries

/-- A record is found for a name that has a pointer. -/
theorem Points.find_some {name : List Char} {p : Nat} (listed : items.lookup name = some p) :
    ∃ cfi, cf.cfis[p]? = some cfi ∧ db.find name = some cfi := by
  refine ⟨_, List.getElem?_eq_getElem (points.inside listed), ?_⟩
  rw [points.found, listed]
  exact List.getElem?_eq_getElem (points.inside listed)

/-- Looked up by name, a table gives the record of the name. -/
theorem Points.cfLookup_eq (name : List Char) : cfLookup cf name = db.find name := by
  rw [points.found]
  exact congrArg (Option.bind · _) (points.stands.find_eq name)

/-- A new record is put into a table where it is put into the function. -/
theorem Points.create (name : List Char) (room : (cf.cfis.length + 1 : Int) ≤ intMax) :
    (cfiCreate cf name).1 = none ∧ Inst.cfiCreate db name = none ∧ (cfiCreate cf name).2 = cf ∨
      ∃ db' items', cfiCreate cf name =
          (some cf.cfis.length, (cfiCreate cf name).2) ∧
        Inst.cfiCreate db name = some (newInstrument name, db') ∧
        (cfiCreate cf name).2.cfis = cf.cfis ++ [newInstrument name] ∧
        items'.lookup (newInstrument name).name = some cf.cfis.length ∧
        Points (cfiCreate cf name).2 items' db' := by
  have card := points.card
  have inserted := points.stands.insert (newInstrument name).name cf.cfis.length (by omega)
  rw [cfiCreate, Inst.cfiCreate, Inst.hashInsert]
  split at inserted
  · rename_i member
    obtain ⟨p, listed⟩ := Finmap.mem_iff.mp member
    obtain ⟨cfi, -, found⟩ := points.find_some listed
    rw [inserted, found]
    exact .inl ⟨rfl, rfl, rfl⟩
  · rename_i absent
    obtain ⟨h, result, stands⟩ := inserted
    have none : db.find (newInstrument name).name = none := by
      rw [points.found, Finmap.lookup_eq_none.mpr absent]
      rfl
    rw [result, none]
    refine .inr ⟨db.store (newInstrument name), _, rfl, rfl, rfl, Finmap.lookup_insert items,
      stands, ?_, fun other => ?_⟩
    · rw [Finmap.entries_insert_of_notMem absent, Multiset.map_cons, points.owners,
        List.length_append, List.length_singleton, Multiset.range_succ]
    · by_cases same : other = (newInstrument name).name
      · subst same
        rw [Finmap.lookup_insert, Option.bind_some, List.getElem?_concat_length]
        exact Function.update_self ..
      · have kept : (db.store (newInstrument name)).find other = db.find other :=
          Function.update_of_ne same _ _
        rw [Finmap.lookup_insert_of_ne _ same, kept, points.found]
        cases listed : items.lookup other with
        | none => rfl
        | some p =>
          rw [Option.bind_some, Option.bind_some,
            List.getElem?_append_left (points.inside listed)]

/-- The record of a pointer is changed where that of its name is. -/
theorem Points.store {p : Nat} {cfi cfi' : CfInstrument} (record : cf.cfis[p]? = some cfi)
    (listed : items.lookup cfi.name = some p) (same : cfi'.name = cfi.name) :
    Points { cf with cfis := cf.cfis.set p cfi' } items (db.store cfi') := by
  refine ⟨points.stands, by rw [points.owners, List.length_set], fun name => ?_⟩
  by_cases own : name = cfi'.name
  · have changed : (db.store cfi').find name = some cfi' := by
      rw [own]
      exact Function.update_self ..
    rw [changed, own, same, listed, Option.bind_some,
      List.getElem?_set_self (points.inside listed)]
  · have kept : (db.store cfi').find name = db.find name := Function.update_of_ne own _ _
    rw [kept, points.found]
    cases other : items.lookup name with
    | none => rfl
    | some q =>
      have apart : p ≠ q := by
        rintro rfl
        obtain ⟨found, there, named⟩ := points.find_some other
        rw [record] at there
        cases there
        exact own (same ▸ (db.named name cfi named).symm)
      rw [Option.bind_some, Option.bind_some, List.getElem?_set_ne apart]

/-- The record of a section is found or created in a table as it is in the function. -/
theorem Points.findOrCreate (name : List Char) (room : (cf.cfis.length + 1 : Int) ≤ intMax) :
    Table.findOrCreate cf name = (none, cf) ∧ Inst.findOrCreate db name = none ∨
      ∃ p cfi cf' items' db', Table.findOrCreate cf name = (some p, cf') ∧
        Inst.findOrCreate db name = some (cfi, db') ∧ cf'.cfis[p]? = some cfi ∧
        items'.lookup cfi.name = some p ∧ Points cf' items' db' ∧
        cf'.cfis.length ≤ cf.cfis.length + 1 := by
  have looked : hashFind hashKeyString cf.db name = items.lookup name := points.stands.find_eq name
  rw [Table.findOrCreate, Inst.findOrCreate, looked]
  cases listed : items.lookup name with
  | some p =>
    obtain ⟨cfi, record, found⟩ := points.find_some listed
    have own : cfi.name = name := db.named name cfi found
    rw [found]
    exact .inr ⟨p, cfi, cf, items, db, rfl, rfl, record, own ▸ listed, points, Nat.le_succ _⟩
  | none =>
    have absent : db.find name = none := by
      rw [points.found, listed]
      rfl
    rw [absent]
    rcases points.create name room with ⟨none, none', same⟩ | ⟨db', items', made, made', cfis,
      listed', points'⟩
    · exact .inl ⟨Prod.ext none same, none'⟩
    · refine .inr ⟨_, _, _, items', db', made, made', ?_, listed', points', ?_⟩
      · rw [cfis, List.getElem?_concat_length]
      · rw [cfis, List.length_append]
        exact Nat.le_refl _

/-- An event does to a table what it does to the function. -/
theorem Points.parseCb (event : IniEvent) (room : (cf.cfis.length + 1 : Int) ≤ intMax) :
    (Table.parseCb cf event).1 = (Inst.parseCb db event).1 ∧
      (Table.parseCb cf event).2.cfis.length ≤ cf.cfis.length + 1 ∧
      ∃ items', Points (Table.parseCb cf event).2 items' (Inst.parseCb db event).2 := by
  rw [Table.parseCb, Inst.parseCb]
  rcases points.findOrCreate event.sect room with ⟨none, none'⟩ | ⟨p, cfi, cf', items', db', made,
    made', record, listed, points', shorter⟩
  · rw [none, none']
    exact ⟨rfl, Nat.le_succ _, items, points⟩
  · rw [made, made']
    dsimp only
    cases attrOf event.name with
    | none => exact ⟨rfl, shorter, items', points'⟩
    | some attr =>
      rw [record]
      refine ⟨rfl, ?_, items', points'.store record listed (name_setAttr attr event.value cfi)⟩
      dsimp only
      rw [List.length_set]
      exact shorter

end

/-- The events of a file do to a table what they do to the function. -/
theorem iniEvents_table (events : List IniEvent) (error : Int) {cf : CfFile}
    {items : Items (List Char) Nat} {db : Db} (points : Points cf items db)
    (room : (cf.cfis.length + events.length : Int) ≤ intMax) :
    (iniEvents Table.parseCb events error cf).1 = (iniEvents Inst.parseCb events error db).1 ∧
      ∃ items', Points (iniEvents Table.parseCb events error cf).2 items'
        (iniEvents Inst.parseCb events error db).2 := by
  induction events generalizing error cf items db with
  | nil => exact ⟨rfl, items, points⟩
  | cons event events ih =>
    rw [List.length_cons] at room
    push_cast at room
    obtain ⟨ok, longer, items', points'⟩ := points.parseCb event (by omega)
    have later := @ih (if (Inst.parseCb db event).1 = false ∧ error = 0 then
      (event.before : Int) + 1 else error) _ items' _ points' (by omega)
    rw [iniEvents, iniEvents]
    dsimp only
    rw [ok]
    exact later

/-- A new table keeps nothing. -/
theorem points_new : Points CfFile.new ∅ Db.empty :=
  ⟨hashCreate_stands hashKeyString 0, rfl, fun _ => rfl⟩

/-- A table is made exactly when the function is, and keeps its records. -/
theorem cfCreate_points {file : Option (List IniEvent)}
    (few : ∀ events ∈ file, (events.length : Int) ≤ intMax) :
    Table.cfCreate file = none ∧ Inst.cfCreate file = none ∨
      ∃ cf items db, Table.cfCreate file = some cf ∧ Inst.cfCreate file = some db ∧
        Points cf items db := by
  rw [Table.cfCreate, Inst.cfCreate]
  cases file with
  | none => exact .inl ⟨rfl, rfl⟩
  | some events =>
    have empty : (CfFile.new.cfis.length + events.length : Int) ≤ intMax := by
      have fits := few events rfl
      show ((0 : Nat) + events.length : Int) ≤ intMax
      omega
    obtain ⟨rc, items, points⟩ := iniEvents_table events 0 points_new empty
    rw [iniParse, iniParse]
    dsimp only
    rw [rc]
    split
    · exact .inl ⟨rfl, rfl⟩
    · split
      · exact .inl ⟨rfl, rfl⟩
      · exact .inr ⟨_, items, _, rfl, rfl, points⟩

/-! ## Listing and freeing -/

/-- The records that a table lists, in the order of its nodes. -/
def CfFile.listed (cf : CfFile) : List CfInstrument :=
  cf.db.table.flatten.filterMap fun node => cf.cfis[node.2]?

section
variable {cf : CfFile} {items : Items (List Char) Nat} {db : Db} (points : Points cf items db)
include points

/-- A node has the record that its key is the name of. -/
theorem Points.node {node : HashNode (List Char) Nat} (member : node ∈ cf.db.table.flatten) :
    ∃ cfi, cf.cfis[node.2]? = some cfi ∧ cfi.name = node.1 ∧ db.find node.1 = some cfi := by
  have distinct : cf.db.table.flatten.NodupKeys := by
    rw [← Multiset.coe_nodupKeys, points.stands.nodes]
    exact items.nodupKeys
  have lookup : items.lookup node.1 = some node.2 := by
    rw [lookup_entries points.stands.nodes]
    exact List.mem_dlookup distinct member
  obtain ⟨cfi, record, found⟩ := points.find_some lookup
  exact ⟨cfi, record, db.named node.1 cfi found, found⟩

/-- The names of what is listed are the keys of the nodes. -/
theorem Points.names : cf.listed.map CfInstrument.name = cf.db.table.flatten.map Sigma.fst := by
  have all := fun node member => @Points.node cf items db points node member
  rw [CfFile.listed]
  generalize cf.db.table.flatten = nodes at all
  induction nodes with
  | nil => rfl
  | cons node nodes ih =>
    obtain ⟨cfi, record, named, -⟩ := all node List.mem_cons_self
    rw [List.filterMap_cons, record]
    dsimp only
    have rest := ih fun other member => all other (List.mem_cons_of_mem node member)
    rw [List.map_cons, List.map_cons, named, rest]

/-- Each record that can be looked up is listed once. -/
theorem Points.listed_spec :
    (cf.listed.map CfInstrument.name).Nodup ∧
      ∀ cfi, cfi ∈ cf.listed ↔ db.find cfi.name = some cfi := by
  constructor
  · rw [points.names]
    have distinct := items.nodupKeys.nodup_keys
    rw [← points.stands.nodes] at distinct
    exact distinct
  · intro cfi
    rw [CfFile.listed, List.mem_filterMap]
    constructor
    · rintro ⟨node, member, record⟩
      obtain ⟨other, record', named, found⟩ := points.node member
      rw [record] at record'
      cases record'
      exact named ▸ found
    · intro found
      rw [points.found] at found
      obtain ⟨p, lookup, record⟩ := Option.bind_eq_some_iff.mp found
      rw [lookup_entries points.stands.nodes] at lookup
      exact ⟨⟨cfi.name, p⟩, List.of_mem_dlookup lookup, record⟩

/-- A line is printed for each record that is listed. -/
theorem Points.cfList_eq : cfList cf = cf.listed.flatMap cfiLine := by
  rw [cfList, points.stands.forEach (fun _ _ => 1)
    (fun p _ f => f ++ (cf.cfis[p]?.map cfiLine).getD []), CfFile.listed]
  have all : ∀ (nodes : List (HashNode (List Char) Nat)) (f : List Char),
      nodes.foldl (fun f node => f ++ (cf.cfis[node.2]?.map cfiLine).getD []) f =
        f ++ (nodes.filterMap fun node => cf.cfis[node.2]?).flatMap cfiLine := by
    intro nodes
    induction nodes with
    | nil => exact fun f => (List.append_nil f).symm
    | cons node nodes ih =>
      intro f
      rw [List.foldl_cons, ih, List.filterMap_cons]
      cases cf.cfis[node.2]? with
      | none => simp
      | some cfi => simp
  exact all cf.db.table.flatten []

/-- Each record is freed once. -/
theorem Points.freed : (cfDestroy cf).Perm (List.range cf.cfis.length) := by
  rw [← Multiset.coe_eq_coe, cfDestroy, points.stands.destroy, points.owners]
  rfl

end

/-- Made of the same file, the table of `cf_create` and the function from names to records are both
made or both refused. Looked up by name they give the same. The table lists each instrument in one
line, with the names all different, and when it is destroyed it frees each record that was allocated
exactly once. -/
theorem cfCreate_table {file : Option (List IniEvent)}
    (few : ∀ events ∈ file, (events.length : Int) ≤ intMax) :
    Table.cfCreate file = none ∧ Inst.cfCreate file = none ∨
      ∃ cf db, Table.cfCreate file = some cf ∧ Inst.cfCreate file = some db ∧
        (∀ name, Table.cfLookup cf name = Inst.cfLookup db name) ∧
        (∃ cfis : List CfInstrument, cfList cf = cfis.flatMap cfiLine ∧
          (cfis.map CfInstrument.name).Nodup ∧
          ∀ cfi, cfi ∈ cfis ↔ Inst.cfLookup db cfi.name = some cfi) ∧
        (cfDestroy cf).Perm (List.range cf.cfis.length) := by
  rcases cfCreate_points few with refused | ⟨cf, items, db, made, made', points⟩
  · exact .inl refused
  · obtain ⟨distinct, all⟩ := points.listed_spec
    exact .inr ⟨cf, db, made, made', points.cfLookup_eq,
      ⟨cf.listed, points.cfList_eq, distinct, all⟩, points.freed⟩

/-- A file with two instruments, one of which is named twice. -/
theorem cfCreate_table_mixed :
    ∃ cf db, Table.cfCreate (some mixedEvents) = some cf ∧
      Inst.cfCreate (some mixedEvents) = some db ∧
      (∃ cfis : List CfInstrument, cfList cf = cfis.flatMap cfiLine ∧
        (cfis.map CfInstrument.name).Nodup ∧
          ∀ cfi, cfi ∈ cfis ↔ Inst.cfLookup db cfi.name = some cfi) ∧
      (cfDestroy cf).Perm (List.range cf.cfis.length) := by
  have few : ∀ events ∈ some mixedEvents, (events.length : Int) ≤ intMax := by decide
  rcases cfCreate_table few with ⟨-, refused⟩ | ⟨cf, db, made, made', -, rest⟩
  · have some : (Inst.cfCreate (some mixedEvents)).isSome = true := by decide
    rw [refused] at some
    cases some
  · exact ⟨cf, db, made, made', rest⟩

end GpibUtils.Inst.Table
