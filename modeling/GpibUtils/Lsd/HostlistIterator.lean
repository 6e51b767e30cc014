import GpibUtils.Lsd.Hostlist

/-!
# Going through a host list

An iterator is at a place in a range. When it leaves a range it takes the next cell of the array for
the range to go on with, before it is known whether there is a cell: the end of a list is found
without leaving the array exactly when the ranges do not take all of its cells
(`iterate_hosts`).
-/

namespace GpibUtils.Lsd

open CSem

/-! ## The code -/

/-- `struct hostlist_iterator`, less the list and the other iterators; `hr` is NULL behind the
ranges. -/
structure HostlistIterator where
  idx : Nat
  hr : Option Hostrange
  depth : Int
  deriving DecidableEq

/-- What is in a cell of the array: a range, or NULL; outside of the array there is no cell. -/
def Hostlist.cell (hl : Hostlist) (i : Nat) : Option (Option Hostrange) :=
  if i < hl.size then some hl.hr[i]? else none

/-- `hostlist_iterator_create`, also of an iterator that is reset. -/
def hostlistIteratorCreate (hl : Hostlist) : Option HostlistIterator :=
  (hl.cell 0).map fun hr => ⟨0, hr, -1⟩

/-- `_iterator_advance`; there is no result when it goes through NULL or leaves the array. -/
def iteratorAdvance (hl : Hostlist) (i : HostlistIterator) : Option HostlistIterator :=
  if (i.idx : Int) > hl.hr.length - 1 then some i
  else do
    let hr ← i.hr
    let depth := toInt (i.depth + 1)
    if toULong depth > hr.hi - hr.lo then
      let next ← hl.cell (i.idx + 1)
      some ⟨i.idx + 1, next, 0⟩
    else some { i with depth }

/-- The host that `hostlist_next` puts together. -/
def hostAt (hr : Hostrange) (depth : Int) : List Char :=
  let suffix :=
    if hr.singlehost then []
    else (zeroPadded hr.width (hr.lo + toULong depth).toNat).take 14
  hr.pfx ++ suffix

/-- `hostlist_next`; there is no result when it goes through NULL or leaves the array. -/
def hostlistNext (hl : Hostlist) (i : HostlistIterator) :
    Option (Option (List Char) × HostlistIterator) := do
  let i ← iteratorAdvance hl i
  if (i.idx : Int) > hl.hr.length - 1 then some (none, i)
  else
    let hr ← i.hr
    some (some (hostAt hr i.depth), i)

/-- A loop that takes hosts until `hostlist_next` returns NULL: the hosts, and whether it ended. -/
def nextLoop (hl : Hostlist) : (rounds : Nat) → HostlistIterator → List (List Char) × Bool
  | 0, _ => ([], false)
  | rounds + 1, i =>
    match hostlistNext hl i with
    | none => ([], false)
    | some (none, _) => ([], true)
    | some (some host, i) =>
      let (hosts, ended) := nextLoop hl rounds i
      (host :: hosts, ended)

/-- The hosts that an iterator that was created for a list hands out, and whether it comes to the
end of the list. -/
def iterate (hl : Hostlist) (rounds : Nat) : List (List Char) × Bool :=
  match hostlistIteratorCreate hl with
  | none => ([], false)
  | some i => nextLoop hl rounds i

/-- The rounds that going through a list takes. -/
def Hostlist.rounds (hl : Hostlist) : Nat := hl.nhosts.toNat + 1

/-! ## Places -/

/-- A range among those of a list, and the hosts of it that have been handed out and that are
left. -/
structure Place where
  before : List Hostrange
  hr : Hostrange
  later : List Hostrange
  done : List (List Char)
  left : List (List Char)

/-- The hosts that come at a place. -/
def Place.rest (place : Place) : List (List Char) :=
  place.left ++ Blocks.all Hostrange.hosts place.later

/-- An iterator is at a place of a list. -/
structure Stands (hl : Hostlist) (i : HostlistIterator) (place : Place) : Prop where
  ranges : hl.hr = place.before ++ place.hr :: place.later
  idx : i.idx = place.before.length
  hr : i.hr = some place.hr
  hosts : place.hr.hosts = place.done ++ place.left
  depth : i.depth = place.done.length - 1

/-- The host at a place of a range is put together. -/
theorem hostAt_eq {hr : Hostrange} (fits : hr.Fits) {place : Nat}
    (inside : place < hr.hosts.length) : some (hostAt hr place) = hr.hosts[place]? := by
  obtain ⟨proper, -, narrow, small⟩ := fits
  cases proper with
  | single pfx =>
    obtain rfl : place = 0 := Nat.lt_one_iff.mp inside
    exact congrArg some (List.append_nil pfx)
  | @numbers pfx lo hi width order below =>
    rw [hosts_hostrangeCreate, length_namesBetween] at inside
    have num := toNat_place inside
    have small : hi.toNat < 10 ^ 14 := small
    have word : toULong place = UInt64.ofNat place := by
      rw [← UInt64.toNat_inj, toNat_toULong (by omega) (by omega), UInt64.toNat_ofNat']
      omega
    have whole : (zeroPadded width (lo.toNat + place)).take 14 =
        zeroPadded width (lo.toNat + place) :=
      List.take_of_length_le (length_zeroPadded_le narrow (by omega))
    have host : hostAt (hostrangeCreate pfx lo hi width) place =
        pfx ++ (zeroPadded width (lo + toULong place).toNat).take 14 := rfl
    rw [host, word, num, whole, hosts_hostrangeCreate, getElem?_namesBetween pfx width inside]

/-- An iterator has handed out all hosts of a range when the number of those that it has is more
than the distance of the last one from the first one. -/
theorem distance_lt_iff {hr : Hostrange} (proper : hr.Proper) {depth : Nat}
    (small : depth < 2 ^ 64) : toULong depth > hr.hi - hr.lo ↔ hr.hosts.length ≤ depth := by
  have word : (toULong depth).toNat = depth := toNat_toULong (by omega) (by omega)
  rw [gt_iff_lt, UInt64.lt_iff_toNat_lt, word]
  cases proper with
  | single pfx =>
    have zero : ((0 : UInt64) - 0).toNat = 0 := by decide
    show ((0 : UInt64) - 0).toNat < depth ↔ 1 ≤ depth
    rw [zero, Nat.one_le_iff_ne_zero, Nat.pos_iff_ne_zero]
  | @numbers pfx lo hi width order below =>
    have distance : (hi - lo).toNat = hi.toNat - lo.toNat := toNat_sub order
    rw [hosts_hostrangeCreate, length_namesBetween]
    show (hi - lo).toNat < depth ↔ _
    omega

/-- An iterator that is at a place is not behind the ranges. -/
theorem Stands.inside {hl : Hostlist} {i : HostlistIterator} {place : Place}
    (stands : Stands hl i place) : ¬(i.idx : Int) > hl.hr.length - 1 := by
  rw [stands.idx, stands.ranges, List.length_append, List.length_cons]
  omega

section
variable {hl : Hostlist} (sound : hl.Sound) {i : HostlistIterator} {place : Place}
  (stands : Stands hl i place)
include sound stands

/-- The range that an iterator is in fits, and its hosts are counted as an `int`. -/
theorem Stands.fits : place.hr.Fits ∧ (place.hr.hosts.length : Int) ≤ intMax := by
  have few := sound.few
  rw [Hostlist.hosts, stands.ranges, Blocks.all_append, Blocks.all_cons, List.length_append,
    List.length_append] at few
  exact ⟨sound.ranges _ (by rw [stands.ranges]; simp), by omega⟩

/-- The depth is counted up. -/
theorem Stands.depth_succ : toInt (i.depth + 1) = place.done.length := by
  have few := (stands.fits sound).2
  rw [stands.hosts, List.length_append] at few
  rw [stands.depth, Int.sub_add_cancel, toInt_of_range (by omega) (by omega)]

/-- The iterator stays in its range exactly while hosts of it are left. -/
theorem Stands.stays_iff :
    toULong (toInt (i.depth + 1)) > place.hr.hi - place.hr.lo ↔ place.left = [] := by
  have few := (stands.fits sound).2
  rw [stands.hosts, List.length_append, intMax] at few
  rw [stands.depth_succ sound, distance_lt_iff (stands.fits sound).1.proper (by omega),
    stands.hosts, List.length_append, ← List.length_eq_zero_iff]
  omega

/-- The next host of the range is handed out. -/
theorem Stands.next_left {host : List Char} {left : List (List Char)}
    (more : place.left = host :: left) :
    ∃ i', hostlistNext hl i = some (some host, i') ∧
      Stands hl i' { place with done := place.done ++ [host], left } := by
  have deep := stands.depth_succ sound
  have stays := (stands.stays_iff sound).not.mpr (by rw [more]; exact List.cons_ne_nil _ _)
  have advanced : iteratorAdvance hl i = some { i with depth := place.done.length } := by
    rw [iteratorAdvance, if_neg stands.inside, stands.hr]
    dsimp only [Option.bind_eq_bind, Option.bind_some]
    rw [if_neg stays, deep]
  have host' : hostAt place.hr place.done.length = host := by
    have inside : place.done.length < place.hr.hosts.length := by
      rw [stands.hosts, more, List.length_append, List.length_cons]
      omega
    have same := hostAt_eq (stands.fits sound).1 inside
    rw [stands.hosts, more, List.getElem?_append_right (Nat.le_refl _), Nat.sub_self] at same
    exact Option.some.inj same
  refine ⟨{ i with depth := place.done.length }, ?_, stands.ranges, stands.idx, stands.hr, ?_, ?_⟩
  · rw [hostlistNext, advanced]
    dsimp only [Option.bind_eq_bind, Option.bind_some]
    rw [if_neg stands.inside, stands.hr]
    dsimp only [Option.bind_some]
    rw [host']
  · rw [stands.hosts, more, List.append_assoc]
    rfl
  · rw [List.length_append]
    exact (Int.add_sub_cancel _ 1).symm

/-- When the hosts of a range are handed out the iterator takes the next cell of the array. -/
theorem Stands.advance_range (none : place.left = []) :
    iteratorAdvance hl i =
      (hl.cell (place.before.length + 1)).map fun next => ⟨place.before.length + 1, next, 0⟩ := by
  rw [iteratorAdvance, if_neg stands.inside, stands.hr]
  dsimp only [Option.bind_eq_bind, Option.bind_some]
  rw [if_pos ((stands.stays_iff sound).mpr none), stands.idx, Option.map_eq_bind]
  rfl

/-- The first host of the next range is handed out. -/
theorem Stands.next_range (none : place.left = []) {hr : Hostrange} {later : List Hostrange}
    (more : place.later = hr :: later) :
    ∃ i' host left, hr.hosts = host :: left ∧ hostlistNext hl i = some (some host, i') ∧
      Stands hl i' ⟨place.before ++ [place.hr], hr, later, [host], left⟩ := by
  have split : hl.hr = (place.before ++ [place.hr]) ++ hr :: later := by
    rw [stands.ranges, more]
    simp
  have count : hl.hr.length = place.before.length + 1 + (later.length + 1) := by
    simp only [split, List.length_append, List.length_cons, List.length_nil, Nat.zero_add]
  have fits : hr.Fits := sound.ranges hr (by rw [split]; simp)
  have room := sound.room
  have cell : hl.cell (place.before.length + 1) = some (some hr) := by
    rw [Hostlist.cell, if_pos (by omega), split, List.getElem?_append_right (by simp)]
    simp
  obtain ⟨host, left, hosts⟩ := List.exists_cons_of_length_pos fits.proper.hosts_pos
  have first : hostAt hr 0 = host := by
    have same := hostAt_eq fits fits.proper.hosts_pos
    rw [hosts] at same
    exact Option.some.inj same
  refine ⟨⟨place.before.length + 1, some hr, 0⟩, host, left, hosts, ?_, split, ?_, rfl, hosts, rfl⟩
  · rw [hostlistNext, stands.advance_range sound none, cell]
    dsimp only [Option.map_some, Option.bind_eq_bind, Option.bind_some]
    rw [if_neg (by omega), first]
  · simp

/-- Behind the last host of the last range there is NULL, or no cell. -/
theorem Stands.next_end (none : place.left = []) (last : place.later = []) :
    hostlistNext hl i =
      if hl.hr.length < hl.size then some (.none, ⟨hl.hr.length, .none, 0⟩) else .none := by
  have count : hl.hr.length = place.before.length + 1 := by
    rw [stands.ranges, last]
    simp
  rw [hostlistNext, stands.advance_range sound none, ← count, Hostlist.cell]
  by_cases free : hl.hr.length < hl.size
  · rw [if_pos free, if_pos free, List.getElem?_eq_none (Nat.le_refl _)]
    dsimp only [Option.map_some, Option.bind_eq_bind, Option.bind_some]
    rw [if_pos (by omega)]
  · rw [if_neg free, if_neg free]
    rfl

end

/-- From a place on an iterator hands out the hosts that come, and it comes to the end of the list
when there is a cell behind the ranges. -/
theorem nextLoop_stands {hl : Hostlist} (sound : hl.Sound) {rounds : Nat} {i : HostlistIterator}
    {place : Place} (stands : Stands hl i place) (enough : place.rest.length < rounds) :
    nextLoop hl rounds i = (place.rest, decide (hl.hr.length < hl.size)) := by
  induction rounds generalizing i place with
  | zero => exact absurd enough (Nat.not_lt_zero _)
  | succ rounds ih =>
    rw [nextLoop]
    cases left : place.left with
    | cons host left' =>
      obtain ⟨i', handed, next⟩ := stands.next_left sound left
      have rest : place.rest = host :: (left' ++ Blocks.all Hostrange.hosts place.later) := by
        rw [Place.rest, left]
        rfl
      rw [rest, List.length_cons] at enough
      rw [handed, rest]
      dsimp only
      rw [ih next (Nat.lt_of_succ_lt_succ enough)]
      rfl
    | nil =>
      cases later : place.later with
      | nil =>
        have rest : place.rest = [] := by rw [Place.rest, left, later]; rfl
        rw [stands.next_end sound left later, rest]
        by_cases free : hl.hr.length < hl.size
        · rw [if_pos free, decide_eq_true free]
        · rw [if_neg free, decide_eq_false free]
      | cons hr later' =>
        obtain ⟨i', host, left', hosts, handed, next⟩ := stands.next_range sound left later
        have rest : place.rest = host :: (left' ++ Blocks.all Hostrange.hosts later') := by
          rw [Place.rest, left, later, Blocks.all_cons, hosts]
          rfl
        rw [rest, List.length_cons] at enough
        rw [handed, rest]
        dsimp only
        rw [ih next (Nat.lt_of_succ_lt_succ enough)]
        rfl

/-- An iterator that was created for a list hands out its hosts, and comes to the end of the list
exactly when there is a cell behind the ranges. -/
theorem iterate_eq {hl : Hostlist} (sound : hl.Sound) {rounds : Nat}
    (enough : hl.hosts.length < rounds) :
    iterate hl rounds = (hl.hosts, decide (hl.hr = [] ∨ hl.hr.length < hl.size)) := by
  have created : hostlistIteratorCreate hl = some ⟨0, hl.hr[0]?, -1⟩ := by
    rw [hostlistIteratorCreate, Hostlist.cell, if_pos sound.cells]
    rfl
  rw [iterate, created]
  cases ranges : hl.hr with
  | nil =>
    obtain ⟨more, rfl⟩ := Nat.exists_eq_succ_of_ne_zero (Nat.ne_of_gt (Nat.zero_lt_of_lt enough))
    have stays : hostlistNext hl ⟨0, none, -1⟩ = some (none, ⟨0, none, -1⟩) := by
      simp [hostlistNext, iteratorAdvance, ranges]
    have empty : hl.hosts = [] := by rw [Hostlist.hosts, ranges, Blocks.all_nil]
    rw [List.getElem?_nil, empty]
    dsimp only [nextLoop]
    rw [stays]
    rfl
  | cons hr later =>
    have stands : Stands hl ⟨0, some hr, -1⟩ ⟨[], hr, later, [], hr.hosts⟩ :=
      ⟨ranges, rfl, rfl, rfl, rfl⟩
    have hosts : hl.hosts = Place.rest ⟨[], hr, later, [], hr.hosts⟩ := by
      rw [Hostlist.hosts, ranges]
      rfl
    rw [List.getElem?_cons_zero, hosts]
    dsimp only
    rw [nextLoop_stands sound stands (hosts ▸ enough), ranges]
    simp

/-- A sound list has as many rounds as it takes. -/
theorem Hostlist.Sound.rounds_enough {hl : Hostlist} (sound : hl.Sound) :
    hl.hosts.length < hl.rounds := by
  rw [Hostlist.rounds, sound.count]
  omega

/-- A sound list has an iterator, which goes through it. -/
theorem Hostlist.Sound.through {hl : Hostlist} (sound : hl.Sound) :
    ∃ it, hostlistIteratorCreate hl = some it ∧
      nextLoop hl hl.rounds it = (hl.hosts, decide (hl.hr = [] ∨ hl.hr.length < hl.size)) := by
  have through := iterate_eq sound sound.rounds_enough
  have created : hostlistIteratorCreate hl = some ⟨0, hl.hr[0]?, -1⟩ := by
    rw [hostlistIteratorCreate, Hostlist.cell, if_pos sound.cells]
    rfl
  rw [iterate, created] at through
  exact ⟨_, created, through⟩

/-- Whatever was asked of a list that was created empty, an iterator that is then created for it
hands out the names that the list stands for, each of them once and in order. It comes to the end of
the list exactly when there is a cell behind the ranges; when they take all of the array, the
iterator leaves the array behind the last host. -/
theorem iterate_hosts (requests : List Request)
    (allowed : Runs.Along (Refinement.next serveNames) Allowed [] requests) {rounds : Nat}
    (enough : (Runs.run (Refinement.next serveNames) [] requests).length < rounds) :
    ∃ hl, Runs.run (Refinement.next Hostlist.serve) hostlistNew requests = hl ∧
      iterate hl rounds =
        (Runs.run (Refinement.next serveNames) [] requests,
          decide (hl.hr = [] ∨ hl.hr.length < hl.size)) := by
  have start : hostlistNew.hosts = [] ∧ hostlistNew.Sound := ⟨rfl, hostlistNew_sound⟩
  obtain ⟨-, hosts, sound⟩ := hostlist_simulates.run start allowed
  refine ⟨_, rfl, ?_⟩
  rw [← hosts] at enough ⊢
  exact iterate_eq sound enough

/-- Sixteen hosts that are no ranges take all cells of the array, and the iterator leaves it. -/
theorem iterate_hosts_sixteen :
    ∃ hl, Runs.run (Refinement.next Hostlist.serve) hostlistNew
        [.pushList ⟨List.replicate 16 (hostrangeCreateSingle ['a']), 16, 16⟩] = hl ∧
      iterate hl 17 = (List.replicate 16 ['a'], false) := by
  have fits : (hostrangeCreateSingle ['a']).Fits :=
    ⟨.single ['a'], by decide, by decide, by decide⟩
  have sound : Hostlist.Sound ⟨List.replicate 16 (hostrangeCreateSingle ['a']), 16, 16⟩ := by
    refine ⟨fun hr member => ?_, by decide, by decide, by decide, by decide⟩
    rw [List.eq_of_mem_replicate member]
    exact fits
  have allowed : Runs.Along (Refinement.next serveNames) Allowed []
      [.pushList ⟨List.replicate 16 (hostrangeCreateSingle ['a']), 16, 16⟩] :=
    ⟨⟨sound, by decide⟩, trivial⟩
  obtain ⟨hl, ran, through⟩ := iterate_hosts _ allowed (show _ < 17 by decide)
  refine ⟨hl, ran, through.trans ?_⟩
  rw [← ran]
  decide

end GpibUtils.Lsd
