import GpibUtils.Blocks
import GpibUtils.Refinement
import GpibUtils.CSem.Word
import GpibUtils.Lsd.Hostrange

/-!
# Host lists

A list of hosts is an array of ranges, and a host is found by counting through them. Ranges that
meet are put together when they are pushed, split when a host between others is deleted, and dropped
when they are empty. Whatever is done with a list, it goes on as a plain list of names would
(`hostlist_refines`).
-/

namespace GpibUtils.Lsd

open CSem

/-! ## The code -/

/-- `HOSTLIST_CHUNK` -/
def hostlistChunk : Nat := 16

/-- `struct hostlist`: the ranges in its array, how many cells the array has, and the number of
hosts. Cells behind the ranges are NULL. -/
structure Hostlist where
  hr : List Hostrange
  size : Nat
  nhosts : Int
  deriving DecidableEq

/-- `hostlist_new`; allocation succeeds. -/
def hostlistNew : Hostlist := ⟨[], hostlistChunk, 0⟩

/-- The number of cells after `hostlist_expand`, which is called when all of them are taken. -/
def Hostlist.expanded (hl : Hostlist) : Nat :=
  if hl.size = hl.hr.length then hl.size + hostlistChunk else hl.size

/-- `hostlist_push_range` -/
def hostlistPushRange (hl : Hostlist) (hr : Hostrange) : Hostlist where
  hr :=
    match hl.hr.getLast?.bind fun tail => tail.extend hr with
    | some joined => hl.hr.dropLast ++ [joined]
    | none => hl.hr ++ [hr]
  size := hl.expanded
  nhosts := toInt (hl.nhosts + (hostrangeCount hr).toNat)

/-- One round of the loop of `hostlist_push_list`, which adds up what `hostlist_push_range`
returns. -/
def pushNext (done : Int × Hostlist) (hr : Hostrange) : Int × Hostlist :=
  let hl := hostlistPushRange done.2 hr
  (toInt (done.1 + hl.nhosts), hl)

/-- `hostlist_push_list`: what it returns, and the list that is pushed to. -/
def hostlistPushList (h1 h2 : Hostlist) : Int × Hostlist := h2.hr.foldl pushNext (0, h1)

/-- `hostlist_insert_range`, at a place that is not behind the ranges. -/
def hostlistInsertRange (hl : Hostlist) (hr : Hostrange) (n : Nat) : Hostlist :=
  { hl with hr := hl.hr.insertIdx n hr, size := hl.expanded }

/-- `hostlist_delete_range` -/
def hostlistDeleteRange (hl : Hostlist) (n : Nat) : Hostlist := { hl with hr := hl.hr.eraseIdx n }

/-- `hostlist_count` -/
def hostlistCount (hl : Hostlist) : Int := hl.nhosts

/-- A host as `snprintf` prints it into a buffer of some size. -/
def printHost (hr : Hostrange) (num : UInt64) (size : Nat) : List Char :=
  (hr.pfx ++ zeroPadded hr.width num.toNat).take (size - 1)

/-- `hostrange_pop`: the host, if there is one, and the range. -/
def hostrangePop (hr : Hostrange) : Option (List Char) × Hostrange :=
  if hr.singlehost then (some hr.pfx, { hr with lo := hr.lo + 1 })
  else if 0 < hostrangeCount hr then
    (some (printHost hr hr.hi (hr.pfx.length + hr.width + 16)), { hr with hi := hr.hi - 1 })
  else (none, hr)

/-- `hostrange_shift` -/
def hostrangeShift (hr : Hostrange) : Option (List Char) × Hostrange :=
  if hr.singlehost then (some hr.pfx, { hr with lo := hr.lo + 1 })
  else if 0 < hostrangeCount hr then
    (some (printHost hr hr.lo (hr.pfx.length + hr.width + 16)), { hr with lo := hr.lo + 1 })
  else (none, hr)

/-- `hostlist_pop` -/
def hostlistPop (hl : Hostlist) : Option (List Char) × Hostlist :=
  if 0 < hl.nhosts then
    match hl.hr.getLast? with
    | none => (none, hl)
    | some hr =>
      let (host, hr) := hostrangePop hr
      (host, { hl with
        hr := if hostrangeEmpty hr then hl.hr.dropLast else hl.hr.dropLast ++ [hr]
        nhosts := hl.nhosts - 1 })
  else (none, hl)

/-- `hostlist_shift`, of a list without iterators. -/
def hostlistShift (hl : Hostlist) : Option (List Char) × Hostlist :=
  if 0 < hl.nhosts then
    match hl.hr with
    | [] => (none, hl)
    | hr :: later =>
      let (host, hr) := hostrangeShift hr
      (host, { hl with
        hr := if hostrangeEmpty hr then later else hr :: later
        nhosts := hl.nhosts - 1 })
  else (none, hl)

/-- `MAXHOSTNAMELEN` -/
def maxhostnamelen : Nat := 64

/-- `_hostrange_string`; the prefix fits the buffer. -/
def hostrangeString (hr : Hostrange) (depth : Nat) : List Char :=
  if hr.singlehost then hr.pfx.take (maxhostnamelen + 14)
  else printHost hr (hr.lo + UInt64.ofNat depth) (maxhostnamelen + 15)

/-- The loop of `hostlist_nth`, from the ranges with some hosts before them on. -/
def nthLoop : List Hostrange → (n count : Int) → Option (List Char)
  | [], _, _ => none
  | hr :: later, n, count =>
    let numInRange := toInt (hostrangeCount hr).toNat
    if n ≤ numInRange - 1 + count then some (hostrangeString hr (n - count).toNat)
    else nthLoop later n (count + numInRange)

/-- `hostlist_nth` -/
def hostlistNth (hl : Hostlist) (n : Int) : Option (List Char) := nthLoop hl.hr n 0

/-- `hostrange_delete_host`: the range, and the greater one when it is split. -/
def hostrangeDeleteHost (hr : Hostrange) (n : UInt64) : Hostrange × Option Hostrange :=
  if n = hr.lo then ({ hr with lo := hr.lo + 1 }, none)
  else if n = hr.hi then ({ hr with hi := hr.hi - 1 }, none)
  else ({ hr with hi := n - 1 }, some { hr with lo := n + 1 })

/-- What `hostlist_delete_nth` does with the range at an index when the host is in it. -/
def deleteFrom (hl : Hostlist) (i : Nat) (hr : Hostrange) (num : UInt64) : Hostlist :=
  if hr.singlehost then hostlistDeleteRange hl i
  else
    match hostrangeDeleteHost hr num with
    | (hr, some new) => hostlistInsertRange { hl with hr := hl.hr.set i hr } new (i + 1)
    | (hr, none) =>
      if hostrangeEmpty hr then hostlistDeleteRange hl i else { hl with hr := hl.hr.set i hr }

/-- The loop of `hostlist_delete_nth`, from the range at an index on. -/
def deleteNthLoop (hl : Hostlist) : List Hostrange → (i : Nat) → (n count : Int) → Hostlist
  | [], _, _, _ => hl
  | hr :: later, i, n, count =>
    let numInRange := toInt (hostrangeCount hr).toNat
    if n ≤ numInRange - 1 + count then
      deleteFrom hl i hr (hr.lo + UInt64.ofNat (n - count).toNat)
    else deleteNthLoop hl later (i + 1) n (count + numInRange)

/-- `hostlist_delete_nth`, of a list without iterators. -/
def hostlistDeleteNth (hl : Hostlist) (n : Int) : Hostlist :=
  let hl := deleteNthLoop hl hl.hr 0 n 0
  { hl with nhosts := hl.nhosts - 1 }

/-! ## Lists of names -/

/-- A range whose names fit the buffers they are printed into. -/
structure Hostrange.Fits (hr : Hostrange) : Prop where
  proper : hr.Proper
  pfx : hr.pfx.length ≤ maxhostnamelen
  width : hr.width ≤ 14
  hi : hr.hi.toNat < 10 ^ 14

/-- The hosts of a list, in order. -/
def Hostlist.hosts (hl : Hostlist) : List (List Char) := Blocks.all Hostrange.hosts hl.hr

/-- A list whose ranges have hosts with names that fit, whose array has cells and room for them, and
that counts its hosts. -/
structure Hostlist.Sound (hl : Hostlist) : Prop where
  ranges : ∀ hr ∈ hl.hr, hr.Fits
  cells : 0 < hl.size
  room : hl.hr.length ≤ hl.size
  count : hl.nhosts = hl.hosts.length
  few : (hl.hosts.length : Int) ≤ intMax

/-- The number at a place of a range. -/
theorem toNat_place {lo hi : UInt64} {place : Nat} (inside : place < hi.toNat + 1 - lo.toNat) :
    (lo + UInt64.ofNat place).toNat = lo.toNat + place := by
  have bound := hi.toNat_lt
  rw [UInt64.toNat_add, UInt64.toNat_ofNat']
  omega

/-- A number that is not too large is printed with a few digits. -/
theorem length_zeroPadded_le {width n : Nat} (narrow : width ≤ 14) (small : n < 10 ^ 14) :
    (zeroPadded width n).length ≤ 14 := by
  have digits := (Nat.length_toDigits_le_iff (by decide) (by decide)).mpr small
  rw [zeroPadded, List.length_append, List.length_replicate]
  omega

/-- A name that fits its buffer is printed whole. -/
theorem printHost_of_fits {hr : Hostrange} {num : UInt64} {size : Nat} (narrow : hr.width ≤ 14)
    (small : num.toNat < 10 ^ 14) (room : hr.pfx.length + 15 ≤ size) :
    printHost hr num size = hr.pfx ++ zeroPadded hr.width num.toNat := by
  have short := length_zeroPadded_le narrow small
  refine List.take_of_length_le ?_
  rw [List.length_append]
  omega

/-- The name at a place of a range. -/
theorem hostrangeString_eq {hr : Hostrange} (fits : hr.Fits) {place : Nat}
    (inside : place < hr.hosts.length) : some (hostrangeString hr place) = hr.hosts[place]? := by
  obtain ⟨proper, short, narrow, small⟩ := fits
  cases proper with
  | single pfx =>
    obtain rfl : place = 0 := Nat.lt_one_iff.mp inside
    have whole : pfx.take (maxhostnamelen + 14) = pfx :=
      List.take_of_length_le (Nat.le_trans short (Nat.le_add_right _ _))
    exact congrArg some whole
  | @numbers pfx lo hi width order below =>
    have inside : place < hi.toNat + 1 - lo.toNat := by
      rwa [hosts_hostrangeCreate, length_namesBetween] at inside
    have num := toNat_place inside
    have small : hi.toNat < 10 ^ 14 := small
    show some (printHost (hostrangeCreate pfx lo hi width) (lo + UInt64.ofNat place) _) = _
    rw [hosts_hostrangeCreate, getElem?_namesBetween pfx width inside, ← num,
      printHost_of_fits narrow (by omega) (Nat.add_le_add_right short 15)]
    rfl

/-- The hosts of a range that are counted as an `int`. -/
theorem Hostrange.Fits.numInRange {hr : Hostrange} (fits : hr.Fits)
    (few : (hr.hosts.length : Int) ≤ intMax) :
    toInt (hostrangeCount hr).toNat = hr.hosts.length := by
  rw [fits.proper.count]
  exact toInt_of_range (by omega) few

/-- Counting through the ranges finds the host at a place. -/
theorem nthLoop_eq {ranges : List Hostrange} (fits : ∀ hr ∈ ranges, hr.Fits)
    (few : ((Blocks.all Hostrange.hosts ranges).length : Int) ≤ intMax) {n count : Int}
    (counted : count ≤ n) :
    nthLoop ranges n count = (Blocks.locate Hostrange.hosts ranges (n - count).toNat).map
      fun spot => hostrangeString spot.block spot.place := by
  induction ranges generalizing count with
  | nil => rfl
  | cons hr later ih =>
    rw [Blocks.all_cons, List.length_append] at few
    have here : toInt (hostrangeCount hr).toNat = hr.hosts.length :=
      (fits hr List.mem_cons_self).numInRange (by omega)
    rw [nthLoop, Blocks.locate, here]
    by_cases inside : (n - count).toNat < hr.hosts.length
    · rw [if_pos (by omega), if_pos inside]
      rfl
    · have rest : (n - (count + hr.hosts.length)).toNat = (n - count).toNat - hr.hosts.length := by
        omega
      rw [if_neg (by omega), if_neg inside,
        ih (fun other member => fits other (List.mem_cons_of_mem _ member)) (by omega) (by omega),
        Option.map_map, rest]
      rfl

/-- A place in the list is found, and its name is the one of the list of names. -/
theorem hostlistNth_eq {hl : Hostlist} (sound : hl.Sound) {n : Int} (low : 0 ≤ n) :
    hostlistNth hl n = hl.hosts[n.toNat]? := by
  rw [hostlistNth, nthLoop_eq sound.ranges sound.few low, Int.sub_zero]
  by_cases inside : n.toNat < hl.hosts.length
  · obtain ⟨spot, located⟩ := Blocks.locate_of_lt inside
    obtain ⟨split, place, -⟩ := Blocks.locate_spec located
    have member : spot.block ∈ hl.hr := by
      rw [split]
      exact List.mem_append_right _ List.mem_cons_self
    rw [located, Hostlist.hosts, Blocks.getElem?_all located]
    exact hostrangeString_eq (sound.ranges _ member) place
  · rw [List.getElem?_eq_none (Nat.not_lt.mp inside)]
    cases located : Blocks.locate Hostrange.hosts hl.hr n.toNat with
    | none => rfl
    | some spot =>
      obtain ⟨split, place, sum⟩ := Blocks.locate_spec located
      have total : hl.hosts.length = (Blocks.all Hostrange.hosts spot.before).length +
          (spot.block.hosts.length + (Blocks.all Hostrange.hosts spot.after).length) := by
        rw [Hostlist.hosts, split, Blocks.all_append, Blocks.all_cons, List.length_append,
          List.length_append]
      omega

/-! ## What a range becomes -/

/-- A range that fits goes on fitting when its numbers become fewer. -/
theorem Hostrange.Fits.narrowed {pfx : List Char} {lo hi lo' hi' : UInt64} {width : Nat}
    (fits : (hostrangeCreate pfx lo hi width).Fits) (order : lo'.toNat ≤ hi'.toNat)
    (inside : hi'.toNat ≤ hi.toNat) : (hostrangeCreate pfx lo' hi' width).Fits := by
  have small : hi.toNat < 10 ^ 14 := fits.hi
  have small' : hi'.toNat < 10 ^ 14 := by omega
  exact ⟨.numbers pfx width order (by omega), fits.pfx, fits.width, small'⟩

/-- A number that is not the largest one has a successor. -/
theorem toNat_succ {num : UInt64} (small : num.toNat < 10 ^ 14) :
    (num + 1).toNat = num.toNat + 1 := by
  rw [UInt64.toNat_add]
  show (num.toNat + 1) % 2 ^ 64 = _
  omega

/-- A number that is not zero has a predecessor. -/
theorem toNat_pred {num : UInt64} (positive : 0 < num.toNat) :
    (num - 1).toNat = num.toNat - 1 := toNat_sub positive

/-- Whether a range with numbers in it is taken to be empty. -/
theorem hostrangeEmpty_eq {pfx : List Char} {lo hi : UInt64} {width : Nat}
    (below : hi.toNat + 1 < 2 ^ 64) :
    hostrangeEmpty (hostrangeCreate pfx lo hi width) = decide (hi.toNat < lo.toNat) := by
  have last : hi ≠ -1 := fun last => absurd (last ▸ below) (by decide)
  rw [hostrangeEmpty, hostrangeCreate]
  simp only [last, or_false, UInt64.lt_iff_toNat_lt]

/-- A range of which the last host is taken: no ranges, or one, of the other hosts. -/
def leftOver (hr : Hostrange) : List Hostrange := if hostrangeEmpty hr then [] else [hr]

/-- What is left of a range without its first number is the other numbers. -/
theorem leftOver_shift {pfx : List Char} {lo hi : UInt64} {width : Nat}
    (fits : (hostrangeCreate pfx lo hi width).Fits) (order : lo.toNat ≤ hi.toNat) :
    Blocks.all Hostrange.hosts (leftOver (hostrangeCreate pfx (lo + 1) hi width)) =
        namesBetween pfx width (lo.toNat + 1) (hi.toNat + 1) ∧
      ∀ hr ∈ leftOver (hostrangeCreate pfx (lo + 1) hi width), hr.Fits := by
  have small : hi.toNat < 10 ^ 14 := fits.hi
  have succ : (lo + 1).toNat = lo.toNat + 1 := toNat_succ (by omega)
  rw [leftOver, hostrangeEmpty_eq (by omega), succ]
  by_cases last : hi.toNat < lo.toNat + 1
  · rw [if_pos (decide_eq_true last), namesBetween_nil pfx width (by omega)]
    exact ⟨rfl, fun hr member => absurd member List.not_mem_nil⟩
  · rw [if_neg (by simpa using last)]
    constructor
    · rw [Blocks.all_cons, hosts_hostrangeCreate, succ]
      exact List.append_nil _
    · intro hr member
      rw [List.mem_singleton.mp member]
      exact fits.narrowed (by omega) (Nat.le_refl _)

/-- What is left of a range without its last number is the other numbers. -/
theorem leftOver_pop {pfx : List Char} {lo hi : UInt64} {width : Nat}
    (fits : (hostrangeCreate pfx lo hi width).Fits) (order : lo.toNat ≤ hi.toNat) :
    Blocks.all Hostrange.hosts (leftOver (hostrangeCreate pfx lo (hi - 1) width)) =
        namesBetween pfx width lo.toNat hi.toNat ∧
      ∀ hr ∈ leftOver (hostrangeCreate pfx lo (hi - 1) width), hr.Fits := by
  by_cases zero : hi.toNat = 0
  · have word : hi = 0 := UInt64.toNat_inj.mp zero
    subst word
    have last : hostrangeEmpty (hostrangeCreate pfx lo (0 - 1) width) = true :=
      decide_eq_true (.inr (show (0 : UInt64) - 1 = -1 by decide))
    rw [leftOver, if_pos last, namesBetween_nil pfx width (by omega)]
    exact ⟨rfl, fun hr member => absurd member List.not_mem_nil⟩
  · have pred : (hi - 1).toNat = hi.toNat - 1 := toNat_pred (by omega)
    have small : hi.toNat < 10 ^ 14 := fits.hi
    rw [leftOver, hostrangeEmpty_eq (by omega), pred]
    by_cases last : hi.toNat - 1 < lo.toNat
    · rw [if_pos (decide_eq_true last), namesBetween_nil pfx width (by omega)]
      exact ⟨rfl, fun hr member => absurd member List.not_mem_nil⟩
    · rw [if_neg (by simpa using last)]
      constructor
      · rw [Blocks.all_cons, hosts_hostrangeCreate, pred, Nat.sub_add_cancel (by omega)]
        exact List.append_nil _
      · intro hr member
        rw [List.mem_singleton.mp member]
        exact fits.narrowed (by omega) (by omega)

/-- What is left is one range at most. -/
theorem length_leftOver_le (hr : Hostrange) : (leftOver hr).length ≤ 1 := by
  rw [leftOver]
  split
  · exact Nat.zero_le 1
  · exact Nat.le_refl 1

/-- A range hands out its last host, and the others are left. -/
theorem hostrangePop_spec {hr : Hostrange} (fits : hr.Fits) :
    ∃ front name, hr.hosts = front ++ [name] ∧ (hostrangePop hr).1 = some name ∧
      Blocks.all Hostrange.hosts (leftOver (hostrangePop hr).2) = front ∧
      ∀ left ∈ leftOver (hostrangePop hr).2, left.Fits := by
  cases fits.proper with
  | single pfx =>
    exact ⟨[], pfx, rfl, rfl, rfl, fun left member => absurd member List.not_mem_nil⟩
  | @numbers pfx lo hi width order below =>
    have some : 0 < hostrangeCount (hostrangeCreate pfx lo hi width) := by
      rw [UInt64.lt_iff_toNat_lt, fits.proper.count]
      exact fits.proper.hosts_pos
    have popped : hostrangePop (hostrangeCreate pfx lo hi width) =
        (.some (printHost (hostrangeCreate pfx lo hi width) hi (pfx.length + width + 16)),
          hostrangeCreate pfx lo (hi - 1) width) := (if_neg Bool.false_ne_true).trans (if_pos some)
    have last : namesBetween pfx width hi.toNat (hi.toNat + 1) =
        [pfx ++ zeroPadded width hi.toNat] := by
      rw [namesBetween_cons pfx width (Nat.lt_succ_self _), namesBetween_nil _ _ (Nat.le_refl _)]
    refine ⟨namesBetween pfx width lo.toNat hi.toNat, pfx ++ zeroPadded width hi.toNat, ?_, ?_, ?_⟩
    · rw [hosts_hostrangeCreate, namesBetween_append pfx width order (Nat.le_succ _), last]
    · have whole : printHost (hostrangeCreate pfx lo hi width) hi (pfx.length + width + 16) =
          pfx ++ zeroPadded width hi.toNat :=
        printHost_of_fits fits.width fits.hi (by dsimp only [hostrangeCreate]; omega)
      rw [popped, whole]
    · rw [popped]
      exact leftOver_pop fits order

/-- A range hands out its first host, and the others are left. -/
theorem hostrangeShift_spec {hr : Hostrange} (fits : hr.Fits) :
    ∃ name back, hr.hosts = name :: back ∧ (hostrangeShift hr).1 = some name ∧
      Blocks.all Hostrange.hosts (leftOver (hostrangeShift hr).2) = back ∧
      ∀ left ∈ leftOver (hostrangeShift hr).2, left.Fits := by
  cases fits.proper with
  | single pfx =>
    exact ⟨pfx, [], rfl, rfl, rfl, fun left member => absurd member List.not_mem_nil⟩
  | @numbers pfx lo hi width order below =>
    have small : hi.toNat < 10 ^ 14 := fits.hi
    have some : 0 < hostrangeCount (hostrangeCreate pfx lo hi width) := by
      rw [UInt64.lt_iff_toNat_lt, fits.proper.count]
      exact fits.proper.hosts_pos
    have shifted : hostrangeShift (hostrangeCreate pfx lo hi width) =
        (.some (printHost (hostrangeCreate pfx lo hi width) lo (pfx.length + width + 16)),
          hostrangeCreate pfx (lo + 1) hi width) := (if_neg Bool.false_ne_true).trans (if_pos some)
    refine ⟨pfx ++ zeroPadded width lo.toNat, namesBetween pfx width (lo.toNat + 1) (hi.toNat + 1),
      ?_, ?_, ?_⟩
    · rw [hosts_hostrangeCreate, namesBetween_cons pfx width (by omega)]
    · have whole : printHost (hostrangeCreate pfx lo hi width) lo (pfx.length + width + 16) =
          pfx ++ zeroPadded width lo.toNat :=
        printHost_of_fits fits.width (by omega) (by dsimp only [hostrangeCreate]; omega)
      rw [shifted, whole]
    · rw [shifted]
      exact leftOver_shift fits order

/-! ## Operations -/

/-- A list with as many hosts as it counts goes on being sound with other ranges. -/
theorem Hostlist.Sound.of_hosts {hl : Hostlist} {hosts : List (List Char)}
    (stands : hl.hosts = hosts) (ranges : ∀ hr ∈ hl.hr, hr.Fits)
    (array : 0 < hl.size ∧ hl.hr.length ≤ hl.size) (count : hl.nhosts = hosts.length)
    (few : (hosts.length : Int) ≤ intMax) : hl.hosts = hosts ∧ hl.Sound := by
  subst stands
  exact ⟨rfl, ranges, array.1, array.2, count, few⟩

/-- There is room for another range in a list that is expanded when it is full. -/
theorem Hostlist.expanded_room (hl : Hostlist) (room : hl.hr.length ≤ hl.size) :
    hl.hr.length + 1 ≤ hl.expanded := by
  rw [Hostlist.expanded, hostlistChunk]
  split <;> omega

/-- An array does not lose cells when it is expanded. -/
theorem Hostlist.size_le_expanded (hl : Hostlist) : hl.size ≤ hl.expanded := by
  rw [Hostlist.expanded, hostlistChunk]
  split
  · exact Nat.le_add_right _ _
  · exact Nat.le_refl _

/-- A range that another one extends fits when both do. -/
theorem Hostrange.extend_fits {tail hr joined : Hostrange} (first : tail.Fits) (second : hr.Fits)
    (extended : tail.extend hr = some joined) : joined.Fits := by
  have proper := (extend_hosts first.proper second.proper extended).2
  rw [extend] at extended
  split at extended
  · obtain ⟨width, combined, rfl⟩ := Option.map_eq_some_iff.mp extended
    refine ⟨proper, first.pfx, ?_, second.hi⟩
    rcases widthEquiv_width combined with same | same
    · exact same ▸ first.width
    · exact same ▸ second.width
  · cases extended

/-- A range that is pushed puts its hosts behind the others; what holds of all ranges, and of those
that extend each other, goes on holding. -/
theorem hostlistPushRange_hosts {holds : Hostrange → Prop} (proper : ∀ hr, holds hr → hr.Proper)
    (extending : ∀ tail hr joined, holds tail → holds hr → tail.extend hr = some joined →
      holds joined) {hl : Hostlist} (ranges : ∀ hr ∈ hl.hr, holds hr) {hr : Hostrange}
    (new : holds hr) :
    (hostlistPushRange hl hr).hosts = hl.hosts ++ hr.hosts ∧
      ∀ other ∈ (hostlistPushRange hl hr).hr, holds other := by
  cases met : hl.hr.getLast?.bind fun tail => tail.extend hr with
  | none =>
    have pushed : (hostlistPushRange hl hr).hr = hl.hr ++ [hr] := by
      rw [hostlistPushRange, met]
    constructor
    · rw [Hostlist.hosts, pushed, Blocks.all_append, Blocks.all_cons]
      exact congrArg _ (List.append_nil _)
    · intro other member
      rw [pushed] at member
      rcases List.mem_append.mp member with old | last
      · exact ranges other old
      · exact List.mem_singleton.mp last ▸ new
  | some joined =>
    obtain ⟨tail, last, extended⟩ := Option.bind_eq_some_iff.mp met
    have pushed : (hostlistPushRange hl hr).hr = hl.hr.dropLast ++ [joined] := by
      rw [hostlistPushRange, met]
    have split : hl.hr.dropLast ++ [tail] = hl.hr := List.dropLast_append_getLast? tail last
    have holdsTail : holds tail := by
      refine ranges tail ?_
      rw [← split]
      exact List.mem_append_right _ (List.mem_singleton.mpr rfl)
    obtain ⟨hosts, -⟩ :=
      Hostrange.extend_hosts (proper tail holdsTail) (proper hr new) extended
    constructor
    · rw [Hostlist.hosts, Hostlist.hosts, pushed, ← split, Blocks.all_append, Blocks.all_append,
        List.dropLast_concat]
      simp [hosts]
    · intro other member
      rw [pushed] at member
      rcases List.mem_append.mp member with old | joins
      · exact ranges other (List.dropLast_subset _ old)
      · exact List.mem_singleton.mp joins ▸ extending tail hr joined holdsTail new extended

/-- There is room for the ranges when one has been pushed. -/
theorem hostlistPushRange_room {hl : Hostlist} (hr : Hostrange) (room : hl.hr.length ≤ hl.size) :
    (hostlistPushRange hl hr).hr.length ≤ (hostlistPushRange hl hr).size := by
  refine Nat.le_trans ?_ (hl.expanded_room room)
  rw [hostlistPushRange]
  dsimp only
  split
  · rw [List.length_append, List.length_dropLast, List.length_singleton]
    omega
  · rw [List.length_append, List.length_singleton]

/-- A range that fits is pushed. -/
theorem hostlistPushRange_spec {hl : Hostlist} (sound : hl.Sound) {hr : Hostrange} (fits : hr.Fits)
    (few : (hl.hosts.length + hr.hosts.length : Int) ≤ intMax) :
    (hostlistPushRange hl hr).hosts = hl.hosts ++ hr.hosts ∧ (hostlistPushRange hl hr).Sound := by
  have cells := Nat.lt_of_lt_of_le sound.cells hl.size_le_expanded
  have count : toInt (hl.nhosts + (hostrangeCount hr).toNat) =
      (hl.hosts ++ hr.hosts).length := by
    rw [sound.count, fits.proper.count, List.length_append, toInt_of_range (by omega) few]
    rfl
  have few' : ((hl.hosts ++ hr.hosts).length : Int) ≤ intMax := by
    rw [List.length_append]
    exact few
  obtain ⟨hosts, ranges⟩ := hostlistPushRange_hosts (fun hr (fits : hr.Fits) => fits.proper)
    (fun _ _ _ => Hostrange.extend_fits) sound.ranges fits
  exact Hostlist.Sound.of_hosts hosts ranges ⟨cells, hostlistPushRange_room hr sound.room⟩ count
    few'

/-- The numbers of names that a list comes to hold as more and more come, added up. -/
def heldTotal (held : Nat) : (coming : List Nat) → Nat
  | [] => 0
  | new :: later => held + new + heldTotal (held + new) later

/-- Lists are put together, and the numbers of hosts on the way are added up. -/
theorem hostlistPushList_spec {h1 : Hostlist} (sound : h1.Sound) {h2 : Hostlist} (other : h2.Sound)
    (few : (h1.hosts.length + h2.hosts.length : Int) ≤ intMax) :
    (hostlistPushList h1 h2).1 =
        toInt (heldTotal h1.hosts.length (h2.hr.map fun hr => hr.hosts.length)) ∧
      (hostlistPushList h1 h2).2.hosts = h1.hosts ++ h2.hosts ∧
      (hostlistPushList h1 h2).2.Sound := by
  have pushed : ∀ (ranges : List Hostrange) (total : Int) (hl : Hostlist), hl.Sound →
      (∀ hr ∈ ranges, hr.Fits) →
      (hl.hosts.length + (Blocks.all Hostrange.hosts ranges).length : Int) ≤ intMax →
      (ranges.foldl pushNext (toInt total, hl)).1 =
          toInt (total + heldTotal hl.hosts.length (ranges.map fun hr => hr.hosts.length)) ∧
        (ranges.foldl pushNext (toInt total, hl)).2.hosts =
          hl.hosts ++ Blocks.all Hostrange.hosts ranges ∧
        (ranges.foldl pushNext (toInt total, hl)).2.Sound := by
    intro ranges
    induction ranges with
    | nil =>
      intro total hl sound _ _
      exact ⟨congrArg toInt (Int.add_zero total).symm, (List.append_nil _).symm, sound⟩
    | cons hr later ih =>
      intro total hl sound fits few
      rw [Blocks.all_cons, List.length_append] at few
      obtain ⟨hosts, next⟩ := hostlistPushRange_spec sound (fits hr List.mem_cons_self) (by omega)
      have held : (hostlistPushRange hl hr).hosts.length = hl.hosts.length + hr.hosts.length := by
        rw [hosts, List.length_append]
      have round : pushNext (toInt total, hl) hr =
          (toInt (total + (hl.hosts.length + hr.hosts.length : Nat)), hostlistPushRange hl hr) := by
        rw [pushNext, next.count, held, Int.add_comm, toInt_add_toInt, Int.add_comm]
      have rest := ih (total + (hl.hosts.length + hr.hosts.length : Nat)) (hostlistPushRange hl hr)
        next (fun other member => fits other (List.mem_cons_of_mem _ member))
        (by rw [held]; omega)
      rw [held, hosts, List.append_assoc, Int.add_assoc] at rest
      rw [List.foldl_cons, round]
      exact rest
  have all := pushed h2.hr 0 h1 sound other.ranges few
  rw [Int.zero_add] at all
  exact all

/-- A list hands out its last host, if there is one. -/
theorem hostlistPop_spec {hl : Hostlist} (sound : hl.Sound) :
    (hostlistPop hl).1 = hl.hosts.getLast? ∧ (hostlistPop hl).2.hosts = hl.hosts.dropLast ∧
      (hostlistPop hl).2.Sound := by
  rcases List.eq_nil_or_concat hl.hr with none | ⟨before, hr, split⟩
  · have empty : hl.hosts = [] := by rw [Hostlist.hosts, none, Blocks.all_nil]
    have stays : hostlistPop hl = (.none, hl) := by
      rw [hostlistPop, sound.count, empty]
      rfl
    rw [stays, empty]
    exact ⟨rfl, rfl, sound⟩
  · have fits : hr.Fits := sound.ranges hr (by rw [split]; simp)
    obtain ⟨front, name, hosts, handed, left, fit⟩ := hostrangePop_spec fits
    have all : hl.hosts = Blocks.all Hostrange.hosts before ++ front ++ [name] := by
      rw [Hostlist.hosts, split, List.concat_eq_append, Blocks.all_append, Blocks.all_cons, hosts]
      simp
    have some : 0 < hl.nhosts := by
      rw [sound.count, all, List.length_append]
      exact Int.natCast_pos.mpr (Nat.succ_pos _)
    have last : hl.hr.getLast? = .some hr := by rw [split]; simp
    have front' : hl.hr.dropLast = before := by rw [split]; simp
    have popped : hostlistPop hl = (.some name, { hl with
        hr := before ++ leftOver (hostrangePop hr).2, nhosts := hl.nhosts - 1 }) := by
      rw [hostlistPop, if_pos some, last]
      dsimp only
      rw [handed, front', leftOver]
      split
      · rw [List.append_nil]
      · rfl
    have few := sound.few
    have count := sound.count
    rw [popped, all, List.getLast?_concat, List.dropLast_concat]
    rw [all, List.length_append] at few count
    refine ⟨rfl, Hostlist.Sound.of_hosts ?_ ?_ ?_ ?_ ?_⟩
    · rw [Hostlist.hosts, Blocks.all_append, left]
    · intro other member
      rcases List.mem_append.mp member with old | new
      · exact sound.ranges other (by rw [split]; simp [old])
      · exact fit other new
    · have one := length_leftOver_le (hostrangePop hr).2
      have room := sound.room
      rw [split, List.length_concat] at room
      refine ⟨sound.cells, ?_⟩
      show (before ++ leftOver (hostrangePop hr).2).length ≤ hl.size
      rw [List.length_append]
      omega
    · show hl.nhosts - 1 = _
      rw [count, List.length_singleton, Nat.cast_succ, Int.add_sub_cancel]
    · rw [List.length_singleton] at few
      omega

/-- A list hands out its first host, if there is one. -/
theorem hostlistShift_spec {hl : Hostlist} (sound : hl.Sound) :
    (hostlistShift hl).1 = hl.hosts.head? ∧ (hostlistShift hl).2.hosts = hl.hosts.tail ∧
      (hostlistShift hl).2.Sound := by
  cases split : hl.hr with
  | nil =>
    have empty : hl.hosts = [] := by rw [Hostlist.hosts, split, Blocks.all_nil]
    have stays : hostlistShift hl = (.none, hl) := by
      rw [hostlistShift, sound.count, empty]
      rfl
    rw [stays, empty]
    exact ⟨rfl, rfl, sound⟩
  | cons hr later =>
    have fits : hr.Fits := sound.ranges hr (by rw [split]; exact List.mem_cons_self)
    obtain ⟨name, back, hosts, handed, left, fit⟩ := hostrangeShift_spec fits
    have all : hl.hosts = name :: (back ++ Blocks.all Hostrange.hosts later) := by
      rw [Hostlist.hosts, split, Blocks.all_cons, hosts]
      rfl
    have some : 0 < hl.nhosts := by
      rw [sound.count, all, List.length_cons]
      exact Int.natCast_pos.mpr (Nat.succ_pos _)
    have shifted : hostlistShift hl = (.some name, { hl with
        hr := leftOver (hostrangeShift hr).2 ++ later, nhosts := hl.nhosts - 1 }) := by
      rw [hostlistShift, if_pos some, split]
      dsimp only
      rw [handed, leftOver]
      split <;> rfl
    have few := sound.few
    have count := sound.count
    rw [shifted, all]
    rw [all, List.length_cons] at few count
    refine ⟨rfl, Hostlist.Sound.of_hosts ?_ ?_ ?_ ?_ ?_⟩
    · rw [Hostlist.hosts, Blocks.all_append, left]
      rfl
    · intro other member
      rcases List.mem_append.mp member with new | old
      · exact fit other new
      · exact sound.ranges other (by rw [split]; exact List.mem_cons_of_mem _ old)
    · have one := length_leftOver_le (hostrangeShift hr).2
      have room := sound.room
      rw [split, List.length_cons] at room
      refine ⟨sound.cells, ?_⟩
      show (leftOver (hostrangeShift hr).2 ++ later).length ≤ hl.size
      rw [List.length_append]
      omega
    · show hl.nhosts - 1 = _
      rw [count, Nat.cast_succ, Int.add_sub_cancel, List.tail_cons]
    · rw [List.tail_cons]
      omega

/-- Names without the one at a place are those on both sides of it. -/
theorem namesBetween_eraseIdx (pfx : List Char) (width : Nat) {first next place : Nat}
    (inside : place < next - first) :
    (namesBetween pfx width first next).eraseIdx place =
      namesBetween pfx width first (first + place) ++
        namesBetween pfx width (first + place + 1) next := by
  have front : (namesBetween pfx width first (first + place)).length = place := by
    rw [length_namesBetween, Nat.add_sub_cancel_left]
  have behind := namesBetween_cons pfx width (show first + place < next by omega)
  rw [namesBetween_append pfx width (Nat.le_add_right first place) (by omega),
    List.eraseIdx_append_of_length_le (Nat.le_of_eq front), front, Nat.sub_self, behind]
  rfl

/-- What is inserted behind an element comes right after it. -/
theorem insertIdx_behind {α : Type} (before : List α) (item new : α) (later : List α) :
    (before ++ item :: later).insertIdx (before.length + 1) new =
      before ++ item :: new :: later := by
  induction before with
  | nil => rfl
  | cons first before ih => exact congrArg (first :: ·) ih

/-- What `hostlist_delete_nth` puts in the place of a range. -/
theorem deleteFrom_spec {hl : Hostlist} {before later : List Hostrange} {hr : Hostrange}
    (split : hl.hr = before ++ hr :: later) (fits : hr.Fits) {place : Nat}
    (inside : place < hr.hosts.length) :
    ∃ pieces size, deleteFrom hl before.length hr (hr.lo + UInt64.ofNat place) =
        { hl with hr := before ++ (pieces ++ later), size } ∧
      Blocks.all Hostrange.hosts pieces = hr.hosts.eraseIdx place ∧
      (∀ piece ∈ pieces, piece.Fits) ∧
      (hl.hr.length ≤ hl.size →
        hl.size ≤ size ∧ (before ++ (pieces ++ later)).length ≤ size) := by
  have dropped : hl.hr.eraseIdx before.length = before ++ later := by
    rw [split, List.eraseIdx_append_of_length_le (Nat.le_refl _), Nat.sub_self]
    rfl
  have changed : ∀ new, hl.hr.set before.length new = before ++ new :: later := by
    intro new
    rw [split, List.set_append_right _ _ (Nat.le_refl _), Nat.sub_self]
    rfl
  have total : hl.hr.length = before.length + (later.length + 1) := by
    rw [split, List.length_append, List.length_cons]
  cases fits.proper with
  | single pfx =>
    obtain rfl : place = 0 := Nat.lt_one_iff.mp inside
    refine ⟨[], hl.size, ?_, rfl, fun piece member => absurd member List.not_mem_nil, ?_⟩
    · rw [List.nil_append, ← dropped]
      rfl
    · rw [List.nil_append, List.length_append]
      exact fun room => ⟨Nat.le_refl _, by omega⟩
  | @numbers pfx lo hi width order below =>
    rw [hosts_hostrangeCreate, length_namesBetween] at inside
    have numbers : ¬(hostrangeCreate pfx lo hi width).singlehost = true := Bool.false_ne_true
    have num := toNat_place inside
    have erased := namesBetween_eraseIdx pfx width inside
    have small : hi.toNat < 10 ^ 14 := fits.hi
    -- A range that is not split: what it becomes is put back, or nothing is.
    have kept : ∀ left, hostrangeDeleteHost (hostrangeCreate pfx lo hi width)
          (lo + UInt64.ofNat place) = (left, none) →
        deleteFrom hl before.length (hostrangeCreate pfx lo hi width) (lo + UInt64.ofNat place) =
          { hl with hr := before ++ (leftOver left ++ later) } := by
      intro left deleted
      rw [deleteFrom, if_neg numbers, deleted]
      dsimp only
      rw [leftOver, hostlistDeleteRange, dropped, changed]
      split <;> rfl
    have keptRoom : ∀ left, hl.hr.length ≤ hl.size →
        hl.size ≤ hl.size ∧ (before ++ (leftOver left ++ later)).length ≤ hl.size := by
      intro left room
      have one := length_leftOver_le left
      rw [List.length_append, List.length_append]
      exact ⟨Nat.le_refl _, by omega⟩
    rw [hosts_hostrangeCreate, erased]
    by_cases first : place = 0
    · subst first
      have same : lo + UInt64.ofNat 0 = lo := UInt64.add_zero lo
      obtain ⟨hosts, fit⟩ := leftOver_shift fits order
      refine ⟨leftOver (hostrangeCreate pfx (lo + 1) hi width), hl.size, kept _ ?_, ?_, fit,
        keptRoom _⟩
      · rw [same]
        exact if_pos rfl
      · rw [hosts, namesBetween_nil pfx width (Nat.le_of_eq (Nat.add_zero lo.toNat))]
        rfl
    · have notFirst : lo + UInt64.ofNat place ≠ lo := by
        rw [← UInt64.toNat_inj.ne, num]
        omega
      by_cases final : lo.toNat + place = hi.toNat
      · have same : lo + UInt64.ofNat place = hi := UInt64.toNat_inj.mp (num.trans final)
        obtain ⟨hosts, fit⟩ := leftOver_pop fits order
        refine ⟨leftOver (hostrangeCreate pfx lo (hi - 1) width), hl.size, kept _ ?_, ?_, fit,
          keptRoom _⟩
        · exact (if_neg notFirst).trans (if_pos same)
        · rw [hosts, final, namesBetween_nil pfx width (Nat.le_refl (hi.toNat + 1)),
            List.append_nil]
      · have notLast : lo + UInt64.ofNat place ≠ hi := by
          rw [← UInt64.toNat_inj.ne, num]
          exact final
        have low : (lo + UInt64.ofNat place - 1).toNat = lo.toNat + place - 1 := by
          rw [toNat_pred (by omega), num]
        have high : (lo + UInt64.ofNat place + 1).toNat = lo.toNat + place + 1 := by
          rw [toNat_succ (by omega), num]
        have halves : hostrangeDeleteHost (hostrangeCreate pfx lo hi width)
            (lo + UInt64.ofNat place) =
              (hostrangeCreate pfx lo (lo + UInt64.ofNat place - 1) width,
                some (hostrangeCreate pfx (lo + UInt64.ofNat place + 1) hi width)) :=
          (if_neg notFirst).trans (if_neg notLast)
        let lower := hostrangeCreate pfx lo (lo + UInt64.ofNat place - 1) width
        let upper := hostrangeCreate pfx (lo + UInt64.ofNat place + 1) hi width
        let list := { hl with hr := before ++ lower :: later }
        refine ⟨[lower, upper], list.expanded, ?_, ?_, ?_, ?_⟩
        · have inserted := insertIdx_behind before lower upper later
          have start : (hostrangeCreate pfx lo hi width).lo = lo := rfl
          rw [deleteFrom, if_neg numbers, start, halves]
          dsimp only
          rw [hostlistInsertRange, changed, inserted]
          rfl
        · rw [Blocks.all_cons, Blocks.all_cons, hosts_hostrangeCreate, hosts_hostrangeCreate, low,
            high, Nat.sub_add_cancel (by omega)]
          exact congrArg _ (List.append_nil _)
        · intro piece member
          rcases List.mem_cons.mp member with same | member
          · exact same ▸ fits.narrowed (by omega) (by omega)
          · exact List.mem_singleton.mp member ▸ fits.narrowed (by omega) (Nat.le_refl _)
        · intro room
          have length : list.hr.length = hl.hr.length := by
            rw [total, List.length_append, List.length_cons]
          have grown := list.expanded_room (length ▸ room)
          have longer : (before ++ ([lower, upper] ++ later)).length = list.hr.length + 1 := by
            simp [list]
            omega
          exact ⟨list.size_le_expanded, longer ▸ grown⟩

/-- Counting through the ranges finds the host to delete. -/
theorem deleteNthLoop_eq (hl : Hostlist) {ranges : List Hostrange}
    (fits : ∀ hr ∈ ranges, hr.Fits)
    (few : ((Blocks.all Hostrange.hosts ranges).length : Int) ≤ intMax) (i : Nat) {n count : Int}
    (counted : count ≤ n) {spot : Blocks.Spot Hostrange}
    (located : Blocks.locate Hostrange.hosts ranges (n - count).toNat = some spot) :
    deleteNthLoop hl ranges i n count =
      deleteFrom hl (i + spot.before.length) spot.block
        (spot.block.lo + UInt64.ofNat spot.place) := by
  induction ranges generalizing i count spot with
  | nil => cases located
  | cons hr later ih =>
    rw [Blocks.all_cons, List.length_append] at few
    have here : toInt (hostrangeCount hr).toNat = hr.hosts.length :=
      (fits hr List.mem_cons_self).numInRange (by omega)
    rw [Blocks.locate] at located
    rw [deleteNthLoop, here]
    by_cases inside : (n - count).toNat < hr.hosts.length
    · rw [if_pos inside] at located
      cases located
      exact if_pos (by omega)
    · have rest : (n - (count + hr.hosts.length)).toNat = (n - count).toNat - hr.hosts.length := by
        omega
      rw [if_neg inside, ← rest] at located
      obtain ⟨further, found, rfl⟩ := Option.map_eq_some_iff.mp located
      have behind := ih (fun other member => fits other (List.mem_cons_of_mem _ member)) (by omega)
        (i + 1) (by omega) found
      rw [if_neg (by omega), behind, List.length_cons, Nat.add_right_comm, Nat.add_assoc]

/-- A host at a place of the list is deleted. -/
theorem hostlistDeleteNth_spec {hl : Hostlist} (sound : hl.Sound) {n : Int} (low : 0 ≤ n)
    (high : n < hl.hosts.length) :
    (hostlistDeleteNth hl n).hosts = hl.hosts.eraseIdx n.toNat ∧
      (hostlistDeleteNth hl n).Sound := by
  have inside : n.toNat < hl.hosts.length := by omega
  obtain ⟨spot, located⟩ := Blocks.locate_of_lt inside
  obtain ⟨split, place, -⟩ := Blocks.locate_spec located
  have erased := Blocks.eraseIdx_all located
  have start : Blocks.locate Hostrange.hosts hl.hr (n - 0).toNat = some spot := by
    rw [Int.sub_zero]
    exact located
  have fits : spot.block.Fits := sound.ranges _ (split ▸ by simp)
  obtain ⟨pieces, size, deleted, left, fit, room⟩ := deleteFrom_spec split fits place
  have result : hostlistDeleteNth hl n =
      ⟨spot.before ++ (pieces ++ spot.after), size, hl.nhosts - 1⟩ := by
    rw [hostlistDeleteNth, deleteNthLoop_eq hl sound.ranges sound.few 0 low start, Nat.zero_add,
      deleted]
  have few := sound.few
  rw [result]
  have cells := sound.cells
  refine Hostlist.Sound.of_hosts ?_ ?_ ⟨?_, (room sound.room).2⟩ ?_ ?_
  · rw [Hostlist.hosts, Hostlist.hosts, erased, Blocks.all_append, Blocks.all_append, left]
  · intro other member
    rcases List.mem_append.mp member with before | member
    · exact sound.ranges other (split ▸ List.mem_append_left _ before)
    · rcases List.mem_append.mp member with new | after
      · exact fit other new
      · exact sound.ranges other
          (split ▸ List.mem_append_right _ (List.mem_cons_of_mem _ after))
  · show 0 < size
    have grown := (room sound.room).1
    omega
  · show hl.nhosts - 1 = _
    rw [List.length_eraseIdx_of_lt inside, sound.count]
    omega
  · rw [List.length_eraseIdx_of_lt inside]
    omega

/-! ## Runs -/

/-- What is asked of a list. -/
inductive Request where
  /-- `hostlist_push_range` -/
  | push (hr : Hostrange)
  /-- `hostlist_push_list` -/
  | pushList (other : Hostlist)
  /-- `hostlist_pop` -/
  | pop
  /-- `hostlist_shift` -/
  | shift
  /-- `hostlist_nth` -/
  | nth (n : Int)
  /-- `hostlist_delete_nth` -/
  | deleteNth (n : Int)
  /-- `hostlist_count` -/
  | count

/-- What a list answers. -/
inductive Answer where
  | host (name : Option (List Char))
  | number (n : Int)
  deriving DecidableEq

/-- What a list answers, and what becomes of it. -/
def Hostlist.serve (hl : Hostlist) : Request → Answer × Hostlist
  | .push hr => (.number (hostlistPushRange hl hr).nhosts, hostlistPushRange hl hr)
  | .pushList other => (.number (hostlistPushList hl other).1, (hostlistPushList hl other).2)
  | .pop => (.host (hostlistPop hl).1, (hostlistPop hl).2)
  | .shift => (.host (hostlistShift hl).1, (hostlistShift hl).2)
  | .nth n => (.host (hostlistNth hl n), hl)
  | .deleteNth n => (.number 1, hostlistDeleteNth hl n)
  | .count => (.number (hostlistCount hl), hl)

/-- What a plain list of names answers, and what becomes of it. -/
def serveNames (names : List (List Char)) : Request → Answer × List (List Char)
  | .push hr => (.number (names ++ hr.hosts).length, names ++ hr.hosts)
  | .pushList other =>
    (.number (toInt (heldTotal names.length (other.hr.map fun hr => hr.hosts.length))),
      names ++ other.hosts)
  | .pop => (.host names.getLast?, names.dropLast)
  | .shift => (.host names.head?, names.tail)
  | .nth n => (.host names[n.toNat]?, names)
  | .deleteNth n => (.number 1, names.eraseIdx n.toNat)
  | .count => (.number names.length, names)

/-- What is pushed fits and does not make the list longer than an `int` counts, no host is asked for
by a negative number, and the host that is deleted is in the list. -/
def Allowed (names : List (List Char)) : Request → Prop
  | .push hr => hr.Fits ∧ (names.length + hr.hosts.length : Int) ≤ intMax
  | .pushList other => other.Sound ∧ (names.length + other.hosts.length : Int) ≤ intMax
  | .nth n => 0 ≤ n
  | .deleteNth n => 0 ≤ n ∧ n < names.length
  | .pop | .shift | .count => True

/-- A list of ranges answers as the list of its names does. -/
theorem hostlist_simulates :
    Refinement.Simulates Hostlist.serve serveNames
      (fun hl names => hl.hosts = names ∧ hl.Sound) Allowed := by
  rintro hl names request ⟨rfl, sound⟩ allowed
  cases request with
  | push hr =>
    have pushed := hostlistPushRange_spec sound allowed.1 allowed.2
    exact ⟨congrArg Answer.number (pushed.1 ▸ pushed.2.count), pushed⟩
  | pushList other =>
    obtain ⟨total, pushed⟩ := hostlistPushList_spec sound allowed.1 allowed.2
    exact ⟨congrArg Answer.number total, pushed⟩
  | pop =>
    obtain ⟨host, rest⟩ := hostlistPop_spec sound
    exact ⟨congrArg Answer.host host, rest⟩
  | shift =>
    obtain ⟨host, rest⟩ := hostlistShift_spec sound
    exact ⟨congrArg Answer.host host, rest⟩
  | nth n => exact ⟨congrArg Answer.host (hostlistNth_eq sound allowed), rfl, sound⟩
  | deleteNth n => exact ⟨rfl, hostlistDeleteNth_spec sound allowed.1 allowed.2⟩
  | count => exact ⟨congrArg Answer.number sound.count, rfl, sound⟩

/-- A new list is sound. -/
theorem hostlistNew_sound : hostlistNew.Sound where
  ranges := fun hr member => absurd member List.not_mem_nil
  cells := by decide
  room := Nat.zero_le _
  count := rfl
  few := by decide

/-- Whatever is asked of a list that was created empty, it answers as a plain list of names does,
and it goes on standing for those names. -/
theorem hostlist_refines (requests : List Request)
    (allowed : Runs.Along (Refinement.next serveNames) Allowed [] requests) :
    Refinement.answers Hostlist.serve hostlistNew requests =
        Refinement.answers serveNames [] requests ∧
      (Runs.run (Refinement.next Hostlist.serve) hostlistNew requests).hosts =
        Runs.run (Refinement.next serveNames) [] requests ∧
      (Runs.run (Refinement.next Hostlist.serve) hostlistNew requests).Sound :=
  hostlist_simulates.run ⟨rfl, hostlistNew_sound⟩ allowed

/-- Two ranges that meet are pushed, and a host between others is deleted. -/
theorem hostlist_refines_two_ranges :
    Refinement.answers Hostlist.serve hostlistNew
        [.push (hostrangeCreate ['a'] 8 9 1), .push (hostrangeCreate ['a'] 10 12 2), .deleteNth 1,
          .pop, .nth 1] =
      [.number 2, .number 5, .number 1, .host (some ['a', '1', '2']),
        .host (some ['a', '1', '0'])] := by
  have first : (hostrangeCreate ['a'] 8 9 1).Fits :=
    ⟨.numbers _ _ (by decide) (by decide), by decide, by decide, by decide⟩
  have second : (hostrangeCreate ['a'] 10 12 2).Fits :=
    ⟨.numbers _ _ (by decide) (by decide), by decide, by decide, by decide⟩
  have allowed : Runs.Along (Refinement.next serveNames) Allowed []
      [.push (hostrangeCreate ['a'] 8 9 1), .push (hostrangeCreate ['a'] 10 12 2), .deleteNth 1,
        .pop, .nth 1] :=
    ⟨⟨first, by decide⟩, ⟨second, by decide⟩, ⟨by decide, by decide⟩, trivial,
      (by decide : (0 : Int) ≤ 1), trivial⟩
  exact (hostlist_refines _ allowed).1.trans (by decide)

end GpibUtils.Lsd
