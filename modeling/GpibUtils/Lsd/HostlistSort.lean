import GpibUtils.Lsd.Hostlist

/-!
# Sorted host lists

`hostlist_sort` sorts the ranges by their prefixes and first numbers, takes ranges apart that have
hosts in common, and puts ranges together that meet. Ranges that are in order, and do not even
touch, stay as they are (`hostlistSort_apart`).
-/

namespace GpibUtils.Lsd

open CSem

/-! ## The code -/

/-- `strcmp`, up to the value of a result that is not zero. -/
def strcmp : List Char → List Char → Int
  | [], [] => 0
  | [], _ :: _ => -1
  | _ :: _, [] => 1
  | c :: s, d :: t => if c = d then strcmp s t else c.toNat - d.toNat

/-- `hostrange_prefix_cmp`, of two ranges. -/
def hostrangePrefixCmp (h1 h2 : Hostrange) : Int :=
  let retval := strcmp h1.pfx h2.pfx
  if retval = 0 then h2.singlehost.toNat - h1.singlehost.toNat else retval

/-- `hostrange_cmp`. The width in common that it leaves in both ranges is not kept: with it they
have the hosts that they had, and compare with all ranges as before (`combined_indistinct`). -/
def hostrangeCmp (h1 h2 : Hostrange) : Int :=
  let retval := hostrangePrefixCmp h1 h2
  if retval = 0 then
    if (hostrangeWidthCombine h1 h2).isSome then toInt (h1.lo - h2.lo).toNat
    else h1.width - h2.width
  else retval

/-- `hostrange_intersect`; there is no result when its assertion fails. -/
def hostrangeIntersect (h1 h2 : Hostrange) : Option (Option Hostrange) :=
  if h1.singlehost || h2.singlehost then some none
  else if hostrangeCmp h1 h2 > 0 then none
  else if hostrangePrefixCmp h1 h2 = 0 ∧ h1.hi > h2.lo then
    some ((hostrangeWidthCombine h1 h2).map fun width =>
      { h1 with lo := h2.lo, hi := if h2.hi < h1.hi then h2.hi else h1.hi, width })
  else some none

/-- The loop of `hostlist_coalesce` that inserts the numbers that two ranges have in common, those
between the bounds twice. -/
def insertCommon (hprev hnext new : Hostrange) (hl : Hostlist) (i : Nat) : Hostlist :=
  let step := fun (hl, j) lo =>
    let hr := hostrangeCreate new.pfx (UInt64.ofNat lo) (UInt64.ofNat lo) new.width
    let (hl, j) :=
      if UInt64.ofNat lo > hprev.hi then (hostlistInsertRange hl hr j, j + 1) else (hl, j)
    if UInt64.ofNat lo < hnext.lo then (hostlistInsertRange hl hr j, j + 1) else (hl, j)
  ((List.range' new.lo.toNat (new.hi.toNat + 1 - new.lo.toNat)).foldl step (hl, i)).1

/-- The loop of `hostlist_coalesce` from an index down; there is no result when an assertion fails,
or when there are not enough rounds. -/
def coalesceLoop : (rounds : Nat) → Hostlist → (i : Nat) → Option Hostlist
  | 0, _, _ => none
  | _ + 1, hl, 0 => some hl
  | rounds + 1, hl, i + 1 =>
    match hl.hr[i]?, hl.hr[i + 1]? with
    | some hprev, some hnext =>
      match hostrangeIntersect hprev hnext with
      | none => none
      | some none => coalesceLoop rounds hl i
      | some (some new) =>
        let hnext := { hnext with
          lo := new.hi, hi := if new.hi < hprev.hi then hprev.hi else hnext.hi }
        let hprev := { hprev with hi := new.lo }
        let hl := { hl with hr := (hl.hr.set i hprev).set (i + 1) hnext }
        let hl := if hostrangeEmpty hprev then hostlistDeleteRange hl (i + 1) else hl
        let hl := insertCommon hprev hnext new hl (i + 1)
        coalesceLoop rounds hl (hl.hr.length - 1)
    | _, _ => none

/-- The loop of `hostlist_collapse` from an index down. -/
def collapseLoop : Hostlist → (i : Nat) → Hostlist
  | hl, 0 => hl
  | hl, i + 1 =>
    match hl.hr[i]?, hl.hr[i + 1]? with
    | some hprev, some hnext =>
      match hprev.extend hnext with
      | some joined =>
        collapseLoop (hostlistDeleteRange { hl with hr := hl.hr.set i joined } (i + 1)) i
      | none => collapseLoop hl i
    | _, _ => hl

/-- `hostlist_sort`, of a list without iterators; `qsort` sorts. -/
def hostlistSort (rounds : Nat) (hl : Hostlist) : Option Hostlist :=
  if hl.hr.length ≤ 1 then some hl
  else
    let hl := { hl with hr := hl.hr.mergeSort fun h1 h2 => hostrangeCmp h1 h2 ≤ 0 }
    (coalesceLoop rounds hl (hl.hr.length - 1)).map fun hl => collapseLoop hl (hl.hr.length - 1)

/-! ## Widths in common -/

/-- Two ranges have a width in common when one of them is printed alike with both widths. -/
theorem widthEquiv_isSome (n m : UInt64) (wn wm : Nat) :
    (widthEquiv n wn m wm).isSome = true ↔
      zeroPadding n wn = zeroPadding n wm ∨ zeroPadding m wm = zeroPadding m wn := by
  simp only [widthEquiv]
  grind

/-- Ranges compare alike with widths that pad their first numbers as their own widths do. -/
theorem hostrangeCmp_sign {h1 h2 : Hostrange} {w1 w2 : Nat}
    (first : zeroPadding h1.lo w1 = zeroPadding h1.lo h1.width)
    (second : zeroPadding h2.lo w2 = zeroPadding h2.lo h2.width) :
    (hostrangeCmp { h1 with width := w1 } { h2 with width := w2 }).sign =
      (hostrangeCmp h1 h2).sign := by
  have prefixes : hostrangePrefixCmp { h1 with width := w1 } { h2 with width := w2 } =
      hostrangePrefixCmp h1 h2 := rfl
  have combined : (widthEquiv h1.lo w1 h2.lo w2).isSome = true ↔
      (widthEquiv h1.lo h1.width h2.lo h2.width).isSome = true := by
    simp only [widthEquiv_isSome, zeroPadding_eq] at first second ⊢
    omega
  rw [hostrangeCmp, hostrangeCmp, prefixes, hostrangeWidthCombine, hostrangeWidthCombine]
  dsimp only
  by_cases same : hostrangePrefixCmp h1 h2 = 0
  · rw [if_pos same, if_pos same]
    by_cases common : (widthEquiv h1.lo h1.width h2.lo h2.width).isSome = true
    · rw [if_pos common, if_pos (combined.mpr common)]
    · rw [if_neg common, if_neg (mt combined.mp common)]
      -- The wider of the two is padded, and no width that pads it alike is another one.
      simp only [widthEquiv_isSome, zeroPadding_eq] at first second common
      rcases Nat.lt_or_gt_of_ne (fun equal => common (.inl (by rw [equal])) :
          h1.width ≠ h2.width) with less | more
      · rw [Int.sign_eq_neg_one_of_neg (by omega), Int.sign_eq_neg_one_of_neg (by omega)]
      · rw [Int.sign_eq_one_of_pos (by omega), Int.sign_eq_one_of_pos (by omega)]
  · rw [if_neg same, if_neg same]

/-- A range has the hosts of another one, and compares with all ranges as it does. -/
structure Indistinct (h h' : Hostrange) : Prop where
  hosts : h.hosts = h'.hosts
  before : ∀ other, (hostrangeCmp h other).sign = (hostrangeCmp h' other).sign
  behind : ∀ other, (hostrangeCmp other h).sign = (hostrangeCmp other h').sign

/-- A range with a width that pads its first number as its own width does cannot be told from it. -/
theorem indistinct_of_pads {h : Hostrange} {width : Nat}
    (pads : zeroPadding h.lo width = zeroPadding h.lo h.width) :
    Indistinct { h with width } h where
  hosts := by
    rw [Hostrange.hosts, Hostrange.hosts, namesBetween_congr h.pfx pads]
  before other := hostrangeCmp_sign pads rfl
  behind other := hostrangeCmp_sign rfl pads

/-- Ranges that are given the width that they have in common cannot be told from what they were. -/
theorem combined_indistinct {h1 h2 : Hostrange} {width : Nat}
    (combined : hostrangeWidthCombine h1 h2 = some width) :
    Indistinct { h1 with width } h1 ∧ Indistinct { h2 with width } h2 :=
  have pads := widthEquiv_pads combined
  ⟨indistinct_of_pads pads.1, indistinct_of_pads pads.2⟩

/-! ## Ranges in order -/

/-- A range comes before another one and does not touch it: its prefix is less, or it has the same
prefix and width and ends below where the other one begins. -/
def Apart (h1 h2 : Hostrange) : Prop :=
  strcmp h1.pfx h2.pfx < 0 ∨
    (h1.pfx = h2.pfx ∧ h1.width = h2.width ∧ h1.singlehost = false ∧ h2.singlehost = false ∧
      h1.lo.toNat ≤ h1.hi.toNat ∧ h1.hi.toNat + 1 < h2.lo.toNat ∧
      h2.lo.toNat - h1.lo.toNat ≤ 2 ^ 31)

/-- A string is not less than itself. -/
@[simp] theorem strcmp_self (s : List Char) : strcmp s s = 0 := by
  induction s with
  | nil => rfl
  | cons c s ih => rw [strcmp, if_pos rfl, ih]

/-- A width can be had in common with itself. -/
theorem widthEquiv_self (n m : UInt64) (width : Nat) :
    widthEquiv n width m width = some width := by
  simp [widthEquiv]

/-- A difference that is negative is negative as an `int` when it is small. -/
theorem toInt_wrapped {distance : Nat} (near : distance ≤ 2 ^ 31) (some : 0 < distance) :
    toInt ((2 ^ 64 - distance : Nat) : Int) ≤ 0 := by
  have sum : ((2 ^ 64 - distance : Nat) : Int) = -(distance : Int) + (2 ^ 32 : Nat) * 2 ^ 32 := by
    omega
  have small : toInt (-(distance : Int)) = -(distance : Int) :=
    toInt_of_range (by omega) (by rw [intMax]; omega)
  rw [toInt] at small ⊢
  rw [sum, Int.add_mul_bmod_self_left, small]
  omega

section
variable {h1 h2 : Hostrange} (apart : Apart h1 h2)
include apart

/-- Ranges that are apart are in order. -/
theorem Apart.cmp : hostrangeCmp h1 h2 ≤ 0 := by
  rw [hostrangeCmp]
  rcases apart with less | ⟨pfx, width, first, second, order, below, near⟩
  · have differ : strcmp h1.pfx h2.pfx ≠ 0 := Int.ne_of_lt less
    have prefixes : hostrangePrefixCmp h1 h2 = strcmp h1.pfx h2.pfx := if_neg differ
    rw [prefixes, if_neg differ]
    exact Int.le_of_lt less
  · have same : hostrangePrefixCmp h1 h2 = 0 := by
      simp [hostrangePrefixCmp, pfx, first, second]
    have combined : (hostrangeWidthCombine h1 h2).isSome = true := by
      rw [hostrangeWidthCombine, width, widthEquiv_self]
      rfl
    have distance : (h1.lo - h2.lo).toNat = 2 ^ 64 - (h2.lo.toNat - h1.lo.toNat) := by
      have bound := h2.lo.toNat_lt
      rw [UInt64.toNat_sub]
      omega
    rw [if_pos same, if_pos combined, distance]
    exact toInt_wrapped near (by omega)

/-- Ranges that are apart have no hosts in common. -/
theorem Apart.intersect : hostrangeIntersect h1 h2 = some none := by
  rw [hostrangeIntersect]
  by_cases single : (h1.singlehost || h2.singlehost) = true
  · rw [if_pos single]
  · have order := apart.cmp
    rw [if_neg single, if_neg (by omega), if_neg]
    rintro ⟨same, above⟩
    rcases apart with less | ⟨-, -, -, -, -, below, -⟩
    · have differ : strcmp h1.pfx h2.pfx ≠ 0 := Int.ne_of_lt less
      have prefixes : hostrangePrefixCmp h1 h2 = strcmp h1.pfx h2.pfx := if_neg differ
      exact differ (prefixes.symm.trans same)
    · rw [gt_iff_lt, UInt64.lt_iff_toNat_lt] at above
      omega

/-- Ranges that are apart do not meet. -/
theorem Apart.extend : h1.extend h2 = none := by
  refine if_neg ?_
  rintro ⟨alike, meets⟩
  have alike : h1.pfx = h2.pfx ∧ h1.singlehost = h2.singlehost := of_decide_eq_true alike
  rcases apart with less | ⟨-, -, -, -, order, below, -⟩
  · rw [alike.1, strcmp_self] at less
    exact absurd less (Int.lt_irrefl 0)
  · have one : (1 : UInt64).toNat ≤ h2.lo.toNat := by
      show 1 ≤ h2.lo.toNat
      omega
    have last : h1.hi.toNat = h2.lo.toNat - 1 := by
      rw [meets, toNat_sub one]
      rfl
    omega

end

/-- Neighbours of ranges that are apart are apart. -/
theorem apart_neighbours {hl : Hostlist} (apart : hl.hr.Pairwise Apart) {i : Nat}
    (inside : i + 1 < hl.hr.length) :
    ∃ h1 h2, hl.hr[i]? = some h1 ∧ hl.hr[i + 1]? = some h2 ∧ Apart h1 h2 := by
  refine ⟨hl.hr[i], hl.hr[i + 1], List.getElem?_eq_getElem _, List.getElem?_eq_getElem _, ?_⟩
  exact List.pairwise_iff_getElem.mp apart i (i + 1) (Nat.lt_of_succ_lt inside) inside
    (Nat.lt_succ_self i)

/-- Ranges that are apart are not taken apart further. -/
theorem coalesceLoop_apart {hl : Hostlist} (apart : hl.hr.Pairwise Apart) {rounds i : Nat}
    (inside : i < hl.hr.length) (enough : i < rounds) : coalesceLoop rounds hl i = some hl := by
  induction rounds generalizing i with
  | zero => exact absurd enough (Nat.not_lt_zero i)
  | succ rounds ih =>
    cases i with
    | zero => rfl
    | succ i =>
      obtain ⟨h1, h2, first, second, neighbours⟩ := apart_neighbours apart inside
      rw [coalesceLoop, first, second]
      dsimp only
      rw [neighbours.intersect]
      exact ih (Nat.lt_of_succ_lt inside) (Nat.lt_of_succ_lt_succ enough)

/-- Ranges that are apart are not put together. -/
theorem collapseLoop_apart {hl : Hostlist} (apart : hl.hr.Pairwise Apart) {i : Nat}
    (inside : i < hl.hr.length) : collapseLoop hl i = hl := by
  induction i with
  | zero => rfl
  | succ i ih =>
    obtain ⟨h1, h2, first, second, neighbours⟩ := apart_neighbours apart inside
    rw [collapseLoop, first, second]
    dsimp only
    rw [neighbours.extend]
    exact ih (Nat.lt_of_succ_lt inside)

/-- A list of ranges that come one after another and do not touch is sorted. -/
theorem hostlistSort_apart {hl : Hostlist} (apart : hl.hr.Pairwise Apart) {rounds : Nat}
    (enough : hl.hr.length ≤ rounds) : hostlistSort rounds hl = some hl := by
  rw [hostlistSort]
  by_cases few : hl.hr.length ≤ 1
  · exact if_pos few
  · have sorted : (hl.hr.mergeSort fun h1 h2 => hostrangeCmp h1 h2 ≤ 0) = hl.hr :=
      List.mergeSort_of_pairwise (apart.imp fun {_ _} pair => decide_eq_true pair.cmp)
    rw [if_neg few, sorted]
    dsimp only
    rw [coalesceLoop_apart apart (by omega) (by omega), Option.map_some,
      collapseLoop_apart apart (by omega)]

/-! ## Ranges that are pushed in order -/

/-- An array that was created for a list, and has been expanded when it was full. -/
def Hostlist.Sized (hl : Hostlist) : Prop := hl.size = 16 * ((hl.hr.length - 1) / 16 + 1)

/-- A new list has an array of one chunk. -/
theorem hostlistNew_sized : hostlistNew.Sized := rfl

/-- A range that all others are apart from is kept behind them. -/
theorem hostlistPushRange_apart {hl : Hostlist} {hr : Hostrange}
    (apart : ∀ other ∈ hl.hr, Apart other hr) (sized : hl.Sized) :
    (hostlistPushRange hl hr).hr = hl.hr ++ [hr] ∧ (hostlistPushRange hl hr).Sized := by
  have alone : (hl.hr.getLast?.bind fun tail => tail.extend hr) = none := by
    cases last : hl.hr.getLast? with
    | none => rfl
    | some tail => exact (apart tail (List.mem_of_getLast? last)).extend
  have pushed : (hostlistPushRange hl hr).hr = hl.hr ++ [hr] := by
    rw [hostlistPushRange, alone]
  refine ⟨pushed, ?_⟩
  have size : (hostlistPushRange hl hr).size = hl.expanded := rfl
  rw [Hostlist.Sized] at sized ⊢
  rw [size, pushed, Hostlist.expanded, hostlistChunk, List.length_append, List.length_singleton]
  split <;> omega

/-- A list whose ranges all others are apart from is kept behind them. -/
theorem hostlistPushList_apart {hl other : Hostlist} (apart : (hl.hr ++ other.hr).Pairwise Apart)
    (sized : hl.Sized) :
    (hostlistPushList hl other).2.hr = hl.hr ++ other.hr ∧ (hostlistPushList hl other).2.Sized := by
  have pushed : ∀ (ranges : List Hostrange) (total : Int) (hl : Hostlist),
      (hl.hr ++ ranges).Pairwise Apart → hl.Sized →
        (ranges.foldl pushNext (total, hl)).2.hr = hl.hr ++ ranges ∧
          (ranges.foldl pushNext (total, hl)).2.Sized := by
    intro ranges
    induction ranges with
    | nil => exact fun total hl _ sized => ⟨(List.append_nil _).symm, sized⟩
    | cons hr later ih =>
      intro total hl apart sized
      have before : ∀ other ∈ hl.hr, Apart other hr := fun other member =>
        (List.pairwise_append.mp apart).2.2 other member hr List.mem_cons_self
      obtain ⟨ranges, sized'⟩ := hostlistPushRange_apart before sized
      have split : hl.hr ++ hr :: later = (hostlistPushRange hl hr).hr ++ later := by
        rw [ranges, List.append_assoc]
        rfl
      rw [split] at apart ⊢
      exact ih _ (hostlistPushRange hl hr) apart sized'
  exact pushed other.hr 0 hl apart sized

end GpibUtils.Lsd
