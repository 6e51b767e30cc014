import GpibUtils.CSem.Text
import Mathlib.Data.List.Range

/-!
# Ranges of hosts

A range stands for hosts that are named by one prefix and consecutive numbers, which are padded with
zeros to one width. Two ranges with different widths are put together when one of the widths does
for both; that the names stay what they were is decided at the lowest number of each range
(`zeroPadded_of_pad`).
-/

namespace GpibUtils.Lsd

open CSem

/-! ## The code -/

/-- `struct hostrange_components` -/
structure Hostrange where
  pfx : List Char
  lo : UInt64
  hi : UInt64
  width : Nat
  singlehost : Bool
  deriving DecidableEq

/-- `hostrange_create_single` -/
def hostrangeCreateSingle (pfx : List Char) : Hostrange := ⟨pfx, 0, 0, 0, true⟩

/-- `hostrange_create` -/
def hostrangeCreate (pfx : List Char) (lo hi : UInt64) (width : Nat) : Hostrange :=
  ⟨pfx, lo, hi, width, false⟩

/-- `hostrange_count` -/
def hostrangeCount (hr : Hostrange) : UInt64 := if hr.singlehost then 1 else hr.hi - hr.lo + 1

/-- `hostrange_empty` -/
def hostrangeEmpty (hr : Hostrange) : Bool := hr.hi < hr.lo ∨ hr.hi = -1

/-- The loop of `_zero_padded`, which counts digits. -/
def digitCount (num : Nat) : Nat := if num / 10 = 0 then 1 else digitCount (num / 10) + 1

/-- `_zero_padded` -/
def zeroPadding (num : UInt64) (width : Nat) : Nat :=
  if width > digitCount num.toNat then width - digitCount num.toNat else 0

/-- `_width_equiv` of two widths that are different variables: the width that both have after it,
when it returns 1. -/
def widthEquiv (n : UInt64) (wn : Nat) (m : UInt64) (wm : Nat) : Option Nat :=
  let npad := zeroPadding n wn
  let nmpad := zeroPadding n wm
  let mpad := zeroPadding m wm
  let mnpad := zeroPadding m wn
  if npad ≠ nmpad ∧ mpad ≠ mnpad then none
  else if npad ≠ nmpad then
    if mpad = mnpad then some wn else none
  else if npad = nmpad then some wm else none

/-- `hostrange_width_combine`: the width of both ranges, when they can be put together. -/
def hostrangeWidthCombine (h0 h1 : Hostrange) : Option Nat :=
  widthEquiv h0.lo h0.width h1.lo h1.width

/-- `hostrange_prefix_cmp` is zero. -/
def samePrefix (h1 h2 : Hostrange) : Bool := h1.pfx = h2.pfx ∧ h1.singlehost = h2.singlehost

/-- `hostrange_within_range` -/
def hostrangeWithinRange (h1 h2 : Hostrange) : Bool :=
  samePrefix h1 h2 && !(h1.singlehost || h2.singlehost)

/-- What a range becomes when another one begins where it ends, as `hostlist_push_range` and
`hostlist_collapse` put ranges together. -/
def Hostrange.extend (tail hr : Hostrange) : Option Hostrange :=
  if samePrefix tail hr ∧ tail.hi = hr.lo - 1 then
    (hostrangeWidthCombine tail hr).map fun width => { tail with hi := hr.hi, width }
  else none

/-! ## Names -/

/-- Digits are counted. -/
theorem digitCount_eq (num : Nat) : digitCount num = (Nat.toDigits 10 num).length := by
  induction num using Nat.strong_induction_on with
  | _ num ih =>
    rw [digitCount]
    by_cases small : num < 10
    · rw [if_pos (Nat.div_eq_of_lt small), Nat.toDigits_of_lt_base small]
      rfl
    · have large : 10 ≤ num := Nat.not_lt.mp small
      rw [if_neg (by omega), ih _ (by omega), Nat.toDigits_of_base_le (by decide) large,
        List.length_append]
      rfl

/-- The zeros are what the width has more than the digits. -/
theorem zeroPadding_eq (num : UInt64) (width : Nat) :
    zeroPadding num width = width - digitCount num.toNat := by
  rw [zeroPadding]
  split <;> omega

/-- A larger number has no fewer digits. -/
theorem digitCount_mono {n m : Nat} (order : n ≤ m) : digitCount n ≤ digitCount m := by
  rw [digitCount_eq, digitCount_eq]
  have positive : 0 < (Nat.toDigits 10 m).length := Nat.length_toDigits_pos
  have below := (Nat.length_toDigits_le_iff (by decide) positive).mp (Nat.le_refl _)
  exact (Nat.length_toDigits_le_iff (by decide) positive).mpr (Nat.lt_of_le_of_lt order below)

/-- Widths that pad one number the same way pad larger numbers the same way. -/
theorem zeroPadded_of_pad {n : UInt64} {w w' m : Nat} (same : zeroPadding n w = zeroPadding n w')
    (order : n.toNat ≤ m) : zeroPadded w m = zeroPadded w' m := by
  by_cases equal : w = w'
  · rw [equal]
  · have more := digitCount_mono order
    rw [zeroPadding_eq, zeroPadding_eq] at same
    rw [digitCount_eq m] at more
    have none : w - (Nat.toDigits 10 m).length = 0 ∧ w' - (Nat.toDigits 10 m).length = 0 := by
      omega
    rw [zeroPadded, zeroPadded, none.1, none.2]

/-- The width that two ranges can have pads the numbers of both as before. -/
theorem widthEquiv_pads {n m : UInt64} {wn wm w : Nat} (combined : widthEquiv n wn m wm = some w) :
    zeroPadding n w = zeroPadding n wn ∧ zeroPadding m w = zeroPadding m wm := by
  simp only [widthEquiv] at combined
  split at combined
  · cases combined
  · split at combined
    · split at combined
      · rename_i same
        cases combined
        exact ⟨rfl, same.symm⟩
      · cases combined
    · split at combined
      · rename_i same
        cases combined
        exact ⟨same.symm, rfl⟩
      · cases combined

/-- The width that two ranges can have is one of theirs. -/
theorem widthEquiv_width {n m : UInt64} {wn wm w : Nat} (combined : widthEquiv n wn m wm = some w) :
    w = wn ∨ w = wm := by
  simp only [widthEquiv] at combined
  grind

/-- The names with the numbers from one on that are below another. -/
def namesBetween (pfx : List Char) (width first next : Nat) : List (List Char) :=
  (List.range' first (next - first)).map fun n => pfx ++ zeroPadded width n

/-- The hosts of a range, in order. -/
def Hostrange.hosts (hr : Hostrange) : List (List Char) :=
  if hr.singlehost then [hr.pfx]
  else namesBetween hr.pfx hr.width hr.lo.toNat (hr.hi.toNat + 1)

/-- A single host is its name. -/
@[simp] theorem hosts_hostrangeCreateSingle (pfx : List Char) :
    (hostrangeCreateSingle pfx).hosts = [pfx] := rfl

/-- A range of numbers has the names with the numbers. -/
@[simp] theorem hosts_hostrangeCreate (pfx : List Char) (lo hi : UInt64) (width : Nat) :
    (hostrangeCreate pfx lo hi width).hosts =
      namesBetween pfx width lo.toNat (hi.toNat + 1) := rfl

/-- A range is one host, or its bounds are in order and its end is not the word that stands for no
hosts. -/
inductive Hostrange.Proper : Hostrange → Prop
  | single (pfx : List Char) : Proper (hostrangeCreateSingle pfx)
  | numbers (pfx : List Char) {lo hi : UInt64} (width : Nat) (order : lo.toNat ≤ hi.toNat)
      (below : hi.toNat + 1 < 2 ^ 64) : Proper (hostrangeCreate pfx lo hi width)

/-- Names are counted. -/
@[simp] theorem length_namesBetween (pfx : List Char) (width first next : Nat) :
    (namesBetween pfx width first next).length = next - first := by
  rw [namesBetween, List.length_map, List.length_range']

/-- There are no names below the first one. -/
theorem namesBetween_nil (pfx : List Char) (width : Nat) {first next : Nat} (none : next ≤ first) :
    namesBetween pfx width first next = [] := by
  rw [← List.length_eq_zero_iff, length_namesBetween]
  omega

/-- Names are cut at a number. -/
theorem namesBetween_append (pfx : List Char) (width : Nat) {first middle next : Nat}
    (front : first ≤ middle) (back : middle ≤ next) :
    namesBetween pfx width first next =
      namesBetween pfx width first middle ++ namesBetween pfx width middle next := by
  have parts : next - first = (middle - first) + (next - middle) := by omega
  have start : first + 1 * (middle - first) = middle := by omega
  rw [namesBetween, parts, ← List.range'_append, List.map_append, start]
  rfl

/-- The first name comes before the others. -/
theorem namesBetween_cons (pfx : List Char) (width : Nat) {first next : Nat}
    (some : first < next) :
    namesBetween pfx width first next =
      (pfx ++ zeroPadded width first) :: namesBetween pfx width (first + 1) next := by
  have one : namesBetween pfx width first (first + 1) = [pfx ++ zeroPadded width first] := by
    rw [namesBetween, Nat.add_sub_cancel_left]
    rfl
  rw [namesBetween_append pfx width (Nat.le_succ first) some, one]
  rfl

/-- Names have a name at every number. -/
theorem getElem?_namesBetween (pfx : List Char) (width : Nat) {first next n : Nat}
    (inside : n < next - first) :
    (namesBetween pfx width first next)[n]? = some (pfx ++ zeroPadded width (first + n)) := by
  rw [namesBetween_append pfx width (Nat.le_add_right first n) (by omega),
    List.getElem?_append_right (by simp), length_namesBetween,
    namesBetween_cons pfx width (by omega), Nat.add_sub_cancel_left, Nat.sub_self]
  rfl

/-- Names with widths that pad the first number the same way are the same. -/
theorem namesBetween_congr (pfx : List Char) {width width' : Nat} {first : UInt64} {next : Nat}
    (same : zeroPadding first width = zeroPadding first width') :
    namesBetween pfx width first.toNat next = namesBetween pfx width' first.toNat next := by
  refine List.map_congr_left fun n member => ?_
  rw [zeroPadded_of_pad same (List.mem_range'_1.mp member).1]

/-- Hosts are counted. -/
theorem Hostrange.Proper.count {hr : Hostrange} (proper : hr.Proper) :
    (hostrangeCount hr).toNat = hr.hosts.length := by
  cases proper with
  | single pfx => rfl
  | numbers pfx width order below =>
    have fits : ∀ lo hi : UInt64, lo.toNat ≤ hi.toNat → hi.toNat + 1 < 2 ^ 64 →
        (hi - lo + 1).toNat = hi.toNat + 1 - lo.toNat := by
      intro lo hi order below
      rw [UInt64.toNat_add, toNat_sub order]
      show (hi.toNat - lo.toNat + 1) % 2 ^ 64 = _
      omega
    exact (fits _ _ order below).trans (length_namesBetween _ _ _ _).symm

/-- There is a host in every range. -/
theorem Hostrange.Proper.hosts_pos {hr : Hostrange} (proper : hr.Proper) :
    0 < hr.hosts.length := by
  cases proper with
  | single pfx => exact Nat.one_pos
  | @numbers pfx lo hi width order below =>
    rw [hosts_hostrangeCreate, length_namesBetween]
    omega

/-- A range that another one extends has the hosts of both, in order. -/
theorem Hostrange.extend_hosts {tail hr joined : Hostrange} (first : tail.Proper)
    (second : hr.Proper) (extended : tail.extend hr = some joined) :
    joined.hosts = tail.hosts ++ hr.hosts ∧ joined.Proper := by
  rw [extend] at extended
  split at extended
  · rename_i fits
    obtain ⟨alike, next⟩ := fits
    obtain ⟨width, combined, rfl⟩ := Option.map_eq_some_iff.mp extended
    have alike : tail.pfx = hr.pfx ∧ tail.singlehost = hr.singlehost := of_decide_eq_true alike
    cases first with
    | single pfx =>
      cases second with
      | single other =>
        have next : (0 : UInt64) = 0 - 1 := next
        exact absurd next (by decide)
      | numbers other width' order' below' => cases alike.2
    | @numbers pfx lo hi width₁ order below =>
      cases second with
      | single other => cases alike.2
      | @numbers other lo' hi' width₂ order' below' =>
        obtain rfl : pfx = other := alike.1
        have sum : hi + 1 = lo' := by
          have next : hi = lo' - 1 := next
          rw [next, UInt64.sub_add_cancel]
        have start : lo'.toNat = hi.toNat + 1 := by
          rw [← sum, UInt64.toNat_add]
          show (hi.toNat + 1) % 2 ^ 64 = _
          omega
        have pads : zeroPadding lo width = zeroPadding lo width₁ ∧
          zeroPadding lo' width = zeroPadding lo' width₂ := widthEquiv_pads combined
        obtain ⟨front, back⟩ := pads
        have order'' : lo.toNat ≤ hi'.toNat := by omega
        refine ⟨?_, .numbers pfx width order'' below'⟩
        show namesBetween pfx width lo.toNat (hi'.toNat + 1) =
          namesBetween pfx width₁ lo.toNat (hi.toNat + 1) ++
            namesBetween pfx width₂ lo'.toNat (hi'.toNat + 1)
        have cut : lo.toNat ≤ lo'.toNat ∧ lo'.toNat ≤ hi'.toNat + 1 := by omega
        rw [namesBetween_append pfx width cut.1 cut.2, namesBetween_congr pfx front,
          namesBetween_congr pfx back, start]
  · cases extended

end GpibUtils.Lsd
