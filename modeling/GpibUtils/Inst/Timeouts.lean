import GpibUtils.Inst.Poll
import GpibUtils.Vxi11.Device
import Mathlib.Data.Rat.Floor

/-!
# Timeouts

`inst_set_timeout` turns a number of seconds into a time step of the GPIB driver, into milliseconds
for VXI-11, and into a `struct timeval` for serial lines and sockets. Numbers of seconds are
rational. The fraction of a second is divided where it is to be multiplied, so the last of these
loses it (`instSetTimeout_configures_iff`).
-/

namespace GpibUtils.Inst

open CSem Vxi11

/-- The time steps of the GPIB driver. -/
inductive Tmo where
  | tnone
  | t10us
  | t30us
  | t100us
  | t300us
  | t1ms
  | t3ms
  | t10ms
  | t30ms
  | t100ms
  | t300ms
  | t1s
  | t3s
  | t10s
  | t30s
  | t100s
  | t300s
  | t1000s
  deriving DecidableEq

/-- How many seconds a time step is, `none` for no timeout. -/
def Tmo.seconds : Tmo → Option ℚ
  | .tnone => none
  | .t10us => some (10 / 1000000)
  | .t30us => some (30 / 1000000)
  | .t100us => some (100 / 1000000)
  | .t300us => some (300 / 1000000)
  | .t1ms => some (1 / 1000)
  | .t3ms => some (3 / 1000)
  | .t10ms => some (10 / 1000)
  | .t30ms => some (30 / 1000)
  | .t100ms => some (100 / 1000)
  | .t300ms => some (300 / 1000)
  | .t1s => some 1
  | .t3s => some 3
  | .t10s => some 10
  | .t30s => some 30
  | .t100s => some 100
  | .t300s => some 300
  | .t1000s => some 1000

/-- The branches of `_ibtmo` for a number of seconds that is not 0: the bound that `sec` is
compared with, and `val`. -/
def ladder : List (ℚ × Tmo) := [
  (0.00001, .t10us),
  (0.00003, .t30us),
  (0.00010, .t100us),
  (0.00030, .t300us),
  (0.00100, .t1ms),
  (0.00300, .t3ms),
  (0.01000, .t10ms),
  (0.03000, .t30ms),
  (0.10000, .t100ms),
  (0.30000, .t300ms),
  (1.00000, .t1s),
  (3.00000, .t3s),
  (10.00000, .t10s),
  (30.00000, .t30s),
  (100.00000, .t100s),
  (300.00000, .t300s),
  (1000.00000, .t1000s)]

/-- `_ibtmo`: the time step it gives the driver, `none` when it ends the program. -/
def ibtmo (sec : ℚ) : Option Tmo :=
  if sec < 0 ∨ 1000 < sec then none
  else if sec = 0 then some .tnone
  else some (((ladder.find? fun branch => sec ≤ branch.1).map Prod.snd).getD .t1000s)

/-- A floating point number becomes an integer by losing its fraction. -/
def truncate (x : ℚ) : Int := if 0 ≤ x then ⌊x⌋ else ⌈x⌉

/-- What `inst_set_timeout` can change: the time step of the driver, the handle, and the field
`timeout`. -/
structure Timeouts where
  driver : Tmo
  vxi11Handle : Device
  timeout : Timeval

/-- `inst_set_timeout`; `none` is an end of the program. -/
def instSetTimeout (contype : Contype) (gd : Timeouts) (sec : ℚ) : Option Timeouts :=
  match contype with
  | .gpib => (ibtmo sec).map fun val => { gd with driver := val }
  | .vxi11 =>
    let milliseconds := toULong (truncate (sec * 1000))
    some { gd with vxi11Handle := vxi11SetIotimeout gd.vxi11Handle milliseconds }
  | .serial | .socket =>
    some { gd with timeout := ⟨⌊sec⌋, truncate ((sec - ⌊sec⌋) / 1000000)⟩ }

/-! ## What is configured -/

/-- A time step is the smallest one that is not below a number of seconds. -/
def Tmo.Fits (val : Tmo) (sec : ℚ) : Prop :=
  ∃ step ∈ val.seconds, sec ≤ step ∧
    ∀ other : Tmo, ∀ limit ∈ other.seconds, sec ≤ limit → step ≤ limit

/-- A timeout means so many seconds. -/
def Configures (contype : Contype) (gd : Timeouts) (sec : ℚ) : Prop :=
  match contype with
  | .gpib => gd.driver.Fits sec
  | .vxi11 => |(gd.vxi11Handle.ioTimeout.toNat : ℚ) / 1000 - sec| ≤ 1 / 1000
  | .serial | .socket =>
    0 ≤ gd.timeout.usec ∧ gd.timeout.usec < 1000000 ∧
      |(gd.timeout.sec : ℚ) + gd.timeout.usec / 1000000 - sec| ≤ 1 / 1000000

/-- Every bound of `_ibtmo` is the time step it selects. -/
theorem seconds_of_mem {branch : ℚ × Tmo} (member : branch ∈ ladder) :
    branch.2.seconds = some branch.1 := by
  have all : ∀ branch ∈ ladder, branch.2.seconds = some branch.1 := by
    decide +kernel
  exact all branch member

/-- Every time step has a branch. -/
theorem mem_of_seconds {val : Tmo} {limit : ℚ} (step : limit ∈ val.seconds) :
    (limit, val) ∈ ladder := by
  cases val <;> cases step <;> decide +kernel

/-- The branches come in order. -/
theorem ladder_sorted : ladder.Pairwise fun lower upper => lower.1 ≤ upper.1 := by
  decide +kernel

/-- `_ibtmo` selects the smallest time step that is not below the number of seconds. -/
theorem ibtmo_fits {sec : ℚ} (positive : 0 < sec) (bounded : sec ≤ 1000) :
    ∃ val, ibtmo sec = some val ∧ val.Fits sec := by
  have inside : ¬ (sec < 0 ∨ 1000 < sec) := by
    rintro (below | above)
    · exact absurd positive (not_lt.mpr below.le)
    · exact absurd bounded (not_le.mpr above)
  have nonzero : sec ≠ 0 := positive.ne'
  cases first : ladder.find? fun branch => sec ≤ branch.1 with
  | none =>
    have last := List.find?_eq_none.mp first (1000, .t1000s) (by decide +kernel)
    exact absurd (decide_eq_true bounded) last
  | some branch =>
    have reached := List.find?_some first
    refine ⟨branch.2, ?_, branch.1, ?_, ?_, ?_⟩
    · rw [ibtmo, if_neg inside, if_neg nonzero, first]
      rfl
    · exact seconds_of_mem (List.mem_of_find?_eq_some first)
    · simpa using reached
    · intro other limit step above
      obtain ⟨_, before, after, split, skipped⟩ := List.find?_eq_some_iff_append.mp first
      have member := mem_of_seconds step
      have sorted := ladder_sorted
      rw [split] at member sorted
      rcases List.mem_append.mp member with earlier | later
      · have passed := skipped _ earlier
        simp [above] at passed
      · have behind := (List.pairwise_append.mp sorted).2.1
        rcases List.mem_cons.mp later with same | later
        · exact (congrArg Prod.fst same).symm.le
        · exact List.rel_of_pairwise_cons behind later

/-- The milliseconds of a timeout are those of the number of seconds, less a fraction of one. -/
theorem milliseconds {sec : ℚ} (positive : 0 < sec) (bounded : sec ≤ 1000) :
    |((toULong (truncate (sec * 1000))).toNat : ℚ) / 1000 - sec| ≤ 1 / 1000 := by
  have product : 0 ≤ sec * 1000 := by positivity
  have low : 0 ≤ ⌊sec * 1000⌋ := Int.floor_nonneg.mpr product
  have high : ⌊sec * 1000⌋ < 2 ^ 64 := by
    have million : sec * 1000 ≤ 1000000 := by linarith
    have below : ((⌊sec * 1000⌋ : Int) : ℚ) ≤ 1000000 := (Int.floor_le _).trans million
    have whole : ⌊sec * 1000⌋ ≤ 1000000 := by exact_mod_cast below
    omega
  have word : ((toULong (truncate (sec * 1000))).toNat : ℚ) = (⌊sec * 1000⌋ : Int) := by
    rw [truncate, if_pos product, toNat_toULong low high]
    exact_mod_cast Int.toNat_of_nonneg low
  have below := Int.floor_le (sec * 1000)
  have above := Int.lt_floor_add_one (sec * 1000)
  rw [word, abs_le]
  constructor
  · linarith
  · linarith

/-- No microsecond is left of the fraction of a second. -/
theorem microseconds_zero (sec : ℚ) : truncate ((sec - ⌊sec⌋) / 1000000) = 0 := by
  have low : 0 ≤ sec - ⌊sec⌋ := Int.fract_nonneg sec
  have high : sec - ⌊sec⌋ < 1 := Int.fract_lt_one sec
  have quotient : 0 ≤ (sec - ⌊sec⌋) / 1000000 := by positivity
  rw [truncate, if_pos quotient, Int.floor_eq_zero_iff]
  constructor
  · exact quotient
  · linarith

/-- A timeout means what was requested, except that serial lines and sockets lose the fraction of a
second. -/
theorem instSetTimeout_configures_iff (contype : Contype) (gd : Timeouts) {sec : ℚ}
    (positive : 0 < sec) (bounded : sec ≤ 1000) :
    (∃ after, instSetTimeout contype gd sec = some after ∧ Configures contype after sec) ↔
      (contype = .serial ∨ contype = .socket → Int.fract sec ≤ 1 / 1000000) := by
  have timeval : (0 ≤ truncate ((sec - ⌊sec⌋) / 1000000) ∧
      truncate ((sec - ⌊sec⌋) / 1000000) < 1000000 ∧
      |(⌊sec⌋ : ℚ) + truncate ((sec - ⌊sec⌋) / 1000000) / 1000000 - sec| ≤ 1 / 1000000) ↔
      Int.fract sec ≤ 1 / 1000000 := by
    have lost : |(⌊sec⌋ : ℚ) + (0 : Int) / 1000000 - sec| = Int.fract sec := by
      rw [Int.cast_zero, zero_div, add_zero, abs_sub_comm]
      exact abs_of_nonneg (Int.fract_nonneg sec)
    rw [microseconds_zero, lost]
    simp
  cases contype with
  | gpib =>
    obtain ⟨val, selected, fits⟩ := ibtmo_fits positive bounded
    simp [instSetTimeout, selected, Configures, fits]
  | vxi11 =>
    have close := milliseconds positive bounded
    simpa [instSetTimeout, vxi11SetIotimeout, Configures] using close
  | serial => simpa [instSetTimeout, Configures] using timeval
  | socket => simpa [instSetTimeout, Configures] using timeval

/-- The timeouts of a new instrument. -/
def newTimeouts : Timeouts := ⟨.tnone, vxi11Create, ⟨0, 0⟩⟩

/-- On a serial line 3 seconds are configured as such. -/
theorem three_seconds_on_serial :
    ∃ after, instSetTimeout .serial newTimeouts 3 = some after ∧ Configures .serial after 3 := by
  apply (instSetTimeout_configures_iff .serial newTimeouts (by decide +kernel)
    (by decide +kernel)).mpr
  intro _
  decide +kernel

/-- On a serial line half a second is configured as no time at all. -/
theorem half_second_lost_on_serial :
    ¬ ∃ after, instSetTimeout .serial newTimeouts (1 / 2) = some after ∧
      Configures .serial after (1 / 2) := by
  rintro ⟨after, set, configured⟩
  rw [instSetTimeout] at set
  cases set
  exact absurd configured.2.2 (by decide +kernel)

end GpibUtils.Inst
