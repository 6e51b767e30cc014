import GpibUtils.CSem.Number
import GpibUtils.Inst.Address

/-!
# What passes for a GPIB address

The tests of `inst_init` for GPIB addresses are made of `sscanf` and `strtoul`, which skip white
space, accept signs, and do not look at what follows the last number. So they let through more
than the grammar does: a string outside the grammar is not opened as a GPIB address exactly when
it is not one of these either (`instInit_refuses_iff`).
-/

namespace GpibUtils.Inst

open CSem

/-- A string of the form `[board:]primary[,secondary]`, where every field is a decimal number that
fits an `int`. -/
def IsGpibAddress (s : List Char) : Prop :=
  ∃ board primary secondary, (Form.gpib board primary secondary).Valid (fun _ => false) ∧
    (Form.gpib board primary secondary).text = s

/-- What `pad` becomes: the value of `strtoul` as an `int`. -/
def padOf (number : CSem.Number) : Int :=
  let n := digitsValue number.digits
  if 2 ^ 64 ≤ n then -1 else if number.minus then toInt (-n) else toInt n

/-- The strings that pass a test for numbers: two numbers with a colon or a comma between them and
anything after them, a number alone that is not negative as an `int`, and no characters at all.
The numbers may have white space and a sign in front. -/
inductive Loose : List Char → Prop where
  | board (board primary : CSem.Number) (rest : List Char) :
      Loose (board.text ++ ':' :: (primary.text ++ rest))
  | secondary (primary secondary : CSem.Number) (rest : List Char) :
      Loose (primary.text ++ ',' :: (secondary.text ++ rest))
  | primary (primary : CSem.Number) (nonneg : 0 ≤ padOf primary) : Loose primary.text
  | empty : Loose []

/-- The residue of an `unsigned long` is that of the number it holds. -/
theorem toInt_emod (x : Int) : toInt (x % 2 ^ 64) = toInt x := by
  rw [toInt, toInt, Int.bmod_eq_bmod_iff_bmod_sub_eq_zero]
  apply Int.bmod_eq_zero_of_dvd
  have split := Int.mul_ediv_add_emod x (2 ^ 64)
  exact ⟨-(2 ^ 32 * (x / 2 ^ 64)), by omega⟩

/-- `strtoul` of a number, as an `int`. -/
theorem toInt_strtoul (number : CSem.Number) :
    toInt (strtoul number.text).1.toNat = padOf number := by
  have read := number.numeralOf_text []
  simp only [List.append_nil, List.takeWhile_nil, List.dropWhile_nil] at read
  simp only [strtoul, read, number.nonempty, if_false, padOf]
  split
  · decide
  · rename_i small
    have fits := Nat.not_le.mp small
    cases number.minus with
    | false => rw [if_neg Bool.false_ne_true, if_neg Bool.false_ne_true,
        UInt64.toNat_ofNat_of_lt' fits]
    | true =>
      rw [if_pos rfl, if_pos rfl, UInt64.toNat_neg, UInt64.toNat_ofNat_of_lt' fits,
        ← toInt_emod (-_)]
      have size : UInt64.size = 2 ^ 64 := rfl
      rw [size]
      congr 1
      omega

/-- The tests for numbers pass exactly what is listed. -/
theorem readsAsGpib_iff (s : List Char) : ReadsAsGpib s ↔ Loose s := by
  rw [ReadsAsGpib, formatBoardPad, formatPadSad, sscanf_two_iff rfl, sscanf_two_iff rfl,
    strtoul_end_iff]
  constructor
  · rintro (⟨board, primary, rest, rfl⟩ | ⟨primary, secondary, rest, rfl⟩ | ⟨nonneg, whole⟩)
    · exact .board board primary rest
    · exact .secondary primary secondary rest
    · rcases whole with rfl | ⟨number, rfl⟩
      · exact .empty
      · exact .primary number (toInt_strtoul number ▸ nonneg)
  · intro loose
    cases loose with
    | board board primary rest => exact .inl ⟨board, primary, rest, rfl⟩
    | secondary primary secondary rest => exact .inr (.inl ⟨primary, secondary, rest, rfl⟩)
    | primary number nonneg =>
      exact .inr (.inr ⟨toInt_strtoul number ▸ nonneg, .inr ⟨number, rfl⟩⟩)
    | empty => exact .inr (.inr ⟨by decide, .inl rfl⟩)

/-- The tests for devices and hosts open no GPIB instrument. -/
theorem initNamed_not_gpib (isChr : List Char → Bool) (addr : List Char) {board pad sad : Int} :
    .gpib board pad sad ∉ initNamed isChr addr := by
  unfold initNamed
  split
  · simp
  · split
    · simp
    · dsimp only
      split
      · simp
      · split <;> simp

/-- `inst_init` attempts to open a GPIB instrument exactly when a test for numbers is passed. -/
theorem initAttempts_gpib_iff (isChr : List Char → Bool) (addr : List Char) :
    (∃ board pad sad, .gpib board pad sad ∈ initAttempts isChr addr) ↔ ReadsAsGpib addr := by
  constructor
  · rintro ⟨board, pad, sad, member⟩
    by_contra other
    have notPair : (sscanf formatBoardPad addr).length ≠ 2 := fun pair => other (.inl pair)
    rw [initAttempts_eq_chain notPair, initChain_named other] at member
    exact initNamed_not_gpib isChr addr member
  · intro reads
    obtain ⟨board, pad, sad, chain⟩ := @initChain_numeric isChr _ reads
    refine ⟨board, pad, sad, ?_⟩
    unfold initAttempts
    split
    · exact List.mem_cons_of_mem _ (chain ▸ List.mem_cons_self)
    · exact chain ▸ List.mem_cons_self

/-- A string that is no GPIB address is not opened as one exactly when it does not pass for one. -/
theorem instInit_refuses_iff {ι : Type} (isChr : List Char → Bool) (opened : Attempt → Option ι)
    (addr : List Char) :
    (¬IsGpibAddress addr →
        ∀ board pad sad, .gpib board pad sad ∉ (instInit isChr opened addr).1) ↔
      (Loose addr → IsGpibAddress addr) := by
  have attempts := initAttempts_gpib_iff isChr addr
  rw [readsAsGpib_iff] at attempts
  rw [← attempts]
  constructor
  · intro refuses ⟨board, pad, sad, opens⟩
    by_contra other
    exact refuses other board pad sad opens
  · intro only other board pad sad opens
    exact other (only ⟨board, pad, sad, opens⟩)

/-- An address has a primary address in it. -/
theorem IsGpibAddress.ne_nil {s : List Char} (address : IsGpibAddress s) : s ≠ [] := by
  obtain ⟨board, primary, secondary, ⟨-, field, -⟩, rfl⟩ := address
  simp [Form.text, field.nonempty]

/-- The empty string, which is what a configuration without an address has, opens primary address
0 of board 0. -/
theorem instInit_opens_empty :
    ¬IsGpibAddress [] ∧
      instInit (fun _ => false) some [] = ([.gpib 0 0 0], some (.gpib 0 0 0)) :=
  ⟨fun address => address.ne_nil rfl, by decide⟩

end GpibUtils.Inst
