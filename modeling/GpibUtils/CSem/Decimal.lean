import GpibUtils.CSem.Text

/-!
# Numbers as they are printed

`%u` prints a number without leading zeros, so that in base zero it is read in base ten, as in
base ten itself: nothing but zero begins with the mark of another base.
-/

namespace CSem

/-- A number as `%u` prints it. -/
def decimalText (n : Nat) : List Char := Nat.toDigits 10 n

/-- A number is printed with digits. -/
theorem isDigit_decimalText {n : Nat} {c : Char} (member : c ∈ decimalText n) :
    c.isDigit = true :=
  Nat.isDigit_of_mem_toDigits (by decide) (by decide) member

/-- A number is printed with one digit at least. -/
theorem decimalText_ne_nil (n : Nat) : decimalText n ≠ [] := Nat.toDigits_ne_nil

/-- What begins with a number begins with a digit. -/
theorem any_isDigit_decimalText (n : Nat) (rest : List Char) :
    ((decimalText n ++ rest).head?.any Char.isDigit) = true := by
  cases text : decimalText n with
  | nil => exact absurd text (decimalText_ne_nil n)
  | cons c later => exact isDigit_decimalText (text ▸ List.mem_cons_self)

/-- What is printed has the value of the number. -/
theorem digitsValue_decimalText (n : Nat) : digitsValue (decimalText n) = n :=
  Nat.ofDigitChars_ten_toDigits

/-- Only zero is printed with a zero in front. -/
theorem decimalText_zero_front {n : Nat} {later : List Char}
    (front : decimalText n = '0' :: later) : n = 0 := by
  have value := digitsValue_decimalText n
  rw [front, digitsValue, Nat.ofDigitChars_cons] at value
  have small : n < 10 ^ later.length := by
    calc
      n = digitsValue later := value.symm
      _ < 10 ^ later.length := digitsValue_lt fun c member =>
          isDigit_decimalText (front ▸ List.mem_cons_of_mem '0' member)
  cases later with
  | nil => exact value.symm
  | cons c later =>
    have short := (Nat.length_toDigits_le_iff (by decide) (Nat.succ_pos later.length)).mpr small
    rw [show Nat.toDigits 10 n = decimalText n from rfl, front] at short
    exact absurd short (Nat.not_succ_le_self _)

/-- `strtoul` reads a number as it is printed. -/
theorem strtoul_decimalText {n : Nat} (fits : n < 2 ^ 64) :
    strtoul (decimalText n) = (UInt64.ofNat n, []) := by
  have read := @strtoul_digits (decimalText n) [] (decimalText_ne_nil n)
    (fun _ => isDigit_decimalText) (by simp) (by rwa [digitsValue_decimalText])
  rwa [List.append_nil, digitsValue_decimalText] at read

/-- The value of a decimal digit. -/
theorem digitValue_of_isDigit {c : Char} (digit : c.isDigit = true) :
    digitValue c = c.toNat - 48 := by
  rw [digitValue, if_pos digit]

/-- The digits of base ten are folded to their value. -/
theorem foldl_digitValue {digits : List Char} (decimal : ∀ c ∈ digits, c.isDigit = true)
    (init : Nat) :
    digits.foldl (fun n c => 10 * n + digitValue c) init = Nat.ofDigitChars 10 digits init := by
  induction digits generalizing init with
  | nil => rfl
  | cons c digits ih =>
    rw [List.foldl_cons, Nat.ofDigitChars_cons,
      digitValue_of_isDigit (decimal c List.mem_cons_self)]
    exact ih (fun d member => decimal d (List.mem_cons_of_mem c member)) _

/-- A front that is no zero tells base ten. -/
theorem baseOf_ten {c : Char} (front : c ≠ '0') (later : List Char) :
    baseOf (c :: later) = (10, c :: later) := by
  unfold baseOf
  split
  case h_1 same => exact absurd (List.cons.inj same).1 front
  case h_2 same => exact absurd (List.cons.inj same).1 front
  case h_3 => rfl

/-- A zero before what is no digit of any base tells base eight. -/
theorem baseOf_zero {rest : List Char} (ends : ∀ c ∈ rest.head?, 36 ≤ digitValue c) :
    baseOf ('0' :: rest) = (8, '0' :: rest) := by
  cases rest with
  | nil => rfl
  | cons mark rest =>
    have far := ends mark rfl
    have lower : mark ≠ 'x' := fun same => absurd (same ▸ far) (by decide)
    have upper : mark ≠ 'X' := fun same => absurd (same ▸ far) (by decide)
    cases rest with
    | nil => rfl
    | cons digit rest => simp [baseOf, lower, upper]

/-- A number without a sign is read in the base that its front tells. -/
theorem strtoul0_of_base {c : Char} {later rest : List Char} {base n : Nat}
    (digit : c.isDigit = true)
    (told : baseOf (c :: (later ++ rest)) = (base, c :: (later ++ rest)))
    (taken : (c :: (later ++ rest)).takeWhile (fun c => digitValue c < base) = c :: later)
    (folded : (c :: later).foldl (fun n c => base * n + digitValue c) 0 = n)
    (fits : n < 2 ^ 64) :
    strtoul0 (c :: (later ++ rest)) = (UInt64.ofNat n, rest) := by
  have start : (c :: (later ++ rest)).dropWhile isSpace = c :: (later ++ rest) :=
    List.dropWhile_cons_of_neg (by simp [not_isSpace_of_isDigit digit])
  have after : (c :: (later ++ rest)).drop (c :: later).length = rest := by
    rw [← List.cons_append, List.drop_left]
  simp only [strtoul0, start, signOf_digit digit, told, taken, folded, after,
    if_neg (Nat.not_le.mpr fits), reduceCtorEq, Bool.false_eq_true, if_false]

/-- Where no digit of any base follows, a number is read in base zero as it is printed. -/
theorem strtoul0_decimalText {n : Nat} {rest : List Char} (fits : n < 2 ^ 64)
    (ends : ∀ c ∈ rest.head?, 36 ≤ digitValue c) :
    strtoul0 (decimalText n ++ rest) = (UInt64.ofNat n, rest) := by
  have decimal : ∀ c ∈ decimalText n, c.isDigit = true := fun _ => isDigit_decimalText
  have value := digitsValue_decimalText n
  -- No base counts what follows as a digit.
  have stops : ∀ base ≤ 36, rest.takeWhile (fun c => digitValue c < base) = [] := by
    intro base small
    cases rest with
    | nil => rfl
    | cons d rest =>
      have far := ends d rfl
      exact List.takeWhile_cons_of_neg (by simp only [decide_eq_true_eq]; omega)
  cases text : decimalText n with
  | nil => exact absurd text (decimalText_ne_nil n)
  | cons c later =>
    have digit := decimal c (text ▸ List.mem_cons_self)
    rw [List.cons_append]
    by_cases zero : c = '0'
    · subst zero
      have none := decimalText_zero_front text
      subst none
      have alone : later = [] := (List.cons.inj text).2.symm
      subst alone
      refine strtoul0_of_base digit (baseOf_zero ends) ?_ rfl fits
      rw [List.nil_append, List.takeWhile_cons_of_pos (by decide), stops 8 (by decide)]
    · rw [text] at decimal value
      refine strtoul0_of_base digit (baseOf_ten zero _) ?_
        ((foldl_digitValue decimal 0).trans value) fits
      have counted : ∀ d ∈ c :: later, decide (digitValue d < 10) = true := by
        intro d member
        have bounds := isDigit_iff.mp (decimal d member)
        rw [digitValue_of_isDigit (decimal d member), decide_eq_true_eq]
        omega
      rw [← List.cons_append, List.takeWhile_append_of_pos counted, stops 10 (by decide),
        List.append_nil]

/-- The first digit is worth a power of ten. -/
theorem digitsValue_cons (c : Char) (digits : List Char) :
    digitsValue (c :: digits) = 10 ^ digits.length * (c.toNat - 48) + digitsValue digits := by
  rw [digitsValue, Nat.ofDigitChars_cons, Nat.ofDigitChars_eq_ofDigitChars_zero, Nat.mul_zero,
    Nat.zero_add]
  rfl

/-- As many digits with one value are the same digits. -/
theorem digitsValue_injective {digits others : List Char}
    (decimal : ∀ c ∈ digits, c.isDigit = true) (decimal' : ∀ c ∈ others, c.isDigit = true)
    (lengths : digits.length = others.length) (same : digitsValue digits = digitsValue others) :
    digits = others := by
  induction digits generalizing others with
  | nil => exact (List.eq_nil_of_length_eq_zero lengths.symm).symm
  | cons c digits ih =>
    obtain ⟨d, others, rfl⟩ := List.exists_cons_of_length_eq_add_one lengths.symm
    have rest : ∀ c ∈ digits, c.isDigit = true := fun _ member =>
      decimal _ (List.mem_cons_of_mem c member)
    have rest' : ∀ c ∈ others, c.isDigit = true := fun _ member =>
      decimal' _ (List.mem_cons_of_mem d member)
    have length : digits.length = others.length := Nat.succ_inj.mp lengths
    have small := digitsValue_lt rest
    have small' := digitsValue_lt rest'
    rw [← length] at small'
    rw [digitsValue_cons, digitsValue_cons, ← length] at same
    have power : 0 < 10 ^ digits.length := Nat.pow_pos (by decide)
    have first : c.toNat - 48 = d.toNat - 48 := by
      have front := congrArg (· / 10 ^ digits.length) same
      simpa only [Nat.mul_add_div power, Nat.div_eq_of_lt small, Nat.div_eq_of_lt small',
        Nat.add_zero] using front
    have bounds := isDigit_iff.mp (decimal c List.mem_cons_self)
    have bounds' := isDigit_iff.mp (decimal' d List.mem_cons_self)
    have chars : c = d := Char.ext (UInt32.toNat_inj.mp (by
      show c.toNat = d.toNat
      omega))
    rw [first] at same
    rw [chars, ih rest rest' length (Nat.add_left_cancel same)]

/-- Digits are their value printed with as many digits. -/
theorem zeroPadded_digitsValue {digits : List Char} (nonempty : digits ≠ [])
    (decimal : ∀ c ∈ digits, c.isDigit = true) :
    zeroPadded digits.length (digitsValue digits) = digits := by
  have length := length_zeroPadded (List.length_pos_of_ne_nil nonempty) (digitsValue_lt decimal)
  exact digitsValue_injective (zeroPadded_decimal _ _) decimal length (digitsValue_zeroPadded _ _)

end CSem
