import GpibUtils.CSem.Word
import Mathlib.Data.List.Basic

/-!
# Decimal numbers in C strings

A C string is the list of its characters before the terminating NUL; a NUL kept in the list
ends a number as the end of the list does. Conversions follow the C standard in the C locale:
white space is skipped, a sign may come first, and the number is the longest run of digits
that follows.
-/

namespace CSem

/-- What is said of each character of a text is decided by going through the text, and not through
all characters that there are. -/
instance decidableText (p : Char → Prop) [DecidablePred p] (s : List Char) :
    Decidable (∀ c ∈ s, p c) :=
  List.decidableBAll p s

/-- What is said of a character that there may be is decided by looking at it. -/
instance decidableCharacter (p : Char → Prop) [DecidablePred p] (o : Option Char) :
    Decidable (∀ c ∈ o, p c) :=
  Option.decidableForallMem o

/-- The character of a byte. -/
def charOf (byte : UInt8) : Char := Char.ofNat byte.toNat

/-- `isspace` -/
def isSpace (c : Char) : Bool := decide (c.toNat = 32 ∨ 9 ≤ c.toNat ∧ c.toNat ≤ 13)

/-- An optional sign: whether it is a minus, and the characters after it. -/
def signOf : List Char → Bool × List Char
  | '+' :: rest => (false, rest)
  | '-' :: rest => (true, rest)
  | rest => (false, rest)

/-- A number at the front of a string: its sign, its digits, and the characters after it. -/
structure Numeral where
  minus : Bool
  digits : List Char
  rest : List Char
  deriving DecidableEq

/-- The number at the front of a string, without digits when there is none. -/
def numeralOf (s : List Char) : Numeral :=
  let (minus, s) := signOf (s.dropWhile isSpace)
  ⟨minus, s.takeWhile Char.isDigit, s.dropWhile Char.isDigit⟩

/-- The value of decimal digits. -/
def digitsValue (digits : List Char) : Nat := Nat.ofDigitChars 10 digits 0

/-- `strtoul` in base ten: the value, and the characters from `*endptr` on. A minus sign negates
the word; digits beyond the word are its largest value. -/
def strtoul (s : List Char) : UInt64 × List Char :=
  let num := numeralOf s
  if num.digits = [] then (0, s)
  else
    let n := digitsValue num.digits
    (if 2 ^ 64 ≤ n then -1 else if num.minus then -UInt64.ofNat n else UInt64.ofNat n, num.rest)

/-- The value of a character as a digit, and more than any base for other characters. -/
def digitValue (c : Char) : Nat :=
  if c.isDigit then c.toNat - 48
  else if 'a' ≤ c ∧ c ≤ 'z' then c.toNat - 87
  else if 'A' ≤ c ∧ c ≤ 'Z' then c.toNat - 55
  else 36

/-- The base that the front of a number tells, and the characters its digits are among. -/
def baseOf : List Char → Nat × List Char
  | '0' :: mark :: digit :: rest =>
    if (mark = 'x' ∨ mark = 'X') ∧ digitValue digit < 16 then (16, digit :: rest)
    else (8, '0' :: mark :: digit :: rest)
  | '0' :: rest => (8, '0' :: rest)
  | s => (10, s)

/-- `strtoul` in base zero: the value, and the characters from `*endptr` on. -/
def strtoul0 (s : List Char) : UInt64 × List Char :=
  let (minus, number) := signOf (s.dropWhile isSpace)
  let (base, number) := baseOf number
  let digits := number.takeWhile fun c => digitValue c < base
  if digits = [] then (0, s)
  else
    let n := digits.foldl (fun n c => base * n + digitValue c) 0
    (if 2 ^ 64 ≤ n then -1 else if minus then -UInt64.ofNat n else UInt64.ofNat n,
      number.drop digits.length)

/-- The codes of digits. -/
theorem isDigit_iff {c : Char} : c.isDigit = true ↔ 48 ≤ c.toNat ∧ c.toNat ≤ 57 :=
  Char.isDigit_iff_toNat

/-- A digit is no white space. -/
theorem not_isSpace_of_isDigit {c : Char} (digit : c.isDigit = true) : isSpace c = false := by
  have bounds := isDigit_iff.mp digit
  rw [isSpace, decide_eq_false_iff_not]
  omega

/-- A digit is no sign. -/
theorem signOf_digit {c : Char} {s : List Char} (digit : c.isDigit = true) :
    signOf (c :: s) = (false, c :: s) := by
  unfold signOf
  split
  · simp_all
  · simp_all
  · rfl

/-- Digits before anything else are read as they are. -/
theorem numeralOf_digits {digits rest : List Char} (nonempty : digits ≠ [])
    (decimal : ∀ c ∈ digits, c.isDigit = true) (ends : ∀ c ∈ rest.head?, c.isDigit = false) :
    numeralOf (digits ++ rest) = ⟨false, digits, rest⟩ := by
  obtain ⟨c, later, rfl⟩ := List.exists_cons_of_ne_nil nonempty
  have first := decimal c List.mem_cons_self
  have taken : (c :: later ++ rest).takeWhile Char.isDigit = c :: later := by
    rw [List.takeWhile_append_of_pos decimal]
    cases rest with
    | nil => simp
    | cons d rest => simp [ends d rfl]
  have dropped : (c :: later ++ rest).dropWhile Char.isDigit = rest := by
    rw [List.dropWhile_append_of_pos decimal]
    cases rest with
    | nil => simp
    | cons d rest => simp [ends d rfl]
  rw [List.cons_append] at taken dropped ⊢
  rw [numeralOf, List.dropWhile_cons_of_neg (by simp [not_isSpace_of_isDigit first]),
    signOf_digit first]
  simp only [taken, dropped]

/-- `strtoul` of digits that fit the word. -/
theorem strtoul_digits {digits rest : List Char} (nonempty : digits ≠ [])
    (decimal : ∀ c ∈ digits, c.isDigit = true) (ends : ∀ c ∈ rest.head?, c.isDigit = false)
    (fits : digitsValue digits < 2 ^ 64) :
    strtoul (digits ++ rest) = (UInt64.ofNat (digitsValue digits), rest) := by
  simp only [strtoul, numeralOf_digits nonempty decimal ends, if_neg nonempty,
    if_neg (Nat.not_le.mpr fits), Bool.false_eq_true, if_false]

/-- Digits are worth less than the power of ten of their number. -/
theorem digitsValue_lt {digits : List Char} (decimal : ∀ c ∈ digits, c.isDigit = true) :
    digitsValue digits < 10 ^ digits.length := by
  induction digits with
  | nil => simp [digitsValue]
  | cons c digits ih =>
    have bounds := isDigit_iff.mp (decimal c List.mem_cons_self)
    have later := ih fun d member => decimal d (List.mem_cons_of_mem c member)
    rw [digitsValue] at later ⊢
    rw [Nat.ofDigitChars_cons, Nat.ofDigitChars_eq_ofDigitChars_zero, List.length_cons,
      Nat.pow_succ]
    have digit : 10 * 0 + (c.toNat - '0'.toNat) ≤ 9 := by
      change 10 * 0 + (c.toNat - 48) ≤ 9
      omega
    have scaled := Nat.mul_le_mul_left (10 ^ digits.length) digit
    omega

/-- A number written with so many digits, leading zeros included. -/
def zeroPadded (width n : Nat) : List Char :=
  List.replicate (width - (Nat.toDigits 10 n).length) '0' ++ Nat.toDigits 10 n

/-- Such a number consists of digits. -/
theorem zeroPadded_decimal (width n : Nat) : ∀ c ∈ zeroPadded width n, c.isDigit = true := by
  intro c member
  rcases List.mem_append.mp member with zero | digit
  · rw [List.eq_of_mem_replicate zero]
    rfl
  · exact Nat.isDigit_of_mem_toDigits (by decide) (by decide) digit

/-- Such a number has the width asked for, when it fits. -/
theorem length_zeroPadded {width n : Nat} (positive : 0 < width) (fits : n < 10 ^ width) :
    (zeroPadded width n).length = width := by
  have short := (Nat.length_toDigits_le_iff (by decide) positive).mpr fits
  rw [zeroPadded, List.length_append, List.length_replicate]
  omega

/-- Such a number is read back. -/
theorem digitsValue_zeroPadded (width n : Nat) : digitsValue (zeroPadded width n) = n := by
  rw [digitsValue, zeroPadded, Nat.ofDigitChars_append, Nat.ofDigitChars_replicate_zero,
    Nat.mul_zero, Nat.ofDigitChars_toDigits (by decide) (by decide)]

/-- A digit survives as a byte. -/
theorem charOf_toUInt8 {c : Char} (digit : c.isDigit = true) : charOf c.toUInt8 = c := by
  have bounds := isDigit_iff.mp digit
  have byte : c.toUInt8.toNat = c.toNat := by
    change c.toNat % 256 = c.toNat
    omega
  rw [charOf, byte, Char.ofNat_toNat]

end CSem
