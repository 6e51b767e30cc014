import GpibUtils.CSem.Text

/-!
# Scanning by a format

`sscanf` with formats made of `%d` and literal characters. A conversion skips white space and
reads a number as `strtol` does; a literal character must come next as it is. Scanning stops at
the first directive that fails, and what follows the last directive is not looked at.
-/

namespace CSem

/-- One directive of a format. -/
inductive Directive where
  /-- `%d` -/
  | int
  /-- A character other than `%` and white space. -/
  | lit (c : Char)

/-- `%d`: the value stored, and the characters after the number. A number beyond `long` is its
nearest bound there, and the `int` keeps the low bits. -/
def scanInt (s : List Char) : Option (Int × List Char) :=
  let num := numeralOf s
  if num.digits = [] then none
  else
    let n : Int := digitsValue num.digits
    let long := if num.minus then max (-2 ^ 63) (-n) else min (2 ^ 63 - 1) n
    some (toInt long, num.rest)

/-- `sscanf`: the values stored, in order; the value returned is their number. -/
def sscanf : List Directive → List Char → List Int
  | [], _ => []
  | .int :: format, s =>
    match scanInt s with
    | none => []
    | some (n, rest) => n :: sscanf format rest
  | .lit c :: format, s =>
    match s with
    | [] => []
    | d :: rest => if d = c then sscanf format rest else []

/-- The conversions of a format. -/
def conversions (format : List Directive) : Nat :=
  format.countP fun directive => directive matches .int

/-- A longer format stores what a shorter one does, and then more. -/
theorem take_sscanf_append (format more : List Directive) (s : List Char) :
    (sscanf (format ++ more) s).take (conversions format) = sscanf format s := by
  induction format generalizing s with
  | nil => simp [conversions, sscanf]
  | cons directive format ih =>
    cases directive with
    | int =>
      cases scan : scanInt s with
      | none => simp [sscanf, scan]
      | some found => simpa [sscanf, scan, conversions] using ih found.2
    | lit c =>
      cases s with
      | nil => simp [sscanf]
      | cons d rest =>
        by_cases same : d = c
        · simpa [sscanf, same, conversions] using ih rest
        · simp [sscanf, same]

/-- Digits are read up to the character that ends them. -/
theorem scanInt_digits {digits rest : List Char} (nonempty : digits ≠ [])
    (decimal : ∀ c ∈ digits, c.isDigit = true) (ends : ∀ c ∈ rest.head?, c.isDigit = false) :
    scanInt (digits ++ rest) = some (toInt (min (2 ^ 63 - 1) (digitsValue digits)), rest) := by
  simp [scanInt, numeralOf_digits nonempty decimal ends, nonempty]

/-- Digits that fit an `int` are read as their value. -/
theorem scanInt_fits {digits rest : List Char} (nonempty : digits ≠ [])
    (decimal : ∀ c ∈ digits, c.isDigit = true) (ends : ∀ c ∈ rest.head?, c.isDigit = false)
    (fits : (digitsValue digits : Int) ≤ intMax) :
    scanInt (digits ++ rest) = some ((digitsValue digits : Int), rest) := by
  have long : min (2 ^ 63 - 1) (digitsValue digits : Int) = digitsValue digits := by
    unfold intMax at fits
    omega
  rw [scanInt_digits nonempty decimal ends, long, toInt_of_range (by omega) fits]

/-- A string that begins with neither white space nor a sign begins with its digits. -/
theorem numeralOf_plain {s : List Char}
    (plain : ∀ c ∈ s.head?, isSpace c = false ∧ c ≠ '+' ∧ c ≠ '-') :
    numeralOf s = ⟨false, s.takeWhile Char.isDigit, s.dropWhile Char.isDigit⟩ := by
  cases s with
  | nil => rfl
  | cons c s =>
    obtain ⟨blank, plus, minus⟩ := plain c rfl
    have sign : signOf (c :: s) = (false, c :: s) := by
      unfold signOf
      split
      · simp_all
      · simp_all
      · rfl
    rw [numeralOf, List.dropWhile_cons_of_neg (by simp [blank]), sign]

/-- A number that another character than the next literal ends is the last one read. -/
theorem sscanf_stuck {s : List Char} {c d : Char} {rest : List Char} (format : List Directive)
    (plain : ∀ c ∈ s.head?, isSpace c = false ∧ c ≠ '+' ∧ c ≠ '-')
    (next : s.dropWhile Char.isDigit = d :: rest) (other : d ≠ c) :
    (sscanf (.int :: .lit c :: format) s).length ≤ 1 := by
  cases scan : scanInt s with
  | none => simp [sscanf, scan]
  | some found =>
    have after : found.2 = d :: rest := by
      rw [scanInt, numeralOf_plain plain] at scan
      split at scan
      · cases scan
      · rw [← Option.some.inj scan]
        exact next
    simp [sscanf, scan, after, other]

end CSem
