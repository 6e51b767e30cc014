import GpibUtils.CSem.Scan
import Mathlib.Data.List.TakeWhile

/-!
# Numbers as conversions read them

`strtoul` and `%d` read a number with white space and a sign in front of its digits. Such a
number is a value here, with the text it is written as; a conversion succeeds exactly on the
strings that begin with one, and stops where its digits do (`sscanf_two_iff`,
`strtoul_end_iff`).
-/

namespace CSem

/-- A number with all that a conversion lets come before its digits. -/
structure Number where
  blanks : List Char
  sign : List Char
  digits : List Char
  /-- White space. -/
  blank : ∀ c ∈ blanks, isSpace c = true
  /-- A sign or none. -/
  signed : sign = [] ∨ sign = ['+'] ∨ sign = ['-']
  nonempty : digits ≠ []
  decimal : ∀ c ∈ digits, c.isDigit = true

namespace Number

/-- The number as written. -/
def text (number : Number) : List Char := number.blanks ++ (number.sign ++ number.digits)

/-- The sign is a minus. -/
def minus (number : Number) : Bool := number.sign = ['-']

/-- The sign of a number, and what comes after it. -/
theorem signOf_sign (number : Number) (rest : List Char) :
    signOf (number.sign ++ (number.digits ++ rest)) = (number.minus, number.digits ++ rest) := by
  obtain ⟨c, digits, split⟩ := List.exists_cons_of_ne_nil number.nonempty
  have digit := number.decimal c (split ▸ List.mem_cons_self)
  rcases number.signed with none | plus | minus
  · rw [minus, none, split]
    exact signOf_digit digit
  · rw [Number.minus, plus]
    rfl
  · rw [Number.minus, minus]
    rfl

/-- White space ends where the sign or the digits begin. -/
theorem dropWhile_text (number : Number) (rest : List Char) :
    (number.text ++ rest).dropWhile isSpace = number.sign ++ (number.digits ++ rest) := by
  obtain ⟨c, digits, split⟩ := List.exists_cons_of_ne_nil number.nonempty
  have digit := number.decimal c (split ▸ List.mem_cons_self)
  rw [text, List.append_assoc, List.dropWhile_append_of_pos number.blank, List.append_assoc]
  rcases number.signed with none | plus | minus
  · rw [none, split, List.nil_append, List.cons_append,
      List.dropWhile_cons_of_neg (by simp [not_isSpace_of_isDigit digit])]
  · rw [plus]
    rfl
  · rw [minus]
    rfl

/-- A conversion reads a number, with the digits that may follow it. -/
theorem numeralOf_text (number : Number) (rest : List Char) :
    numeralOf (number.text ++ rest) =
      ⟨number.minus, number.digits ++ rest.takeWhile Char.isDigit,
        rest.dropWhile Char.isDigit⟩ := by
  rw [numeralOf, dropWhile_text, signOf_sign]
  dsimp only
  rw [List.takeWhile_append_of_pos number.decimal, List.dropWhile_append_of_pos number.decimal]

end Number

/-- What has a sign that is read begins with it. -/
theorem exists_signOf (s : List Char) :
    ∃ sign, (sign = [] ∨ sign = ['+'] ∨ sign = ['-']) ∧ s = sign ++ (signOf s).2 := by
  unfold signOf
  split
  · exact ⟨['+'], .inr (.inl rfl), rfl⟩
  · exact ⟨['-'], .inr (.inr rfl), rfl⟩
  · exact ⟨[], .inl rfl, rfl⟩

/-- What a conversion reads as a number begins with one. -/
theorem exists_number {s : List Char} (some : (numeralOf s).digits ≠ []) :
    ∃ number : Number, s = number.text ++ (numeralOf s).rest := by
  obtain ⟨sign, signed, split⟩ := exists_signOf (s.dropWhile isSpace)
  let after := (signOf (s.dropWhile isSpace)).2
  have decimal : ∀ c ∈ after.takeWhile Char.isDigit, c.isDigit = true :=
    fun c member => List.mem_takeWhile_imp member
  have blank : ∀ c ∈ s.takeWhile isSpace, isSpace c = true :=
    fun c member => List.mem_takeWhile_imp member
  refine ⟨⟨s.takeWhile isSpace, sign, after.takeWhile Char.isDigit, blank, signed, some,
    decimal⟩, ?_⟩
  calc
    s = s.takeWhile isSpace ++ s.dropWhile isSpace := List.takeWhile_append_dropWhile.symm
    _ = s.takeWhile isSpace ++ (sign ++ after) := congrArg _ split
    _ = s.takeWhile isSpace ++ (sign ++ (after.takeWhile Char.isDigit ++
          after.dropWhile Char.isDigit)) := by rw [List.takeWhile_append_dropWhile]
    _ = _ := by
      simp only [Number.text, List.append_assoc]
      rfl

/-- A conversion that succeeds has read a number. -/
theorem scanInt_eq_some {s rest : List Char} {n : Int} (read : scanInt s = some (n, rest)) :
    ∃ number : Number, s = number.text ++ rest := by
  simp only [scanInt] at read
  split at read
  · cases read
  · rename_i some
    obtain ⟨number, split⟩ := exists_number some
    have same := (Prod.mk.inj (Option.some.inj read)).2
    exact ⟨number, same ▸ split⟩

/-- A number is read, up to where its digits end. -/
theorem scanInt_text (number : Number) (rest : List Char) :
    ∃ n, scanInt (number.text ++ rest) = some (n, rest.dropWhile Char.isDigit) := by
  simp [scanInt, number.numeralOf_text, number.nonempty]

/-- Two numbers are read with a character between them exactly from what begins so. -/
theorem sscanf_two_iff {c : Char} (other : c.isDigit = false) (s : List Char) :
    (sscanf [.int, .lit c, .int] s).length = 2 ↔
      ∃ (first second : Number) (rest : List Char),
        s = first.text ++ c :: (second.text ++ rest) := by
  constructor
  · intro two
    cases first : scanInt s with
    | none => simp [sscanf, first] at two
    | some found =>
      obtain ⟨n, middle⟩ := found
      cases middle with
      | nil => simp [sscanf, first] at two
      | cons d tail =>
        by_cases same : d = c
        · cases second : scanInt tail with
          | none => simp [sscanf, first, second, same] at two
          | some found =>
            obtain ⟨number, split⟩ := scanInt_eq_some first
            obtain ⟨later, split'⟩ := scanInt_eq_some second
            exact ⟨number, later, found.2, by rw [split, same, split']⟩
        · simp [sscanf, first, same] at two
  · rintro ⟨first, second, rest, rfl⟩
    obtain ⟨m, front⟩ := scanInt_text first (c :: (second.text ++ rest))
    obtain ⟨n, back⟩ := scanInt_text second rest
    rw [List.dropWhile_cons_of_neg (by simp [other])] at front
    simp [sscanf, front, back]

/-- `strtoul` reads to the end exactly of a number, and of the empty string. -/
theorem strtoul_end_iff (s : List Char) :
    (strtoul s).2 = [] ↔ s = [] ∨ ∃ number : Number, s = number.text := by
  constructor
  · intro whole
    simp only [strtoul] at whole
    split at whole
    · exact .inl whole
    · rename_i some
      obtain ⟨number, split⟩ := exists_number some
      rw [show (numeralOf s).rest = [] from whole, List.append_nil] at split
      exact .inr ⟨number, split⟩
  · rintro (rfl | ⟨number, rfl⟩)
    · rfl
    · have read := number.numeralOf_text []
      rw [List.append_nil] at read
      simp [strtoul, read, number.nonempty]

end CSem
