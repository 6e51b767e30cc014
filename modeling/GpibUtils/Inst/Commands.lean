import GpibUtils.CSem.Number
import GpibUtils.Inst.Strings
import GpibUtils.Tools.IcsconfigErrlog
import GpibUtils.Util.Hprintf

/-!
# Commands with arguments, and answers that are numbers

`inst_wrtf` writes a text that it has formatted, which is what `inst_wrtstr` does with that text
(`instWrtf_text`). `inst_qryint` reads the number that an answer begins with, and 0 when there is
none, so that an instrument whose self test is answered by a word has passed it
(`tst_passed_iff`).
-/

namespace GpibUtils.Inst

open CSem Icsconfig

/-! ## The code -/

/-- `inst_wrtf`, before it polls; `strlen` and `xstrcpyprint` read the string up to its NUL. -/
def instWrtf (line : Line) (vsnprintf : Vsnprintf) (chunks : List Chunk) : Except Stop Unit :=
  match hvsprintf vsnprintf chunks with
  | .exited => .error .memory
  | .outside => .error .outside
  | .assertion => .error .assertion
  | .text s => do
    let n ← inside s.strlen
    line.write (s.take n)
    line.printString s

/-- The size of the buffer of `inst_qryint`. -/
def qryintSize : Nat := 16

/-- `inst_qryint`, before it polls, with what is in its buffer at first. -/
def instQryint (line : Line) (str : List UInt8) (buf : Buffer) : Except Stop Int := do
  let (_, buf) ← instQrystr line str buf qryintSize
  let _ ← inside buf.strlen
  .ok (toInt (strtoul (buf.str.map charOf)).1.toNat)

/-- `inst_488_2_tst`: what is printed. -/
def inst4882Tst (line : Line) (buf : Buffer) (tab : Option (List (Int × String))) :
    Except Stop (List Char) := do
  let result ← instQryint line ("*TST?\n".toList.map Char.toUInt8) buf
  .ok (if result = 0 then "self-test: passed\n".toList
    else
      match tab with
      | some tab => "self-test: failed: ".toList ++ (findstr tab result ++ ['\n'])
      | none => "self-test: failed (code ".toList ++ (signedText result ++ ")\n".toList))

/-! ## Commands -/

/-- A text is written as it was formatted. Without memory for it the program ends, and a text that
has a NUL in it is not written at all. -/
theorem instWrtf_text (line : Line) {vsnprintf : Vsnprintf} {text : List UInt8}
    (formats : Formats vsnprintf text) (small : (text.length : Int) + chunkSize ≤ intMax)
    (chunks : List Chunk) :
    instWrtf line vsnprintf chunks =
      if chunks.length ≤ text.length / chunkSize then .error .memory
      else if 0 ∈ text then .error .assertion
      else instWrtstr line text := by
  have whole := hvsprintf_whole formats small chunks
  unfold Whole at whole
  unfold instWrtf
  by_cases none : chunks.length ≤ text.length / chunkSize
  · rw [if_pos none] at whole ⊢
    rw [whole]
  · rw [if_neg none] at whole ⊢
    by_cases zero : 0 ∈ text
    · rw [if_pos zero] at whole ⊢
      rw [whole]
    · rw [if_neg zero] at whole ⊢
      obtain ⟨rest, made, -⟩ := whole
      have plain : ∀ byte ∈ text, byte ≠ 0 := fun byte member same => zero (same ▸ member)
      simp only [made, Buffer.strlen_append plain, inside, bind, Except.bind,
        List.take_left, Line.printString_append plain, instWrtstr]
      cases line.write text <;> rfl

/-- `vsnprintf` of an older library, when what it formats is a text. -/
def oldVsnprintf (text : List UInt8) : Vsnprintf := fun str size =>
  (if (text.length : Int) < size then text.length else -1,
    text.take (size.toNat - 1) ++ 0 :: str.drop (min text.length (size.toNat - 1) + 1))

/-- It formats the text. -/
theorem oldVsnprintf_formats (text : List UInt8) : Formats (oldVsnprintf text) text where
  stores := fun _ _ => rfl
  fits := fun str room => if_pos (by omega)
  cut := fun str short => .inl (if_neg (by omega))

/-- An instrument that takes one text and no other. -/
def taking (text : List UInt8) : Line :=
  ⟨fun str => if str = text then .ok () else .error .write, .gpib [], true⟩

/-- A text of 100 bytes is written from two chunks. -/
theorem instWrtf_text_hundred :
    let text := List.replicate 100 65
    let chunk : Chunk := ⟨List.replicate 80 255, rfl⟩
    instWrtf (taking text) (oldVsnprintf text) [chunk, chunk] = .ok () := by
  intro text chunk
  have written := instWrtf_text (taking text) (oldVsnprintf_formats text) (by decide) [chunk, chunk]
  rw [if_neg (by decide), if_neg (by decide)] at written
  have takes : instWrtstr (taking text) text = .ok () := by simp [instWrtstr, taking]
  exact written.trans takes

/-! ## Numbers -/

section

variable {line : Line} {str response : List UInt8} {buf : Buffer}

/-- The characters of the string that a response becomes. -/
def answerText (response : List UInt8) : List Char := (textOf response).map charOf

/-- The number that the string of a response begins with is read. -/
theorem instQryint_delivers (accepts : line.write str = .ok ()) (nonempty : response ≠ [])
    (size : buf.length = qryintSize) (delivers : line.Delivers response (qryintSize - 1)) :
    instQryint line str buf = .ok (toInt (strtoul (answerText response)).1.toNat) := by
  have room : line.Delivers response (buf.length - 1) := by rwa [size]
  obtain ⟨rest, after, zapped, query⟩ := instQrystr_delivers accepts nonempty room
  obtain ⟨cleaned, zapped', more, same, plain⟩ :=
    zapTrailingTerminators_response (terminated response (buf.length - 1)) rest
  have string : after = textOf response ++ 0 :: more := by
    rw [Option.some.inj (zapped.symm.trans zapped'), same, textOf_terminated]
  rw [textOf_terminated] at plain
  rw [size] at query
  simp only [instQryint, query, bind, Except.bind, string, Buffer.strlen_append plain, inside,
    Buffer.str_append plain, answerText]

/-- A conversion to `int` is 0 exactly of the multiples of 2^32. -/
theorem toInt_eq_zero_iff (n : Nat) : toInt n = 0 ↔ 2 ^ 32 ∣ n := by
  rw [toInt, Int.bmod]
  split_ifs <;> omega

/-- The number at the front of a short text becomes the `int` 0 exactly when its value is a multiple
of 2^32, with a minus or without; a text that has no digits there has the value 0. -/
theorem toInt_strtoul_eq_zero {s : List Char} (short : s.length ≤ 15) :
    toInt (strtoul s).1.toNat = 0 ↔ 2 ^ 32 ∣ digitsValue (numeralOf s).digits := by
  have decimal : ∀ c ∈ (numeralOf s).digits, c.isDigit = true := fun c member =>
    List.mem_takeWhile_imp member
  have few : (numeralOf s).digits.length ≤ 15 := by
    obtain ⟨sign, -, split⟩ := exists_signOf (s.dropWhile isSpace)
    have whole := congrArg List.length split
    have blanks := (List.dropWhile_suffix isSpace (l := s)).length_le
    have front : (numeralOf s).digits.length ≤ (signOf (s.dropWhile isSpace)).2.length :=
      (List.takeWhile_prefix Char.isDigit).length_le
    rw [List.length_append] at whole
    omega
  have value := digitsValue_lt decimal
  have small : digitsValue (numeralOf s).digits < 10 ^ 15 :=
    Nat.lt_of_lt_of_le value (Nat.pow_le_pow_right (by decide) few)
  rw [toInt_eq_zero_iff, strtoul]
  dsimp only
  by_cases none : (numeralOf s).digits = []
  · rw [if_pos none, none]
    exact iff_of_true (by simp) (by decide)
  · rw [if_neg none, if_neg (by omega)]
    cases (numeralOf s).minus with
    | false =>
      rw [if_neg Bool.false_ne_true, UInt64.toNat_ofNat', Nat.mod_eq_of_lt (by omega)]
    | true =>
      have word : UInt64.size = 2 ^ 64 := rfl
      rw [if_pos rfl, UInt64.toNat_neg, UInt64.toNat_ofNat', word]
      omega

/-- The self test of an instrument is said to be passed exactly when the value of the number that
its answer begins with is a multiple of 2^32, which it also is when the answer begins with none. -/
theorem tst_passed_iff
    (accepts : line.write ("*TST?\n".toList.map Char.toUInt8) = .ok ()) (nonempty : response ≠ [])
    (size : buf.length = qryintSize) (delivers : line.Delivers response (qryintSize - 1))
    (tab : Option (List (Int × String))) :
    inst4882Tst line buf tab = .ok "self-test: passed\n".toList ↔
      2 ^ 32 ∣ digitsValue (numeralOf (answerText response)).digits := by
  have bound := delivers.1
  have short : (answerText response).length ≤ 15 := by
    have cut := (List.rdropWhile_prefix isTerminator (Buffer.str response)).length_le
    have front : (Buffer.str response).length ≤ response.length :=
      (List.takeWhile_prefix _).length_le
    unfold qryintSize at bound
    rw [answerText, List.length_map, textOf]
    omega
  rw [← toInt_strtoul_eq_zero short]
  simp only [inst4882Tst, instQryint_delivers accepts nonempty size delivers, bind, Except.bind]
  by_cases zero : toInt (strtoul (answerText response)).1.toNat = 0
  · simp [zero]
  · refine iff_of_false (fun same => ?_) zero
    have printed := Except.ok.inj same
    rw [if_neg zero] at printed
    cases tab with
    | none => cases printed
    | some tab => cases printed

end

/-- An instrument that answers with the word `FAIL` has passed its self test. -/
theorem tst_passed_word :
    inst4882Tst (answering ("FAIL\n".toList.map Char.toUInt8) true) (List.replicate qryintSize 255)
      none = .ok "self-test: passed\n".toList := by
  have delivers : (answering ("FAIL\n".toList.map Char.toUInt8) true).Delivers
      ("FAIL\n".toList.map Char.toUInt8) (qryintSize - 1) :=
    answering_delivers true (by decide) (by decide)
  exact (tst_passed_iff rfl (by decide) List.length_replicate delivers none).mpr (by decide)

end GpibUtils.Inst
