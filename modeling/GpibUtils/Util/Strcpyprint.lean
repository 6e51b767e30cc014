import GpibUtils.CSem.Buffer
import GpibUtils.CSem.Heap

/-!
# Strings made printable, and back

`xstrcpyprint` writes carriage returns and newlines as a backslash and a letter, and leaves
backslashes alone; `xstrcpyunprint` reads two backslashes as one. So the second undoes the first
exactly for strings whose backslashes cannot be read in another way (`unprinted_printed_iff`).
Both stay within the memory they allocate. Allocation succeeds.
-/

namespace GpibUtils.Util

open CSem

/-- The backslash. -/
def backslash : UInt8 := 92

/-- What `xstrcpyprint` appends for a character. -/
def printChar (c : UInt8) : List UInt8 :=
  if c = '\n'.toUInt8 then [backslash, 'n'.toUInt8]
  else if c = '\r'.toUInt8 then [backslash, 'r'.toUInt8]
  else Buffer.str [c]

/-- What `xstrcpyunprint` appends for a character behind a backslash. -/
def unprintChar (c : UInt8) : List UInt8 :=
  if c = 'r'.toUInt8 then ['\r'.toUInt8]
  else if c = 'n'.toUInt8 then ['\n'.toUInt8]
  else if c = backslash then [backslash]
  else backslash :: Buffer.str [c]

variable (heap : Heap UInt8)

/-- The loop of `xstrcpyprint`, with so many characters to go from an index on. -/
def printLoop (str : Buffer) : Nat → Nat → Buffer → Option Buffer
  | 0, _, cpy => some cpy
  | left + 1, i, cpy => do
    let c ← str.load i
    let cpy ← cpy.strcat (printChar c)
    printLoop str left (i + 1) cpy

/-- `xstrcpyprint` -/
def xstrcpyprint (str : Buffer) : Option Buffer := do
  let length ← str.strlen
  let cpy ← Buffer.store (heap.malloc (length * 2 + 1)) 0 0
  printLoop str length 0 cpy

/-- The loop of `xstrcpyunprint`; `esc` is set behind a backslash. -/
def unprintLoop (str : Buffer) : Nat → Nat → Bool → Buffer → Option Buffer
  | 0, _, _, cpy => some cpy
  | left + 1, i, esc, cpy => do
    let c ← str.load i
    if esc then
      let cpy ← cpy.strcat (unprintChar c)
      unprintLoop str left (i + 1) false cpy
    else if c = backslash then unprintLoop str left (i + 1) true cpy
    else
      let cpy ← cpy.strcat (Buffer.str [c])
      unprintLoop str left (i + 1) false cpy

/-- `xstrcpyunprint` -/
def xstrcpyunprint (str : Buffer) : Option Buffer := do
  let length ← str.strlen
  let cpy ← Buffer.store (heap.malloc (length + 1)) 0 0
  unprintLoop str length 0 false cpy

/-! ## On strings -/

/-- The string that `xstrcpyprint` makes. -/
def printed (s : List UInt8) : List UInt8 := s.flatMap printChar

/-- The string that `xstrcpyunprint` makes. -/
def unprinted : Bool → List UInt8 → List UInt8
  | _, [] => []
  | true, c :: s => unprintChar c ++ unprinted false s
  | false, c :: s => if c = backslash then unprinted true s else c :: unprinted false s

/-- A block that has been given an empty string. -/
theorem malloc_store (size : Nat) :
    ∃ room, Buffer.store (heap.malloc (size + 1)) 0 0 = some (0 :: room) ∧ room.length = size := by
  have length := heap.length_malloc (size + 1)
  cases block : heap.malloc (size + 1) with
  | nil =>
    rw [block] at length
    cases length
  | cons byte room =>
    rw [block] at length
    exact ⟨room, Buffer.store_append [] room byte 0, Nat.succ.inj length⟩

/-- A character as a string. -/
theorem str_single {c : UInt8} (plain : c ≠ 0) : Buffer.str [c] = [c] := by
  simp [Buffer.str, plain]

/-- One character that is no NUL. -/
theorem single_plain {c : UInt8} (plain : c ≠ 0) : ∀ byte ∈ [c], byte ≠ 0 := by
  simpa using plain

/-- Two characters that are no NUL. -/
theorem pair_plain {c d : UInt8} (first : c ≠ 0) (second : d ≠ 0) : ∀ byte ∈ [c, d], byte ≠ 0 :=
  List.forall_mem_cons.mpr ⟨first, single_plain second⟩

/-- No NUL is appended for a character, and no more than two characters. -/
theorem printChar_plain {c : UInt8} (plain : c ≠ 0) :
    (printChar c).length ≤ 2 ∧ ∀ byte ∈ printChar c, byte ≠ 0 := by
  rw [printChar, str_single plain]
  split
  · exact ⟨Nat.le_refl 2, pair_plain (by decide) (by decide)⟩
  · split
    · exact ⟨Nat.le_refl 2, pair_plain (by decide) (by decide)⟩
    · exact ⟨Nat.le_succ 1, single_plain plain⟩

/-- No NUL is appended for a character behind a backslash, and no more than both. -/
theorem unprintChar_plain {c : UInt8} (plain : c ≠ 0) :
    (unprintChar c).length ≤ 2 ∧ ∀ byte ∈ unprintChar c, byte ≠ 0 := by
  rw [unprintChar, str_single plain]
  split
  · exact ⟨Nat.le_succ 1, single_plain (by decide)⟩
  · split
    · exact ⟨Nat.le_succ 1, single_plain (by decide)⟩
    · split
      · exact ⟨Nat.le_succ 1, single_plain (by decide)⟩
      · exact ⟨Nat.le_refl 2, pair_plain (by decide) plain⟩

/-- What is appended is plain when both parts are. -/
theorem append_plain {out more : List UInt8} (plain : ∀ byte ∈ out, byte ≠ 0)
    (added : ∀ byte ∈ more, byte ≠ 0) : ∀ byte ∈ out ++ more, byte ≠ 0 :=
  fun byte member => (List.mem_append.mp member).elim (plain byte) (added byte)

/-- The loop of `xstrcpyprint` appends the printable string, where there is room for two characters
for each one to go. -/
theorem printLoop_eq (front rest : List UInt8) {s : List UInt8} (plain : ∀ byte ∈ s, byte ≠ 0)
    {out room : List UInt8} (clean : ∀ byte ∈ out, byte ≠ 0)
    (enough : s.length * 2 ≤ room.length) :
    ∃ after, printLoop (front ++ (s ++ rest)) s.length front.length (out ++ 0 :: room) =
      some (out ++ printed s ++ 0 :: after) := by
  induction s generalizing front out room with
  | nil => exact ⟨room, by simp [printLoop, printed]⟩
  | cons c s ih =>
    have first := printChar_plain (plain c List.mem_cons_self)
    have fits : (printChar c).length ≤ room.length := by
      rw [List.length_cons] at enough
      omega
    have left : s.length * 2 ≤ (room.drop (printChar c).length).length := by
      rw [List.length_drop]
      rw [List.length_cons] at enough
      omega
    have later := fun byte member => plain byte (List.mem_cons_of_mem c member)
    obtain ⟨after, loop⟩ := ih (front ++ [c]) later (append_plain clean first.2) left
    refine ⟨after, ?_⟩
    rw [List.append_assoc, List.length_append] at loop
    rw [List.length_cons, printLoop, List.cons_append, Buffer.load_append]
    simp only [Option.bind_eq_bind, Option.bind_some]
    rw [Buffer.strcat_append clean fits, Option.bind_some]
    rw [printed, List.flatMap_cons, ← List.append_assoc]
    exact loop

/-- The loop of `xstrcpyunprint` appends the string that was printed, where there is room for what
is to go, and for a backslash that has been read. -/
theorem unprintLoop_eq (front rest : List UInt8) {s : List UInt8}
    (plain : ∀ byte ∈ s, byte ≠ 0) (esc : Bool) {out room : List UInt8}
    (clean : ∀ byte ∈ out, byte ≠ 0) (enough : s.length + esc.toNat ≤ room.length) :
    ∃ after, unprintLoop (front ++ (s ++ rest)) s.length front.length esc (out ++ 0 :: room) =
      some (out ++ unprinted esc s ++ 0 :: after) := by
  induction s generalizing front esc out room with
  | nil => exact ⟨room, by simp [unprintLoop, unprinted]⟩
  | cons c s ih =>
    have nonzero := plain c List.mem_cons_self
    have later := fun byte member => plain byte (List.mem_cons_of_mem c member)
    rw [List.length_cons] at enough
    have step := fun (esc : Bool) {out room : List UInt8} =>
      @ih (front ++ [c]) later esc out room
    simp only [List.append_assoc, List.length_append] at step
    rw [List.length_cons, unprintLoop, List.cons_append, Buffer.load_append]
    simp only [Option.bind_eq_bind, Option.bind_some]
    -- What is appended for a character needs no more room than there is.
    have appends : ∀ {text : List UInt8}, (∀ byte ∈ text, byte ≠ 0) →
        s.length + text.length ≤ room.length →
          ∃ after, ((Buffer.strcat (out ++ 0 :: room) text).bind fun cpy =>
            unprintLoop (front ++ c :: (s ++ rest)) s.length (front.length + 1) false cpy) =
              some (out ++ (text ++ unprinted false s) ++ 0 :: after) := by
      intro text unbroken fits
      have left : s.length + false.toNat ≤ (room.drop text.length).length := by
        rw [List.length_drop, Bool.toNat_false]
        omega
      obtain ⟨after, loop⟩ := step false (append_plain clean unbroken) left
      refine ⟨after, ?_⟩
      rw [Buffer.strcat_append clean (Nat.le_of_add_left_le fits), Option.bind_some]
      simpa using loop
    cases esc with
    | true =>
      have first := unprintChar_plain nonzero
      rw [Bool.toNat_true] at enough
      rw [if_pos rfl, unprinted]
      exact appends first.2 (by omega)
    | false =>
      rw [Bool.toNat_false] at enough
      rw [if_neg Bool.false_ne_true, unprinted]
      by_cases escape : c = backslash
      · obtain ⟨after, loop⟩ := step true clean (by rw [Bool.toNat_true]; omega)
        refine ⟨after, ?_⟩
        rw [if_pos escape, if_pos escape]
        simpa using loop
      · have single : Buffer.str [c] = [c] := str_single nonzero
        rw [if_neg escape, if_neg escape, single]
        exact appends (single_plain nonzero) (by rw [List.length_singleton]; omega)

/-! ## What can be read back -/

/-- What stands behind a backslash begins with a character that the backslash does not change. -/
def ReadsOn (s : List UInt8) : Prop :=
  ∃ c ∈ s.head?, c ∉ ['n'.toUInt8, 'r'.toUInt8, '\n'.toUInt8, '\r'.toUInt8, backslash]

instance (s : List UInt8) : Decidable (ReadsOn s) :=
  inferInstanceAs (Decidable (∃ c ∈ s.head?, _))

/-- Behind every backslash is a character that it does not change. -/
def Unambiguous (s : List UInt8) : Prop :=
  ∀ front back, s = front ++ backslash :: back → ReadsOn back

/-- The first character, and those behind it. -/
theorem unambiguous_cons {c : UInt8} {s : List UInt8} :
    Unambiguous (c :: s) ↔ (c = backslash → ReadsOn s) ∧ Unambiguous s := by
  constructor
  · intro whole
    refine ⟨fun escape => whole [] s (by rw [escape]; rfl), fun front back split => ?_⟩
    exact whole (c :: front) back (by rw [split]; rfl)
  · rintro ⟨first, later⟩ front back split
    cases front with
    | nil =>
      have parts := List.cons.inj split
      exact parts.2 ▸ first parts.1
    | cons d front => exact later front back (List.cons.inj split).2

/-- What is read back for a character that was printed behind a backslash. -/
def behind (c : UInt8) : List UInt8 :=
  if c = '\n'.toUInt8 then [backslash, 'n'.toUInt8]
  else if c = '\r'.toUInt8 then [backslash, 'r'.toUInt8]
  else unprintChar c

/-- A character that was printed is read back, unless it is a backslash. -/
theorem unprinted_false {c : UInt8} (plain : c ≠ 0) (s : List UInt8) :
    unprinted false (printed (c :: s)) =
      if c = backslash then unprinted true (printed s) else c :: unprinted false (printed s) := by
  rw [printed, List.flatMap_cons, ← printed, printChar, str_single plain]
  split
  case isTrue newline =>
    subst newline
    rfl
  case isFalse =>
    split
    case isTrue carriage =>
      subst carriage
      rfl
    case isFalse => rfl

/-- A character that was printed behind a backslash is read back with it. -/
theorem unprinted_true {c : UInt8} (plain : c ≠ 0) (s : List UInt8) :
    unprinted true (printed (c :: s)) = behind c ++ unprinted false (printed s) := by
  rw [printed, List.flatMap_cons, ← printed, printChar, str_single plain, behind]
  split
  · rfl
  · split
    · rfl
    · rfl

/-- What is read back for a character is short. -/
theorem length_behind_le {c : UInt8} (plain : c ≠ 0) : (behind c).length ≤ 2 := by
  rw [behind]
  split
  · exact Nat.le_refl 2
  · split
    · exact Nat.le_refl 2
    · exact (unprintChar_plain plain).1

/-- A character that a backslash does not change is read back with it. -/
theorem behind_of_readsOn {c : UInt8} {s : List UInt8} (plain : c ≠ 0) (reads : ReadsOn (c :: s)) :
    behind c = [backslash, c] := by
  obtain ⟨first, same, other⟩ := reads
  cases Option.some.inj same
  simp only [List.mem_cons, List.not_mem_nil, or_false, not_or] at other
  rw [behind, if_neg other.2.2.1, if_neg other.2.2.2.1, unprintChar, if_neg other.2.1,
    if_neg other.1, if_neg other.2.2.2.2, str_single plain]

/-- A character that a backslash changes is read back as itself by taking too much. -/
theorem behind_of_not_readsOn {c : UInt8} {s more : List UInt8} (changed : ¬ ReadsOn (c :: s))
    (back : behind c ++ more = backslash :: c :: s) : s.length < more.length := by
  have ambiguous :
      c ∈ ['n'.toUInt8, 'r'.toUInt8, '\n'.toUInt8, '\r'.toUInt8, backslash] := by
    by_contra other
    exact changed ⟨c, rfl, other⟩
  simp only [List.mem_cons, List.not_mem_nil, or_false] at ambiguous
  rcases ambiguous with letter | letter | newline | carriage | escape
  · subst letter
    exact absurd (List.cons.inj back).1 (by decide)
  · subst letter
    exact absurd (List.cons.inj back).1 (by decide)
  · subst newline
    exact absurd (List.cons.inj (List.cons.inj back).2).1 (by decide)
  · subst carriage
    exact absurd (List.cons.inj (List.cons.inj back).2).1 (by decide)
  · subst escape
    have rest : more = backslash :: s := (List.cons.inj back).2
    rw [rest]
    exact Nat.lt_succ_self _

/-- What is read back is no longer than what was printed. -/
theorem length_unprinted_le (esc : Bool) {s : List UInt8} (plain : ∀ byte ∈ s, byte ≠ 0) :
    (unprinted esc (printed s)).length ≤ s.length + esc.toNat := by
  induction s generalizing esc with
  | nil => exact Nat.zero_le _
  | cons c s ih =>
    have nonzero := plain c List.mem_cons_self
    have later := fun esc => ih esc fun byte member => plain byte (List.mem_cons_of_mem c member)
    cases esc with
    | true =>
      have rest := later false
      have two := length_behind_le nonzero
      rw [unprinted_true nonzero, List.length_append, List.length_cons]
      rw [Bool.toNat_false] at rest
      rw [Bool.toNat_true]
      omega
    | false =>
      rw [unprinted_false nonzero, List.length_cons]
      split
      · exact later true
      · exact Nat.succ_le_succ (later false)

/-- Printing can be undone exactly when no backslash can be read in another way. -/
theorem unprinted_printed_iff (esc : Bool) {s : List UInt8} (plain : ∀ byte ∈ s, byte ≠ 0) :
    unprinted esc (printed s) = (if esc then backslash :: s else s) ↔
      (esc = true → ReadsOn s) ∧ Unambiguous s := by
  induction s generalizing esc with
  | nil =>
    have never : ¬ ReadsOn [] := by decide
    have always : Unambiguous [] := fun front back split => by simp at split
    cases esc with
    | true => simp [printed, unprinted, never]
    | false => simp [printed, unprinted, always]
  | cons c s ih =>
    have nonzero := plain c List.mem_cons_self
    have clean := fun byte member => plain byte (List.mem_cons_of_mem c member)
    have later := fun esc => ih esc clean
    cases esc with
    | true =>
      have rest := later false
      rw [if_neg Bool.false_ne_true] at rest
      rw [unprinted_true nonzero, if_pos rfl, unambiguous_cons]
      by_cases reads : ReadsOn (c :: s)
      · have other : c ≠ backslash := by
          rintro rfl
          obtain ⟨first, same, other⟩ := reads
          cases Option.some.inj same
          exact other (by decide)
        rw [behind_of_readsOn nonzero reads]
        simp [reads, other, rest]
      · constructor
        · intro back
          have short := length_unprinted_le false clean
          have long := behind_of_not_readsOn reads back
          rw [Bool.toNat_false] at short
          omega
        · rintro ⟨opens, _⟩
          exact absurd (opens rfl) reads
    | false =>
      rw [unprinted_false nonzero, if_neg Bool.false_ne_true, unambiguous_cons]
      by_cases escape : c = backslash
      · have rest := later true
        rw [if_pos rfl] at rest
        rw [if_pos escape, escape, rest]
        simp
      · have rest := later false
        rw [if_neg Bool.false_ne_true] at rest
        rw [if_neg escape, List.cons.injEq, rest]
        simp [escape]

/-! ## In memory -/

/-- `xstrcpyprint` stays within its block, and makes the printable string. -/
theorem xstrcpyprint_eq {s : List UInt8} (plain : ∀ byte ∈ s, byte ≠ 0) (rest : List UInt8) :
    ∃ after, xstrcpyprint heap (s ++ 0 :: rest) = some (printed s ++ 0 :: after) := by
  obtain ⟨room, stored, size⟩ := malloc_store heap (s.length * 2)
  have empty : ∀ byte ∈ ([] : List UInt8), byte ≠ 0 := by simp
  obtain ⟨after, loop⟩ := printLoop_eq [] (0 :: rest) plain empty (Nat.le_of_eq size.symm)
  refine ⟨after, ?_⟩
  rw [xstrcpyprint, Buffer.strlen_append plain, Option.bind_eq_bind, Option.bind_some, stored]
  exact loop

/-- `xstrcpyunprint` stays within its block, and makes the string that was printed. -/
theorem xstrcpyunprint_eq {s : List UInt8} (plain : ∀ byte ∈ s, byte ≠ 0) (rest : List UInt8) :
    ∃ after, xstrcpyunprint heap (s ++ 0 :: rest) = some (unprinted false s ++ 0 :: after) := by
  obtain ⟨room, stored, size⟩ := malloc_store heap s.length
  have empty : ∀ byte ∈ ([] : List UInt8), byte ≠ 0 := by simp
  obtain ⟨after, loop⟩ := unprintLoop_eq [] (0 :: rest) plain false empty (Nat.le_of_eq size.symm)
  refine ⟨after, ?_⟩
  rw [xstrcpyunprint, Buffer.strlen_append plain, Option.bind_eq_bind, Option.bind_some, stored]
  exact loop

/-- No NUL is in a printable string. -/
theorem printed_plain {s : List UInt8} (plain : ∀ byte ∈ s, byte ≠ 0) :
    ∀ byte ∈ printed s, byte ≠ 0 := by
  intro byte member
  obtain ⟨c, inside, from_c⟩ := List.mem_flatMap.mp member
  exact (printChar_plain (plain c inside)).2 byte from_c

/-- No NUL is in what is read back. -/
theorem unprinted_plain (esc : Bool) {s : List UInt8} (plain : ∀ byte ∈ s, byte ≠ 0) :
    ∀ byte ∈ unprinted esc s, byte ≠ 0 := by
  induction s generalizing esc with
  | nil => exact fun byte member => nomatch member
  | cons c s ih =>
    have nonzero := plain c List.mem_cons_self
    have later := fun esc => ih esc fun byte member => plain byte (List.mem_cons_of_mem c member)
    cases esc with
    | true => exact append_plain (unprintChar_plain nonzero).2 (later false)
    | false =>
      rw [unprinted]
      split
      · exact later true
      · exact List.forall_mem_cons.mpr ⟨nonzero, later false⟩

/-- The string that comes of `xstrcpyunprint(xstrcpyprint(str))`, `none` when one of them goes
outside its memory. -/
def printedAndBack (str : Buffer) : Option (List UInt8) := do
  let cpy ← xstrcpyprint heap str
  let back ← xstrcpyunprint heap cpy
  some back.str

/-- `xstrcpyprint` and `xstrcpyunprint` stay within their memory; the second undoes the first
exactly when no backslash of the string can be read in another way. -/
theorem printedAndBack_eq_iff (bytes rest : List UInt8) :
    (∃ cpy, xstrcpyprint heap (bytes ++ 0 :: rest) = some cpy) ∧
      (∃ cpy, xstrcpyunprint heap (bytes ++ 0 :: rest) = some cpy) ∧
      (printedAndBack heap (bytes ++ 0 :: rest) = some (Buffer.str bytes) ↔
        Unambiguous (Buffer.str bytes)) := by
  obtain ⟨more, split, plain⟩ := Buffer.exists_str bytes rest
  rw [split]
  obtain ⟨after, print⟩ := xstrcpyprint_eq heap plain more
  obtain ⟨_, unprint⟩ := xstrcpyunprint_eq heap plain more
  refine ⟨⟨_, print⟩, ⟨_, unprint⟩, ?_⟩
  have clean := printed_plain plain
  obtain ⟨_, back⟩ := xstrcpyunprint_eq heap clean after
  have same : printedAndBack heap (Buffer.str bytes ++ 0 :: more) =
      some (unprinted false (printed (Buffer.str bytes))) := by
    simp only [printedAndBack, print, back, Option.bind_eq_bind, Option.bind_some,
      Buffer.str_append (unprinted_plain false clean)]
  have whole := unprinted_printed_iff false plain
  rw [if_neg Bool.false_ne_true] at whole
  rw [same, Option.some.injEq, whole]
  simp

/-- Memory full of zeros. -/
def zeroed : Heap UInt8 where
  malloc size := List.replicate size 0
  length_malloc _ := List.length_replicate

/-- A backslash and the letter n come back as a newline. -/
theorem backslash_n_comes_back_as_newline :
    ¬ printedAndBack zeroed [92, 110, 0] = some (Buffer.str [92, 110]) := by
  decide

end GpibUtils.Util
