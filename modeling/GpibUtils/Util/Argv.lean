import GpibUtils.CSem.Heap
import GpibUtils.CSem.Text
import GpibUtils.Words

/-!
# Splitting a command line

`argv.c` counts the words of a command line first, and then copies that many of them. Both scans
are modelled; the words are those of the line (`argvCreate_words`). Allocation succeeds. The last
part has the array that the words are put into, and the pointer that goes over the line
(`argvCreateAt_words`).
-/

namespace GpibUtils.Util

open CSem Words

/-- `isspace(*str) || strchr(ignore, *str)` -/
def isSeparator (ignore : List Char) (c : Char) : Bool := isSpace c || ignore.contains c

variable (ignore : List Char)

/-- `_nextargv`: a copy of the first word, `none` for NULL, and the string after it. -/
def nextargv (str : List Char) : Option (List Char) × List Char :=
  let str := str.dropWhile (isSeparator ignore)
  let word := str.takeWhile fun c => !isSeparator ignore c
  let str := str.dropWhile fun c => !isSeparator ignore c
  (if 0 < word.length then some word else none, str)

/-- The `do` loop of `_sizeargv`. -/
def sizeargvLoop : Nat → List Char → Nat → Nat
  | 0, _, count => count
  | passes + 1, str, count =>
    let str := str.dropWhile (isSeparator ignore)
    let count := if str = [] then count else count + 1
    let str := str.dropWhile fun c => !isSeparator ignore c
    if str = [] then count else sizeargvLoop passes str count

/-- `_sizeargv`: every pass but the last leaves a shorter string. -/
def sizeargv (str : List Char) : Nat := sizeargvLoop ignore (str.length + 1) str 0

/-- The loop of `argv_create`: so many words, or `none` when there are not as many. -/
def fillArgv : Nat → List Char → Option (List (List Char))
  | 0, _ => some []
  | argc + 1, cmdline =>
    match nextargv ignore cmdline with
    | (none, _) => none
    | (some word, cmdline) => (fillArgv argc cmdline).map (word :: ·)

/-- `argv_create`: the words before the terminating NULL, or `none` for NULL. -/
def argvCreate (cmdline : List Char) : Option (List (List Char)) :=
  fillArgv ignore (sizeargv ignore cmdline) cmdline

variable {ignore}

/-- The loop of `_sizeargv` counts the words. -/
theorem sizeargvLoop_words {passes : Nat} {str : List Char} (enough : str.length < passes)
    (count : Nat) :
    sizeargvLoop ignore passes str count =
      count + (words (isSeparator ignore) str).length := by
  induction passes generalizing str count with
  | zero => omega
  | succ passes ih =>
    rw [sizeargvLoop]
    by_cases blank : str.dropWhile (isSeparator ignore) = []
    · have nothing : words (isSeparator ignore) str = [] := by
        rw [← words_dropWhile, blank, words_nil]
      simp [blank, nothing]
    · have shorter := length_after_first blank
      simp only [words_skipped blank, if_neg blank, List.length_cons]
      split
      case isTrue ends => rw [ends, words_nil, List.length_nil]
      case isFalse goes =>
        rw [ih (by omega)]
        omega

/-- `_sizeargv` counts the words. -/
theorem sizeargv_words (str : List Char) :
    sizeargv ignore str = (words (isSeparator ignore) str).length := by
  rw [sizeargv, sizeargvLoop_words (Nat.lt_succ_self _), Nat.zero_add]

/-- `_nextargv` takes the first word off. -/
theorem nextargv_word {str word : List Char} {later : List (List Char)}
    (first : words (isSeparator ignore) str = word :: later) :
    (nextargv ignore str).1 = some word ∧
      words (isSeparator ignore) (nextargv ignore str).2 = later := by
  have more : str.dropWhile (isSeparator ignore) ≠ [] := by
    intro blank
    rw [← words_dropWhile, blank, words_nil] at first
    cases first
  rw [words_skipped more] at first
  have parts := List.cons.inj first
  have nonempty := List.length_pos_iff.mpr (first_nonempty more)
  exact ⟨(if_pos nonempty).trans (congrArg some parts.1), parts.2⟩

/-- `_nextargv` gives the first word, NULL when there is none, and goes on to the others. -/
theorem nextargv_words (str : List Char) :
    (nextargv ignore str).1 = (words (isSeparator ignore) str).head? ∧
      words (isSeparator ignore) (nextargv ignore str).2 =
        (words (isSeparator ignore) str).tail := by
  cases all : words (isSeparator ignore) str with
  | nil =>
    have nothing : str.dropWhile (isSeparator ignore) = [] := by
      by_contra more
      rw [words_skipped more] at all
      cases all
    rw [nextargv, nothing]
    exact ⟨rfl, words_nil⟩
  | cons word later => exact nextargv_word all

/-- As many words as there are can be copied. -/
theorem fillArgv_words (cmdline : List Char) :
    fillArgv ignore (words (isSeparator ignore) cmdline).length cmdline =
      some (words (isSeparator ignore) cmdline) := by
  induction all : words (isSeparator ignore) cmdline generalizing cmdline with
  | nil => rfl
  | cons word later ih =>
    have taken := nextargv_word all
    rw [List.length_cons, fillArgv]
    cases next : nextargv ignore cmdline with
    | mk found rest =>
      rw [next] at taken
      have copied : found = some word := taken.1
      simp [copied, ih rest taken.2]

/-- `argv_create` gives the words of the line. -/
theorem argvCreate_words (cmdline : List Char) :
    argvCreate ignore cmdline = some (words (isSeparator ignore) cmdline) := by
  rw [argvCreate, sizeargv_words, fillArgv_words]

/-! ## The array and the pointer -/

/-- A pointer into a line, moved on while the characters satisfy a condition. -/
def advance (p : Char → Bool) (line : List Char) (str : Nat) : Nat :=
  str + ((line.drop str).takeWhile p).length

/-- What is behind a pointer that has been moved on. -/
theorem drop_advance (p : Char → Bool) (line : List Char) (str : Nat) :
    line.drop (advance p line str) = (line.drop str).dropWhile p := by
  have whole := List.takeWhile_append_dropWhile (p := p) (l := line.drop str)
  calc
    line.drop (advance p line str)
      = (line.drop str).drop ((line.drop str).takeWhile p).length := by
        rw [advance, List.drop_drop]
    _ = ((line.drop str).takeWhile p ++ (line.drop str).dropWhile p).drop
          ((line.drop str).takeWhile p).length := by rw [whole]
    _ = (line.drop str).dropWhile p := List.drop_left

variable (ignore)

/-- `_nextargv`, with the pointer `*strp` into the line. -/
def nextargvAt (line : List Char) (strp : Nat) : Option (List Char) × Nat :=
  let word := advance (isSeparator ignore) line strp
  let str := advance (fun c => !isSeparator ignore c) line word
  let len := str - word
  (if 0 < len then some ((line.drop word).take len) else none, str)

/-- What the `k`-th call of `_nextargv` returns, from a pointer into the line on. -/
def nthargv (line : List Char) : Nat → Nat → Option (List Char)
  | 0, strp => (nextargvAt ignore line strp).1
  | k + 1, strp => nthargv line k (nextargvAt ignore line strp).2

/-- Memory while `argv_create` runs: the line, and the array, whose cells are words or NULL. -/
structure ArgvMemory where
  line : List Char
  argv : List (Option (List Char))

/-- The loop of `argv_create` from a cell on, and the NULL behind it. It has no result when a cell
is not there, and `none` when the function returns NULL. -/
def fillArgvAt : Nat → Nat → Nat → ArgvMemory → Option (Option ArgvMemory)
  | 0, i, _, mem => do
    let argv ← put mem.argv i none
    some (some { mem with argv })
  | left + 1, i, cmdline, mem =>
    match nextargvAt ignore mem.line cmdline with
    | (none, _) => some none
    | (some word, cmdline) => do
      let argv ← put mem.argv i (some word)
      fillArgvAt left (i + 1) cmdline { mem with argv }

/-- `argv_create`, with the array it allocates. -/
def argvCreateAt (heap : Heap (Option (List Char))) (cmdline : List Char) :
    Option (Option ArgvMemory) :=
  let argc := sizeargv ignore cmdline
  fillArgvAt ignore argc 0 0 { line := cmdline, argv := heap.malloc (argc + 1) }

variable {ignore}

/-- `_nextargv` looks only at what is behind its pointer. -/
theorem nextargvAt_eq (line : List Char) (strp : Nat) :
    (nextargvAt ignore line strp).1 = (nextargv ignore (line.drop strp)).1 ∧
      line.drop (nextargvAt ignore line strp).2 = (nextargv ignore (line.drop strp)).2 := by
  have behind := drop_advance (isSeparator ignore) line strp
  have length : ∀ word : Nat, advance (fun c => !isSeparator ignore c) line word - word =
      ((line.drop word).takeWhile fun c => !isSeparator ignore c).length :=
    fun word => Nat.add_sub_cancel_left word _
  have copied : ∀ str : List Char, str.take (str.takeWhile fun c => !isSeparator ignore c).length =
      str.takeWhile fun c => !isSeparator ignore c :=
    fun str => List.prefix_iff_eq_take.mp (List.takeWhile_prefix _) |>.symm
  simp only [nextargvAt, nextargv, length, copied, behind, drop_advance, and_self]

/-- Successive calls of `_nextargv` return the words, and NULL after them. -/
theorem nthargv_eq (line : List Char) (k strp : Nat) :
    nthargv ignore line k strp = (words (isSeparator ignore) (line.drop strp))[k]? := by
  have pointer := @nextargvAt_eq ignore line strp
  have next := @nextargv_words ignore (line.drop strp)
  induction k generalizing strp with
  | zero => rw [nthargv, pointer.1, next.1, List.head?_eq_getElem?]
  | succ k ih =>
    rw [nthargv, ih _ (nextargvAt_eq line _) (nextargv_words _), pointer.2, next.2,
      List.getElem?_tail]

/-- The words that are to go are put into the array, with NULL behind them. -/
theorem fillArgvAt_eq {line : List Char} {strp : Nat} {all : List (List Char)}
    (togo : words (isSeparator ignore) (line.drop strp) = all)
    (argv : List (Option (List Char))) {cells : List (Option (List Char))}
    (room : cells.length = all.length + 1) :
    fillArgvAt ignore all.length argv.length strp { line, argv := argv ++ cells } =
      some (some { line, argv := argv ++ (all.map some ++ [none]) }) := by
  induction all generalizing strp argv cells with
  | nil =>
    obtain ⟨cell, rfl⟩ := List.length_eq_one_iff.mp room
    simp only [List.length_nil, fillArgvAt, put_append]
    rfl
  | cons word later ih =>
    cases cells with
    | nil => cases room
    | cons cell cells =>
      have pointer := @nextargvAt_eq ignore line strp
      have next := nextargv_word togo
      rw [← pointer.1, ← pointer.2] at next
      have rest := ih next.2 (argv ++ [some word]) (Nat.succ.inj room)
      rw [List.append_assoc, List.append_assoc, List.length_append] at rest
      cases call : nextargvAt ignore line strp with
      | mk found after =>
        rw [call] at next rest
        have copied : found = some word := next.1
        subst copied
        simp only [List.length_cons, fillArgvAt, call, put_append]
        exact rest

/-- `argv_create` returns the words of the line with NULL behind them, and leaves the line as it
is; `_sizeargv` counts the words that successive calls of `_nextargv` return before NULL. -/
theorem argvCreateAt_words (heap : Heap (Option (List Char))) (ignore cmdline : List Char) :
    argvCreateAt ignore heap cmdline =
        some (some { line := cmdline
                     argv := (words (isSeparator ignore) cmdline).map some ++ [none] }) ∧
      sizeargv ignore cmdline = (words (isSeparator ignore) cmdline).length ∧
      ∀ k, nthargv ignore cmdline k 0 = (words (isSeparator ignore) cmdline)[k]? := by
  have counted := @sizeargv_words ignore cmdline
  refine ⟨?_, counted, fun k => nthargv_eq cmdline k 0⟩
  have room := heap.length_malloc (sizeargv ignore cmdline + 1)
  rw [counted] at room
  have line : words (isSeparator ignore) (cmdline.drop 0) = words (isSeparator ignore) cmdline := by
    rw [List.drop_zero]
  have filled := fillArgvAt_eq line [] room
  rw [argvCreateAt, counted]
  exact filled

end GpibUtils.Util
