import GpibUtils.CSem.Text
import GpibUtils.Words

/-!
# Reading lines

`xreadline` in `util.c` reads a line into the buffer of its caller and cuts white space off its
end; at the end of the input it leaves the buffer as it is. What is read line by line in this way
has the words of its lines (`xreadline_words`).
-/

namespace GpibUtils.Util

open CSem Words

/-- The string that is kept in a buffer: what comes before the first NUL. -/
def cString (buf : List Char) : List Char := buf.takeWhile fun c => c != '\x00'

/-- The characters through the next newline, as far as there is room for them, and those after
them. -/
def getLine : Nat → List Char → List Char × List Char
  | 0, stdin => ([], stdin)
  | _ + 1, [] => ([], [])
  | room + 1, c :: stdin =>
    if c = '\n' then ([c], stdin)
    else
      let (line, stdin) := getLine room stdin
      (c :: line, stdin)

/-- `fgets`: what it puts in the buffer before a NUL, or `none` for NULL, when there is nothing
more to read. -/
def fgets (size : Nat) : List Char → Option (List Char) × List Char
  | [] => (none, [])
  | stdin =>
    let (line, stdin) := getLine (size - 1) stdin
    (some line, stdin)

/-- `_zap_trailing_whitespace` -/
def zapTrailingWhitespace (s : List Char) : List Char := s.rdropWhile isSpace

/-- `xreadline`: the string in the buffer, or `none` for NULL, which leaves the buffer as it is,
and what is left of the input. -/
def xreadline (buflen : Nat) (stdin : List Char) : Option (List Char) × List Char :=
  match fgets buflen stdin with
  | (none, stdin) => (none, stdin)
  | (some line, stdin) => (some (zapTrailingWhitespace (cString line)), stdin)

/-- Reading leaves no more than there was. -/
theorem length_getLine (room : Nat) (stdin : List Char) :
    (getLine room stdin).2.length ≤ stdin.length := by
  induction room generalizing stdin with
  | zero => exact Nat.le_refl _
  | succ room ih =>
    cases stdin with
    | nil => exact Nat.le_refl _
    | cons c stdin =>
      rw [getLine]
      split
      · exact Nat.le_succ _
      · exact Nat.le_succ_of_le (ih stdin)

/-- A line that is read is taken from the input. -/
theorem length_xreadline {buflen : Nat} {stdin buf rest : List Char} (roomy : 1 < buflen)
    (read : xreadline buflen stdin = (some buf, rest)) : rest.length < stdin.length := by
  obtain ⟨room, size⟩ : ∃ room, buflen - 1 = room + 1 := ⟨buflen - 2, by omega⟩
  cases stdin with
  | nil => cases read
  | cons c stdin =>
    have left : (getLine (buflen - 1) (c :: stdin)).2 = rest := congrArg Prod.snd read
    rw [← left, size, getLine]
    split
    · exact Nat.lt_succ_self _
    · exact Nat.lt_succ_of_le (length_getLine room stdin)

/-! ## Lines and their words -/

/-- The words of a line, which a NUL ends. -/
def lineWords (line : List Char) : List (List Char) := words isSpace (cString line)

/-- The lines of an input with words in them, as their words. -/
def inputWords (input : List Char) : List (List (List Char)) :=
  ((input.splitOn '\n').map lineWords).filter fun words => !words.isEmpty

/-- Every line of an input, without its newline, has at most so many characters. -/
def ShortLines (room : Nat) (input : List Char) : Prop :=
  ∀ line ∈ input.splitOn '\n', line.length ≤ room

instance (room : Nat) : DecidablePred (ShortLines room) := fun input =>
  inferInstanceAs (Decidable (∀ line ∈ input.splitOn '\n', line.length ≤ room))

/-- The newline of a line is in none of its words. -/
theorem lineWords_newline (line : List Char) : lineWords (line ++ ['\n']) = lineWords line := by
  rw [lineWords, cString, List.takeWhile_append]
  split
  case isTrue whole =>
    have same : line.takeWhile (fun c => c != '\x00') = line :=
      (List.takeWhile_prefix _).eq_of_length whole
    rw [lineWords, cString, same]
    exact words_append line fun c member => by
      rw [List.mem_singleton.mp ((List.takeWhile_sublist _).subset member)]
      rfl
  case isFalse => rfl

/-- A line has the words it has in the buffer. -/
theorem words_zapTrailingWhitespace (line : List Char) :
    words isSpace (zapTrailingWhitespace (cString line)) = lineWords line :=
  words_rdropWhile (cString line)

/-- The lines of an input are split at its newlines. -/
theorem splitOn_line {line : List Char} (plain : ∀ c ∈ line, c ≠ '\n') (rest : List Char) :
    (line ++ '\n' :: rest).splitOn '\n' = line :: rest.splitOn '\n' := by
  rw [List.splitOn_eq_splitOnP, List.splitOn_eq_splitOnP]
  exact List.splitOnP_append_cons_of_forall_mem (fun c member => by simpa using plain c member)
    '\n' (by decide) rest

/-- Without a newline there is one line. -/
theorem splitOn_last {line : List Char} (plain : ∀ c ∈ line, c ≠ '\n') :
    line.splitOn '\n' = [line] := by
  rw [List.splitOn_eq_splitOnP]
  exact List.splitOnP_eq_singleton fun c member => by simpa using plain c member

/-- The words of an input are those of its first line, and those of the lines after it. -/
theorem inputWords_line {line : List Char} (plain : ∀ c ∈ line, c ≠ '\n') (rest : List Char) :
    inputWords (line ++ '\n' :: rest) =
      [lineWords line].filter (fun words => !words.isEmpty) ++ inputWords rest := by
  rw [inputWords, splitOn_line plain, List.map_cons, ← List.singleton_append, List.filter_append]
  rfl

/-- Up to its newline, a line is read as far as there is room. -/
theorem getLine_append {room : Nat} {line : List Char} (plain : ∀ c ∈ line, c ≠ '\n')
    (fits : line.length ≤ room) (after : List Char) :
    getLine room (line ++ after) = (line ++ (getLine (room - line.length) after).1,
      (getLine (room - line.length) after).2) := by
  induction line generalizing room with
  | nil => simp
  | cons c line ih =>
    cases room with
    | zero => cases fits
    | succ room =>
      have later := ih (fun d member => plain d (List.mem_cons_of_mem c member))
        (Nat.le_of_succ_le_succ fits)
      rw [List.cons_append, getLine, if_neg (plain c List.mem_cons_self), later,
        List.length_cons, Nat.succ_sub_succ]
      rfl

/-- An input is its first line, and nothing or a newline and the other lines. -/
theorem first_line (input : List Char) :
    ∃ line after, input = line ++ after ∧ (∀ c ∈ line, c ≠ '\n') ∧
      (after = [] ∨ ∃ rest, after = '\n' :: rest) := by
  refine ⟨input.takeWhile fun c => c != '\n', input.dropWhile fun c => c != '\n',
    List.takeWhile_append_dropWhile.symm, ?_, ?_⟩
  · intro c member
    simpa using List.mem_takeWhile_imp member
  · cases after : input.dropWhile fun c => c != '\n' with
    | nil => exact .inl rfl
    | cons c rest =>
      have stops := List.head?_dropWhile_not (fun c => c != '\n') input
      rw [after] at stops
      have newline : c = '\n' := by simpa using stops
      exact .inr ⟨rest, by rw [newline]⟩

/-- Nothing is read from nothing. -/
theorem getLine_nil (room : Nat) : getLine room [] = ([], []) := by
  cases room <;> rfl

/-- Short lines, without the first one. -/
theorem ShortLines.rest {room : Nat} {line rest : List Char} (plain : ∀ c ∈ line, c ≠ '\n')
    (short : ShortLines room (line ++ '\n' :: rest)) :
    line.length ≤ room ∧ ShortLines room rest := by
  rw [ShortLines, splitOn_line plain, List.forall_mem_cons] at short
  exact short

/-- What is read of an input with short lines: the words of the input are those of what is read
and those of what is left, whose lines are short and which is shorter. -/
theorem getLine_words {room : Nat} {input : List Char} (positive : 0 < room)
    (short : ShortLines room input) (more : input ≠ []) :
    inputWords input =
        [lineWords (getLine room input).1].filter (fun words => !words.isEmpty) ++
          inputWords (getLine room input).2 ∧
      ShortLines room (getLine room input).2 ∧
      (getLine room input).2.length < input.length := by
  obtain ⟨line, after, rfl, plain, ends⟩ := first_line input
  have nothing : ∀ c ∈ ([] : List Char), c ≠ '\n' := fun c member => by cases member
  rcases ends with rfl | ⟨rest, rfl⟩
  · rw [List.append_nil] at short more ⊢
    have fits : line.length ≤ room := short line (by rw [splitOn_last plain]; exact .head _)
    have read := getLine_append plain fits []
    rw [List.append_nil, getLine_nil, List.append_nil] at read
    rw [read]
    refine ⟨?_, fun other member => ?_, List.length_pos_iff.mpr more⟩
    · rw [inputWords, splitOn_last plain]
      exact (List.append_nil _).symm
    · rw [List.mem_singleton.mp member]
      exact Nat.zero_le room
  · have fits := (short.rest plain).1
    have read := getLine_append plain fits ('\n' :: rest)
    cases left : room - line.length with
    | zero =>
      -- the newline is left for the next line, which is then blank
      have filled : 0 < line.length := by omega
      rw [left, getLine, List.append_nil] at read
      rw [read]
      refine ⟨?_, ?_, ?_⟩
      · rw [inputWords_line plain]
        exact congrArg _ (inputWords_line nothing rest).symm
      · have lines := splitOn_line nothing rest
        rw [List.nil_append] at lines
        rw [ShortLines, lines, List.forall_mem_cons]
        exact ⟨Nat.zero_le room, (short.rest plain).2⟩
      · simp only [List.length_append, List.length_cons]
        omega
    | succ spare =>
      rw [left, getLine, if_pos rfl] at read
      rw [read]
      refine ⟨?_, (short.rest plain).2, ?_⟩
      · rw [inputWords_line plain, lineWords_newline]
      · simp only [List.length_append, List.length_cons]
        omega

/-- One call of `xreadline` while there is input: the words of the input are those of the string
in the buffer and those of what is left. -/
theorem xreadline_words {buflen : Nat} {input : List Char} (roomy : 1 < buflen)
    (short : ShortLines (buflen - 1) input) (more : input ≠ []) :
    ∃ buf rest, xreadline buflen input = (some buf, rest) ∧
      inputWords input =
        [words isSpace buf].filter (fun words => !words.isEmpty) ++ inputWords rest ∧
      ShortLines (buflen - 1) rest ∧ rest.length < input.length := by
  refine ⟨zapTrailingWhitespace (cString (getLine (buflen - 1) input).1),
    (getLine (buflen - 1) input).2, ?_, ?_⟩
  · cases input with
    | nil => exact absurd rfl more
    | cons c stdin => rfl
  · rw [words_zapTrailingWhitespace]
    exact getLine_words (Nat.sub_pos_of_lt roomy) short more

end GpibUtils.Util
