import GpibUtils.Ini.Parse
import Mathlib.Data.List.Chain

/-!
# Files as they are written

A file is written in lines: blank ones and comments, names of sections in brackets, settings with an
equals sign or a colon, and indented lines that go on with a setting. What is written is read again:
the handler is called for each setting, and for each line that goes on with one, in order
(`iniParse_written`). A name of a section is kept as far as 49 characters, and so is the name that a
line goes on with; a comment behind a line that goes on is part of the value.
-/

namespace GpibUtils.Ini

open CSem Util

/-! ## White space and places -/

/-- White space at the end is cut off. -/
theorem rstrip_append (s : List Char) {spaces : List Char}
    (blank : ∀ c ∈ spaces, isSpace c = true) : rstrip (s ++ spaces) = rstrip s := by
  induction spaces using List.reverseRecOn with
  | nil => rw [List.append_nil]
  | append_singleton spaces c ih =>
    have last := blank c (List.mem_append_right spaces List.mem_cons_self)
    rw [rstrip, ← List.append_assoc, List.rdropWhile_concat_pos _ _ _ last]
    exact ih fun d member => blank d (List.mem_append_left [c] member)

/-- White space is cut off behind what is none. -/
theorem rstrip_middle (front : List Char) {c : Char} (plain : isSpace c = false)
    (back : List Char) : rstrip (front ++ c :: back) = front ++ c :: rstrip back := by
  induction back using List.reverseRecOn with
  | nil =>
    rw [rstrip, List.rdropWhile_concat_neg _ _ _ (by rw [plain]; exact Bool.false_ne_true)]
    rfl
  | append_singleton back d ih =>
    have whole : front ++ c :: (back ++ [d]) = (front ++ c :: back) ++ [d] := by simp
    rw [rstrip] at ih ⊢
    rw [whole, List.rdropWhile_concat, rstrip, List.rdropWhile_concat]
    split
    · exact ih
    · exact whole.symm

/-- A text that does not begin with white space. -/
def Starts (s : List Char) : Prop := ∀ c ∈ s.head?, isSpace c = false

/-- A text that does not end with white space. -/
def Ends (s : List Char) : Prop := ∀ c ∈ s.getLast?, isSpace c = false

instance : DecidablePred Starts := fun s =>
  inferInstanceAs (Decidable (∀ c ∈ s.head?, isSpace c = false))

instance : DecidablePred Ends := fun s =>
  inferInstanceAs (Decidable (∀ c ∈ s.getLast?, isSpace c = false))

/-- Nothing is cut off a text that does not end with white space. -/
theorem rstrip_eq {s : List Char} (ends : Ends s) : rstrip s = s := by
  rw [rstrip, List.rdropWhile_eq_self_iff]
  intro some
  rw [ends _ (List.getLast?_eq_some_getLast some)]
  exact Bool.false_ne_true

/-- White space in front of a text that does not begin with it is skipped. -/
theorem lskip_append {spaces s : List Char} (blank : ∀ c ∈ spaces, isSpace c = true)
    (starts : Starts s) : lskip (spaces ++ s) = s := by
  rw [lskip, List.dropWhile_append_of_pos blank]
  cases s with
  | nil => rfl
  | cons c s =>
    rw [List.dropWhile_cons_of_neg]
    rw [starts c rfl]
    exact Bool.false_ne_true

/-- No semicolon with white space in front of it. -/
def Uncommented (s : List Char) : Prop := s.IsChain fun c d => d = ';' → isSpace c = false

instance : DecidablePred Uncommented := fun s =>
  inferInstanceAs (Decidable (s.IsChain fun c d => d = ';' → isSpace c = false))

/-- A text without comments has none behind its first character. -/
theorem Uncommented.tail {c : Char} {s : List Char} (plain : Uncommented (c :: s)) :
    Uncommented s ∧ (isSpace c = true → s.head? ≠ some ';') := by
  obtain ⟨first, later⟩ := List.isChain_cons.mp plain
  refine ⟨later, fun space semicolon => ?_⟩
  rw [first ';' semicolon rfl] at space
  cases space

/-- Nothing is found in a text without a character and without comments: it is looked for behind the
text. -/
theorem findLoop_append {c : Char} {s : List Char} (without : c ∉ s) (plain : Uncommented s)
    {was : Bool} (begins : was = true → s.head? ≠ some ';') (rest : List Char) :
    ∃ space : Bool, (s = [] → space = was) ∧ (∀ last ∈ s.getLast?, space = isSpace last) ∧
      findLoop c was (s ++ rest) =
        (s ++ (findLoop c space rest).1, (findLoop c space rest).2) := by
  induction s generalizing was with
  | nil => exact ⟨was, fun _ => rfl, fun last none => (nomatch none), rfl⟩
  | cons d s ih =>
    obtain ⟨later, next⟩ := plain.tail
    have behind : c ∉ s := fun member => without (List.mem_cons_of_mem d member)
    obtain ⟨space, empty, last, found⟩ := @ih behind later (isSpace d) next
    have passes : ¬(d = c ∨ was = true ∧ d = ';') := by
      rintro (same | ⟨space, semicolon⟩)
      · exact without (same ▸ List.mem_cons_self)
      · exact begins space (congrArg some semicolon)
    refine ⟨space, fun none => (nomatch none), fun e end' => ?_, ?_⟩
    · cases s with
      | nil =>
        cases end'
        exact empty rfl
      | cons => exact last e end'
    · rw [List.cons_append, findLoop, if_neg passes, found]
      rfl

/-- White space. -/
def Blank (s : List Char) : Prop := ∀ c ∈ s, isSpace c = true

instance : DecidablePred Blank := fun s =>
  inferInstanceAs (Decidable (∀ c ∈ s, isSpace c = true))

/-- There is no semicolon in white space. -/
theorem Blank.plain {s : List Char} (blank : Blank s) : ';' ∉ s := fun member =>
  absurd (blank ';' member) (by decide)

/-- White space behind a text makes no comment. -/
theorem Uncommented.append {s spaces : List Char} (plain : Uncommented s) (blank : Blank spaces) :
    Uncommented (s ++ spaces) := by
  have without : ∀ d ∈ spaces, d ≠ ';' := fun d member same => blank.plain (same ▸ member)
  refine List.isChain_append.mpr ⟨plain, ?_, fun c _ d first same => ?_⟩
  · clear blank
    induction spaces with
    | nil => exact .nil
    | cons c spaces ih =>
      obtain ⟨-, later⟩ := List.forall_mem_cons.mp without
      exact List.isChain_cons.mpr ⟨fun d first same =>
        absurd same (later d (List.mem_of_mem_head? first)), ih later⟩
  · exact absurd same (without d (List.mem_of_mem_head? first))

/-- A character is found behind a text without it and without comments. -/
theorem find_append {c : Char} {s : List Char} (without : c ∉ s) (plain : Uncommented s)
    (rest : List Char) : findCharOrComment (s ++ c :: rest) c = (s, c :: rest) := by
  obtain ⟨space, -, -, found⟩ := @findLoop_append c s without plain false
    (fun never => by cases never) (c :: rest)
  rw [findCharOrComment, found, findLoop, if_pos (.inl rfl), List.append_nil]

/-! ## Lines -/

/-- A line as it is written, less its newline. -/
inductive Line where
  | blank (spaces : List Char)
  | comment (spaces : List Char) (mark : Char) (note : List Char)
  | header (sect tail : List Char)
  | setting (name gap : List Char) (sep : Char) (gap' value tail : List Char)
  | more (indent value tail : List Char)
  deriving DecidableEq

/-- The text of a line. -/
def Line.text : Line → List Char
  | .blank spaces => spaces
  | .comment spaces mark note => spaces ++ mark :: note
  | .header sect tail => '[' :: (sect ++ ']' :: tail)
  | .setting name gap sep gap' value tail => name ++ (gap ++ sep :: (gap' ++ (value ++ tail)))
  | .more indent value tail => indent ++ (value ++ tail)

/-- What a line is meant to say. -/
def Line.said : Line → Said
  | .blank _ | .comment .. => .nothing
  | .header sect _ => .header sect
  | .setting name _ _ _ value _ => .setting name value
  | .more _ value _ => .more value

/-- White space, and a comment perhaps. -/
def Remark (s : List Char) : Prop :=
  Blank s ∨ ∃ spaces note, s = spaces ++ ';' :: note ∧ spaces ≠ [] ∧ Blank spaces

/-- A name that can be given a value: it does not begin as a comment or a section does, and the
separator behind it is the first one. -/
structure NameProper (name : List Char) (sep : Char) : Prop where
  nonempty : name ≠ []
  starts : Starts name
  ends : Ends name
  plain : Uncommented name
  begins : ∀ c ∈ name.head?, c ≠ ';' ∧ c ≠ '#' ∧ c ≠ '['
  without : '=' ∉ name ∧ sep ∉ name

/-- A value that is read whole, with white space and a comment perhaps behind it. -/
structure ValueProper (value tail : List Char) : Prop where
  starts : Starts value
  ends : Ends value
  plain : Uncommented value
  remark : Remark tail
  empty : value = [] → Blank tail

/-- A line is written as it should be, behind some name. -/
def Line.Proper (prevName : List Char) : Line → Prop
  | .blank spaces => Blank spaces
  | .comment spaces mark _ => Blank spaces ∧ (mark = ';' ∨ mark = '#')
  | .header sect _ => ']' ∉ sect ∧ Uncommented sect
  | .setting name gap sep gap' value tail =>
    NameProper name sep ∧ ValueProper value tail ∧ Blank gap ∧ Blank gap' ∧
      (sep = '=' ∨ sep = ':' ∧ '=' ∉ value ++ tail)
  | .more indent value tail =>
    prevName ≠ [] ∧ indent ≠ [] ∧ Blank indent ∧ value ≠ [] ∧ Starts value ∧ Ends value ∧
      (∀ c ∈ value.head?, c ≠ ';' ∧ c ≠ '#') ∧ Blank tail

/-- A line fits into the buffer. -/
def Line.Fits (line : Line) : Prop :=
  (∀ c ∈ line.text, c ≠ '\n' ∧ c ≠ '\x00') ∧ line.text.length ≤ 198

instance : DecidablePred Line.Fits := fun line =>
  inferInstanceAs (Decidable ((∀ c ∈ line.text, c ≠ '\n' ∧ c ≠ '\x00') ∧ line.text.length ≤ 198))

/-- A newline is white space. -/
theorem blank_newline {s : List Char} (blank : Blank s) : Blank (s ++ ['\n']) := by
  intro c member
  rcases List.mem_append.mp member with inside | last
  · exact blank c inside
  · rw [List.mem_singleton.mp last]
    decide

/-- A line without the mark of a file in UTF-8 is read from its first character on that is no white
space. -/
theorem said_eq {first : Bool} (named : Bool) {line text start : List Char}
    (unmarked : first = true → line.take 3 ≠ bom) (cut : rstrip line = text)
    (skipped : lskip text = start) :
    said first named line = readFrom named (decide (start.length < text.length)) start := by
  have plain : decide (first = true ∧ line.take 3 = bom) = false :=
    decide_eq_false fun marked => unmarked marked.1 marked.2
  rw [said, plain, if_neg Bool.false_ne_true, cut, skipped]
  simp

/-- A line that begins as a section does. -/
theorem readFrom_header {sect : List Char} (without : ']' ∉ sect) (plain : Uncommented sect)
    (named : Bool) (tail : List Char) :
    readFrom named false ('[' :: (sect ++ ']' :: tail)) = .header sect := by
  have opens : ('[' :: (sect ++ ']' :: tail)).head? = some '[' := rfl
  rw [readFrom, if_neg (by simp), if_neg (by simp), if_pos opens, List.tail_cons,
    find_append without plain]
  exact if_pos rfl

/-- A line that goes on with a value. -/
theorem readFrom_more {value : List Char} (some : value ≠ [])
    (begins : ∀ c ∈ value.head?, c ≠ ';' ∧ c ≠ '#') : readFrom true true value = .more value := by
  have plain : ¬(value.head? = .some ';' ∨ value.head? = .some '#') := by
    rintro (semicolon | hash)
    · exact (begins ';' semicolon).1 rfl
    · exact (begins '#' hash).2 rfl
  rw [readFrom, if_neg plain, if_pos ⟨rfl, some, rfl⟩]

/-- What is found is at the end of the text. -/
theorem findLoop_split (c : Char) (was : Bool) (s : List Char) :
    (findLoop c was s).1 ++ (findLoop c was s).2 = s := by
  induction s generalizing was with
  | nil => rfl
  | cons d s ih =>
    rw [findLoop]
    split
    · rfl
    · exact congrArg (d :: ·) (ih (isSpace d))

/-- The value that is read behind a separator. -/
def readValue (back : List Char) : List Char :=
  let value := lskip back
  let (front, comment) := findCharOrComment value '\x00'
  rstrip (if comment.head? = some ';' then front else value)

/-- What is read behind a separator is what is between white space, and a comment perhaps. -/
theorem readValue_eq {gap value tail : List Char} (blank : Blank gap)
    (proper : ValueProper value tail) (text : '\x00' ∉ value) :
    readValue (rstrip (gap ++ (value ++ (tail ++ ['\n'])))) = value := by
  have ends : ∀ {spaces : List Char}, Blank spaces →
      rstrip (gap ++ (value ++ spaces)) = rstrip (gap ++ value) := fun spaces => by
    rw [← List.append_assoc, rstrip_append _ spaces]
  by_cases empty : value = []
  · have none : rstrip (gap ++ (value ++ (tail ++ ['\n']))) = [] := by
      rw [ends (blank_newline (proper.empty empty)), empty, List.append_nil, rstrip,
        List.rdropWhile_eq_nil_iff]
      exact blank
    rw [none, empty]
    rfl
  · have last : Ends (gap ++ value) := by
      intro c final
      rw [List.getLast?_append_of_ne_nil _ empty] at final
      exact proper.ends c final
    rcases proper.remark with spaces | ⟨spaces, note, rfl, some, white⟩
    · have nothing := @findLoop_append '\x00' value text proper.plain false
        (fun never => by cases never) []
      obtain ⟨space, -, -, found⟩ := nothing
      rw [List.append_nil] at found
      have read : findCharOrComment value '\x00' = (value, []) := by
        rw [findCharOrComment, found]
        exact Prod.ext (List.append_nil value) rfl
      rw [ends (blank_newline spaces), rstrip_eq last, readValue, lskip_append blank proper.starts,
        read]
      exact rstrip_eq proper.ends
    · have cut : rstrip (gap ++ (value ++ (spaces ++ ';' :: note ++ ['\n']))) =
          gap ++ (value ++ (spaces ++ ';' :: rstrip (note ++ ['\n']))) := by
        have whole : gap ++ (value ++ (spaces ++ ';' :: note ++ ['\n'])) =
            (gap ++ (value ++ spaces)) ++ ';' :: (note ++ ['\n']) := by simp
        rw [whole, rstrip_middle _ (by decide)]
        simp
      have starts : Starts (value ++ (spaces ++ ';' :: rstrip (note ++ ['\n']))) := by
        intro c first
        rw [List.head?_append_of_ne_nil _ empty] at first
        exact proper.starts c first
      have without : '\x00' ∉ value ++ spaces := by
        intro member
        rcases List.mem_append.mp member with inside | behind
        · exact text inside
        · exact absurd (white _ behind) (by decide)
      obtain ⟨space, -, final, found⟩ := @findLoop_append '\x00' (value ++ spaces) without
        (proper.plain.append white) false (fun never => by cases never)
        (';' :: rstrip (note ++ ['\n']))
      have white' : space = true := by
        have same := final (spaces.getLast some) (by
          rw [List.getLast?_append_of_ne_nil _ some, List.getLast?_eq_some_getLast some]
          rfl)
        rw [same]
        exact white _ (List.getLast_mem some)
      have read : findCharOrComment (value ++ (spaces ++ ';' :: rstrip (note ++ ['\n']))) '\x00' =
          (value ++ spaces, ';' :: rstrip (note ++ ['\n'])) := by
        rw [← List.append_assoc, findCharOrComment, found, findLoop,
          if_pos (.inr ⟨white', rfl⟩), List.append_nil]
      rw [cut, readValue, lskip_append blank starts, read]
      show rstrip (value ++ spaces) = value
      rw [rstrip_append _ white, rstrip_eq proper.ends]

/-- A name and a value with a separator between them. -/
theorem readFrom_setting {name gap back : List Char} {sep : Char} (proper : NameProper name sep)
    (blank : Blank gap) (separates : sep = '=' ∨ sep = ':' ∧ '=' ∉ back) (named : Bool) :
    readFrom named false (name ++ (gap ++ sep :: back)) = .setting name (readValue back) := by
  have head : (name ++ (gap ++ sep :: back)).head? = name.head? :=
    List.head?_append_of_ne_nil _ proper.nonempty
  have begins : ∀ c, c = ';' ∨ c = '#' ∨ c = '[' → name.head? ≠ some c := by
    rintro c mark first
    obtain ⟨semicolon, hash, bracket⟩ := proper.begins c first
    rcases mark with same | same | same
    · exact semicolon same
    · exact hash same
    · exact bracket same
  have plain : ¬(name.head? = some ';' ∨ name.head? = some '#') := by
    rintro (semicolon | hash)
    · exact begins ';' (by decide) semicolon
    · exact begins '#' (by decide) hash
  have nonempty : name ++ (gap ++ sep :: back) ≠ [] := by simp
  have without : ∀ c ∈ ['=', ':'], c ∉ name → c ∉ name ++ gap := by
    intro c mark absent member
    have black : isSpace c = false := by
      have both : ∀ c ∈ ['=', ':'], isSpace c = false := by decide
      exact both c mark
    rcases List.mem_append.mp member with inside | behind
    · exact absent inside
    · rw [blank c behind] at black
      cases black
  have uncommented := proper.plain.append blank
  have cut : rstrip (name ++ gap) = name := by rw [rstrip_append _ blank, rstrip_eq proper.ends]
  have found : ∀ c ∈ ['=', ':'], sep = c → findCharOrComment (name ++ (gap ++ sep :: back)) c =
      (name ++ gap, sep :: back) := by
    rintro c mark rfl
    rw [← List.append_assoc, find_append (without sep mark proper.without.2) uncommented]
  rw [readFrom, head, if_neg plain, if_neg (by simp), if_neg (begins '[' (by decide)),
    if_pos nonempty]
  rcases separates with rfl | ⟨rfl, absent⟩
  · have first : ('=' :: back).head? = some '=' := rfl
    rw [found '=' (by decide) rfl]
    dsimp only
    rw [if_pos first]
    dsimp only
    rw [if_pos (Or.inl first), cut]
    rfl
  · have other : (findCharOrComment (name ++ (gap ++ ':' :: back)) '=').2.head? ≠ some '=' := by
      intro first
      have member : '=' ∈ name ++ (gap ++ ':' :: back) := by
        rw [← findLoop_split '=' false (name ++ (gap ++ ':' :: back))]
        exact List.mem_append_right _ (List.mem_of_head? first)
      rw [← List.append_assoc] at member
      rcases List.mem_append.mp member with inside | behind
      · exact without '=' (by decide) proper.without.1 inside
      · rcases List.mem_cons.mp behind with same | later
        · exact absurd same (by decide)
        · exact absent later
    have first : (':' :: back).head? = some ':' := rfl
    dsimp only
    rw [if_neg other, found ':' (by decide) rfl]
    dsimp only
    rw [if_pos (Or.inr first), cut]
    rfl

/-- A text that does not begin with white space is not moved. -/
theorem lskip_eq {s : List Char} (starts : Starts s) : lskip s = s :=
  lskip_append (fun _ none => absurd none List.not_mem_nil) starts

/-- What a line is meant to say is read. -/
theorem said_line {line : Line} {prevName : List Char} (proper : line.Proper prevName)
    (fits : line.Fits) {first : Bool}
    (unmarked : first = true → (line.text ++ ['\n']).take 3 ≠ bom) :
    said first (prevName ≠ []) (line.text ++ ['\n']) = line.said := by
  cases line with
  | blank spaces =>
    have cut : rstrip (spaces ++ ['\n']) = [] :=
      List.rdropWhile_eq_nil_iff.mpr (blank_newline proper)
    rw [said_eq _ unmarked cut rfl, lskip, List.dropWhile_nil, readFrom]
    simp
    rfl
  | comment spaces mark note =>
    obtain ⟨blank, marks⟩ := proper
    have black : isSpace mark = false := by rcases marks with rfl | rfl <;> rfl
    have cut : rstrip (spaces ++ mark :: note ++ ['\n']) =
        spaces ++ mark :: rstrip (note ++ ['\n']) := by
      rw [List.append_assoc, List.cons_append, rstrip_middle spaces black]
    have skipped : lskip (spaces ++ mark :: rstrip (note ++ ['\n'])) =
        mark :: rstrip (note ++ ['\n']) := lskip_append blank fun c same => by
      cases same
      exact black
    rw [said_eq _ unmarked cut skipped, readFrom]
    refine if_pos ?_
    rcases marks with rfl | rfl
    · exact .inl rfl
    · exact .inr rfl
  | header sect tail =>
    obtain ⟨without, plain⟩ := proper
    have cut : rstrip ('[' :: (sect ++ ']' :: tail) ++ ['\n']) =
        '[' :: (sect ++ ']' :: rstrip (tail ++ ['\n'])) := by
      have whole : '[' :: (sect ++ ']' :: tail) ++ ['\n'] =
          ('[' :: sect) ++ ']' :: (tail ++ ['\n']) := by simp
      rw [whole, rstrip_middle _ (by decide)]
      rfl
    have skipped := @lskip_eq ('[' :: (sect ++ ']' :: rstrip (tail ++ ['\n']))) fun c same => by
      cases same
      rfl
    rw [said_eq _ unmarked cut skipped, decide_eq_false (Nat.lt_irrefl _)]
    exact readFrom_header without plain _ _
  | setting name gap sep gap' value tail =>
    obtain ⟨named, valued, blank, blank', separates⟩ := proper
    have black : isSpace sep = false := by
      rcases separates with rfl | ⟨rfl, -⟩
      · rfl
      · rfl
    have cut : rstrip (name ++ (gap ++ sep :: (gap' ++ (value ++ tail))) ++ ['\n']) =
        name ++ (gap ++ sep :: rstrip (gap' ++ (value ++ (tail ++ ['\n'])))) := by
      have whole : name ++ (gap ++ sep :: (gap' ++ (value ++ tail))) ++ ['\n'] =
          (name ++ gap) ++ sep :: (gap' ++ (value ++ (tail ++ ['\n']))) := by simp
      rw [whole, rstrip_middle _ black, List.append_assoc]
    have skipped : lskip (name ++ (gap ++ sep :: rstrip (gap' ++ (value ++ (tail ++ ['\n']))))) =
        name ++ (gap ++ sep :: rstrip (gap' ++ (value ++ (tail ++ ['\n'])))) := by
      refine lskip_eq fun c same => ?_
      rw [List.head?_append_of_ne_nil _ named.nonempty] at same
      exact named.starts c same
    have text : '\x00' ∉ value := fun member => (fits.1 '\x00' (by simp [Line.text, member])).2 rfl
    have separates' : sep = '=' ∨
        sep = ':' ∧ '=' ∉ rstrip (gap' ++ (value ++ (tail ++ ['\n']))) := by
      refine separates.imp_right fun both => ⟨both.1, fun member => ?_⟩
      have whole := (List.rdropWhile_prefix isSpace _).subset member
      have inside : '=' ∈ gap' ++ ((value ++ tail) ++ ['\n']) := by
        rwa [List.append_assoc value tail]
      rcases List.mem_append.mp inside with white | later
      · have space := blank' '=' white
        exact absurd space (by decide)
      · rcases List.mem_append.mp later with here | last
        · exact both.2 here
        · exact absurd (List.mem_singleton.mp last) (by decide)
    rw [said_eq _ unmarked cut skipped, decide_eq_false (Nat.lt_irrefl _),
      readFrom_setting named blank separates', readValue_eq blank' valued text]
    rfl
  | more indent value tail =>
    obtain ⟨some, moved, blank, nonempty, starts, ends, begins, white⟩ := proper
    have cut : rstrip (indent ++ (value ++ tail) ++ ['\n']) = indent ++ value := by
      have whole : indent ++ (value ++ tail) ++ ['\n'] = (indent ++ value) ++ (tail ++ ['\n']) := by
        simp
      rw [whole, rstrip_append _ (blank_newline white), rstrip_eq]
      intro c last
      rw [List.getLast?_append_of_ne_nil _ nonempty] at last
      exact ends c last
    have longer : value.length < (indent ++ value).length := by
      have := List.length_pos_iff.mpr moved
      rw [List.length_append]
      omega
    rw [said_eq _ unmarked cut (lskip_append blank starts), decide_eq_true longer,
      decide_eq_true some]
    exact readFrom_more nonempty begins

/-! ## Files -/

/-- The text of a file: its lines, with a newline behind each. -/
def fileText (lines : List Line) : List Char := lines.flatMap fun line => line.text ++ ['\n']

/-- The lines of a file are written as they should be, behind some name. -/
def Written (prevName : List Char) : List Line → Prop
  | [] => True
  | line :: lines =>
    line.Proper prevName ∧ line.Fits ∧ Written (line.said.prevName prevName) lines

/-- What the lines of a file are meant to say, after so many others in a section with a name before
them. -/
def meaning (sect prevName : List Char) (before : Nat) : List Line → List Item
  | [] => []
  | line :: lines =>
    line.said.items (before + 1) sect prevName ++
      meaning (line.said.sect sect) (line.said.prevName prevName) (before + 1) lines

/-- Something is read as long as there is something. -/
theorem fgets_eq (size : Nat) {stdin : List Char} (more : stdin ≠ []) :
    fgets size stdin = (some (getLine (size - 1) stdin).1, (getLine (size - 1) stdin).2) := by
  cases stdin with
  | nil => exact absurd rfl more
  | cons => rfl

/-- A line that fits is read whole. -/
theorem fileLines_line {line : Line} (fits : line.Fits) (rest : List Char) :
    fileLines (line.text ++ '\n' :: rest) = (line.text ++ ['\n']) :: fileLines rest := by
  have plain : ∀ c ∈ line.text, c ≠ '\n' := fun c member => (fits.1 c member).1
  have room : line.text.length ≤ 199 := Nat.le_succ_of_le fits.2
  have read := getLine_append plain room ('\n' :: rest)
  obtain ⟨left, more⟩ : ∃ left, 199 - line.text.length = left + 1 :=
    ⟨198 - line.text.length, by have := fits.2; omega⟩
  rw [more, getLine, if_pos rfl] at read
  have got : fgets iniMaxLine (line.text ++ '\n' :: rest) = (some (line.text ++ ['\n']), rest) := by
    rw [fgets_eq _ (by simp)]
    exact congrArg (fun both => (some both.1, both.2)) read
  have whole : cString (line.text ++ ['\n']) = line.text ++ ['\n'] := by
    rw [cString, List.takeWhile_eq_self_iff]
    intro c member
    rcases List.mem_append.mp member with inside | last
    · simpa using (fits.1 c inside).2
    · rw [List.mem_singleton.mp last]
      rfl
  rw [fileLines]
  split
  · rename_i none
    rw [got] at none
    cases none
  · rename_i some
    rw [got] at some
    cases some
    rw [whole]

/-- What the lines of a file are meant to say is read. -/
theorem itemsFrom_written {lines : List Line} {prevName : List Char}
    (written : Written prevName lines) (sect : List Char) {before : Nat}
    (unmarked : before = 0 → (fileText lines).take 3 ≠ bom) :
    itemsFrom sect prevName before (fileLines (fileText lines)) =
      meaning sect prevName before lines := by
  induction lines generalizing sect prevName before with
  | nil =>
    have none : fileLines (fileText []) = [] := by
      rw [fileLines]
      rfl
    rw [none]
    rfl
  | cons line lines ih =>
    obtain ⟨proper, fits, later⟩ := written
    have text : fileText (line :: lines) = line.text ++ '\n' :: fileText lines := by
      rw [fileText, List.flatMap_cons, List.append_assoc]
      rfl
    have begins : decide (before = 0) = true → (line.text ++ ['\n']).take 3 ≠ bom := by
      intro first marked
      refine unmarked (of_decide_eq_true first) ?_
      have long : 3 ≤ (line.text ++ ['\n']).length := by
        have three := congrArg List.length marked
        rw [List.length_take] at three
        have three : min 3 (line.text ++ ['\n']).length = 3 := three
        omega
      rw [text, List.append_cons, List.take_append_of_le_length long, marked]
    rw [text, fileLines_line fits, itemsFrom, meaning, said_line proper fits begins]
    exact congrArg _ (ih later _ fun zero => absurd zero (Nat.succ_ne_zero before))

/-- What lines are meant to say are calls. -/
theorem meaning_calls (lines : List Line) (sect prevName : List Char) (before : Nat) :
    ∀ item ∈ meaning sect prevName before lines, ∃ lineno sect name value,
      item = .call lineno sect name value := by
  induction lines generalizing sect prevName before with
  | nil => exact fun item none => absurd none List.not_mem_nil
  | cons line lines ih =>
    intro item member
    rcases List.mem_append.mp member with here | later
    · cases line with
      | blank | comment | header => cases here
      | setting | more => exact ⟨_, _, _, _, List.mem_singleton.mp here⟩
    · exact ih _ _ _ item later

/-- A file that is written as it should be makes one call of the handler for each of its settings
and for each line that goes on with one, in order, and what is returned is the number of the first
line that the handler fails for. -/
theorem iniParse_written {σ : Type}
    (handler : σ → List Char → List Char → List Char → Bool × σ) {lines : List Line}
    (written : Written [] lines) (unmarked : (fileText lines).take 3 ≠ bom) (user : σ) :
    iniParseFile handler (fileText lines) user =
        (firstWrong handler user (meaning [] [] 0 lines),
          Runs.run (after handler) user (meaning [] [] 0 lines)) ∧
      ∀ item ∈ meaning [] [] 0 lines, ∃ lineno sect name value,
        item = .call lineno sect name value := by
  obtain ⟨made, error⟩ :=
    foldl_parseLine handler (fileLines (fileText lines)) ⟨[], [], 0, 0, user⟩
  rw [if_pos rfl] at error
  have read := @itemsFrom_written lines [] written [] 0 fun _ => unmarked
  refine ⟨?_, meaning_calls lines [] [] 0⟩
  rw [← read]
  exact Prod.ext error made

/-- A section with a setting, a comment behind it, and a line that goes on with it. -/
def sample : List Line := [
  .comment [] '#' " channels".toList,
  .header "arb".toList [],
  .setting "address".toList [] '=' [' '] "gw:gpib0,16".toList " ; main".toList,
  .more [' ', ' '] "more ;text".toList [],
  .blank []]

/-- The handler is called for the setting and for the line that goes on with it. -/
theorem iniParse_written_sample :
    iniParseFile (fun user sect name value => (true, user ++ [(sect, name, value)]))
        "# channels\n[arb]\naddress= gw:gpib0,16 ; main\n  more ;text\n\n".toList [] =
      (0, [("arb".toList, "address".toList, "gw:gpib0,16".toList),
        ("arb".toList, "address".toList, "more ;text".toList)]) := by
  have named : NameProper "address".toList '=' :=
    ⟨by decide, by decide, by decide, by decide, by decide, by decide⟩
  have valued : ValueProper "gw:gpib0,16".toList " ; main".toList :=
    ⟨by decide, by decide, by decide, .inr ⟨[' '], " main".toList, rfl, by decide, by decide⟩,
      by decide⟩
  have setting : Line.Proper []
      (.setting "address".toList [] '=' [' '] "gw:gpib0,16".toList " ; main".toList) :=
    ⟨named, valued, by decide, by decide, .inl rfl⟩
  have more : Line.Proper "address".toList (.more [' ', ' '] "more ;text".toList []) :=
    ⟨by decide, by decide, by decide, by decide, by decide, by decide, by decide, by decide⟩
  have written : Written [] sample :=
    ⟨⟨by decide, .inr rfl⟩, by decide, ⟨by decide, by decide⟩, by decide, setting, by decide, more,
      by decide, (by decide : Blank []), by decide, trivial⟩
  exact (iniParse_written _ written (by decide) []).1

end GpibUtils.Ini
