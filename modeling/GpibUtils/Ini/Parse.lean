import GpibUtils.CSem.Text
import GpibUtils.Runs
import GpibUtils.Util.Readline

/-!
# Files of sections

`ini_parse_file` reads a file line by line. A line is a comment, names a section, gives a name a
value, or goes on with the value of the name before it, which it does when it is indented. What the
handler is called for depends on the file alone, a line that says nothing of this is passed over,
and the number of the first line that went wrong is returned (`iniParse_first`).
-/

namespace GpibUtils.Ini

open CSem Util

/-! ## The code -/

/-- `MAX_SECTION` -/
def maxSection : Nat := 50

/-- `MAX_NAME` -/
def maxName : Nat := 50

/-- `INI_MAX_LINE` -/
def iniMaxLine : Nat := 200

/-- The bytes that a file in UTF-8 may begin with. -/
def bom : List Char := ['\xef', '\xbb', '\xbf']

/-- `rstrip` -/
def rstrip (s : List Char) : List Char := s.rdropWhile isSpace

/-- `lskip` -/
def lskip (s : List Char) : List Char := s.dropWhile isSpace

/-- The loop of `find_char_or_comment`: what is in front of the place that is returned, and what is
from there on. -/
def findLoop (c : Char) (wasWhitespace : Bool) : List Char → List Char × List Char
  | [] => ([], [])
  | d :: s =>
    if d = c ∨ wasWhitespace ∧ d = ';' then ([], d :: s)
    else
      let (front, rest) := findLoop c (isSpace d) s
      (d :: front, rest)

/-- `find_char_or_comment`; for the NUL it is the comment, or the end. -/
def findCharOrComment (s : List Char) (c : Char) : List Char × List Char := findLoop c false s

/-- `strncpy0` -/
def strncpy0 (src : List Char) (size : Nat) : List Char := src.take (size - 1)

/-- What a line says. -/
inductive Said where
  /-- Nothing, or a comment. -/
  | nothing
  /-- It goes on with a value. -/
  | more (value : List Char)
  | header (sect : List Char)
  | setting (name value : List Char)
  | wrong
  deriving DecidableEq

/-- The branches of `ini_parse_file`: what is read from `start` on, with a name before the line
perhaps, and perhaps with `start > line`. -/
def readFrom (named moved : Bool) (start : List Char) : Said :=
  if start.head? = some ';' ∨ start.head? = some '#' then .nothing
  else if named ∧ start ≠ [] ∧ moved then .more start
  else if start.head? = some '[' then
    let (front, rest) := findCharOrComment start.tail ']'
    if rest.head? = some ']' then .header front else .wrong
  else if start ≠ [] then
    let (front, rest) := findCharOrComment start '='
    let (front, rest) :=
      if rest.head? = some '=' then (front, rest) else findCharOrComment start ':'
    if rest.head? = some '=' ∨ rest.head? = some ':' then
      let value := lskip rest.tail
      let (valueFront, comment) := findCharOrComment value '\x00'
      .setting (rstrip front) (rstrip (if comment.head? = some ';' then valueFront else value))
    else .wrong
  else .nothing

/-- What a line says, perhaps the first one, and perhaps with a name before it. -/
def said (first named : Bool) (line : List Char) : Said :=
  let marked : Bool := first ∧ line.take 3 = bom
  let text := rstrip (if marked then line.drop 3 else line)
  let start := lskip text
  readFrom named (marked ∨ start.length < text.length) start

/-- The variables of `ini_parse_file` that stay from one line to the next, and what the handler
keeps for itself. -/
structure Parse (σ : Type) where
  sect : List Char
  prevName : List Char
  lineno : Nat
  error : Nat
  user : σ

section
variable {σ : Type} (handler : σ → List Char → List Char → List Char → Bool × σ)

/-- A call of the handler for the line that is read. -/
def Parse.call (st : Parse σ) (name value : List Char) : Parse σ :=
  let (ok, user) := handler st.user st.sect name value
  { st with user, error := if ok = false ∧ st.error = 0 then st.lineno else st.error }

/-- What is done with the line that is read. -/
def Parse.done (st : Parse σ) : Said → Parse σ
  | .nothing => st
  | .more value => st.call handler st.prevName value
  | .header sect => { st with sect := strncpy0 sect maxSection, prevName := [] }
  | .setting name value => { st with prevName := strncpy0 name maxName }.call handler name value
  | .wrong => { st with error := if st.error = 0 then st.lineno else st.error }

/-- A pass of the loop of `ini_parse_file`. -/
def parseLine (st : Parse σ) (line : List Char) : Parse σ :=
  let st := { st with lineno := st.lineno + 1 }
  st.done handler (said (st.lineno = 1) (st.prevName ≠ []) line)

/-- A line that is read is taken from the text. -/
theorem length_fgets {text line rest : List Char}
    (read : fgets iniMaxLine text = (some line, rest)) : rest.length < text.length := by
  have cut : xreadline iniMaxLine text =
      (some (zapTrailingWhitespace (cString line)), rest) := by rw [xreadline, read]
  exact length_xreadline (by decide) cut

/-- The lines that `fgets` puts into the buffer, one after the other. -/
def fileLines (text : List Char) : List (List Char) :=
  match _read : fgets iniMaxLine text with
  | (none, _) => []
  | (some line, text) => cString line :: fileLines text
termination_by text.length
decreasing_by exact length_fgets _read

/-- `ini_parse_file`: what is returned, and what the handler keeps. -/
def iniParseFile (text : List Char) (user : σ) : Nat × σ :=
  let st := (fileLines text).foldl (parseLine handler) ⟨[], [], 0, 0, user⟩
  (st.error, st.user)

/-- `ini_parse`, of the text of a file, or of none that can be opened. -/
def iniParse (text : Option (List Char)) (user : σ) : Int × σ :=
  match text with
  | none => (-1, user)
  | some text =>
    let (error, user) := iniParseFile handler text user
    (error, user)

end

/-! ## What a file says -/

/-- What is called for a line, or that it went wrong. -/
inductive Item where
  | call (lineno : Nat) (sect name value : List Char)
  | wrong (lineno : Nat)
  deriving DecidableEq

/-- The line of an item. -/
def Item.lineno : Item → Nat
  | .call lineno .. | .wrong lineno => lineno

/-- The item of what a line says. -/
def Said.items (lineno : Nat) (sect prevName : List Char) : Said → List Item
  | .more value => [.call lineno sect prevName value]
  | .setting name value => [.call lineno sect name value]
  | .wrong => [.wrong lineno]
  | .nothing | .header _ => []

/-- The section after a line. -/
def Said.sect (sect : List Char) : Said → List Char
  | .header name => strncpy0 name maxSection
  | _ => sect

/-- The name that is gone on with after a line. -/
def Said.prevName (prevName : List Char) : Said → List Char
  | .header _ => []
  | .setting name _ => strncpy0 name maxName
  | _ => prevName

/-- The items of some lines, after so many others in a section with a name before them. -/
def itemsFrom (sect prevName : List Char) (before : Nat) : List (List Char) → List Item
  | [] => []
  | line :: lines =>
    let what := said (before = 0) (prevName ≠ []) line
    what.items (before + 1) sect prevName ++
      itemsFrom (what.sect sect) (what.prevName prevName) (before + 1) lines

/-- The items of a text. -/
def items (text : List Char) : List Item := itemsFrom [] [] 0 (fileLines text)

section
variable {σ : Type} (handler : σ → List Char → List Char → List Char → Bool × σ)

/-- What the handler makes of an item. -/
def after (user : σ) : Item → σ
  | .call _ sect name value => (handler user sect name value).2
  | .wrong _ => user

/-- An item goes well: it is a call, and the handler does not fail. -/
def Fine (user : σ) : Item → Prop
  | .call _ sect name value => (handler user sect name value).1 = true
  | .wrong _ => False

instance (user : σ) : DecidablePred (Fine handler user)
  | .call _ sect name value => inferInstanceAs (Decidable ((handler user sect name value).1 = true))
  | .wrong _ => inferInstanceAs (Decidable False)

/-- The line of the first item that does not go well, 0 if all do. -/
def firstWrong (user : σ) : List Item → Nat
  | [] => 0
  | item :: later =>
    if Fine handler user item then firstWrong (after handler user item) later else item.lineno

/-- The first item that does not go well is among the first ones, or behind them when they all do.
-/
theorem firstWrong_append (user : σ) (front back : List Item)
    (numbered : ∀ item ∈ front, item.lineno ≠ 0) :
    firstWrong handler user (front ++ back) =
      if firstWrong handler user front = 0 then
        firstWrong handler (Runs.run (after handler) user front) back
      else firstWrong handler user front := by
  induction front generalizing user with
  | nil => rfl
  | cons item front ih =>
    rw [List.cons_append, firstWrong, firstWrong]
    by_cases fine : Fine handler user item
    · rw [if_pos fine, if_pos fine]
      exact ih _ fun other member => numbered other (List.mem_cons_of_mem item member)
    · rw [if_neg fine, if_neg fine, if_neg (numbered item List.mem_cons_self)]

/-- What is done with a line is to handle its item. -/
theorem Parse.done_spec (st : Parse σ) (what : Said) :
    (st.done handler what).sect = what.sect st.sect ∧
      (st.done handler what).prevName = what.prevName st.prevName ∧
      (st.done handler what).lineno = st.lineno ∧
      (st.done handler what).user =
        Runs.run (after handler) st.user (what.items st.lineno st.sect st.prevName) ∧
      (st.done handler what).error =
        if st.error = 0 then firstWrong handler st.user (what.items st.lineno st.sect st.prevName)
        else st.error := by
  have none : st.error = if st.error = 0 then 0 else st.error := by
    split
    · assumption
    · rfl
  have called : ∀ ok : Bool, (if ok = false ∧ st.error = 0 then st.lineno else st.error) =
      if st.error = 0 then if ok = true then 0 else st.lineno else st.error := by
    intro ok
    by_cases zero : st.error = 0
    · cases ok
      · simp [zero]
      · simp [zero]
    · simp [zero]
  cases what with
  | nothing => exact ⟨rfl, rfl, rfl, rfl, none⟩
  | header sect => exact ⟨rfl, rfl, rfl, rfl, none⟩
  | more value => exact ⟨rfl, rfl, rfl, rfl, called _⟩
  | setting name value => exact ⟨rfl, rfl, rfl, rfl, called _⟩
  | wrong => exact ⟨rfl, rfl, rfl, rfl, rfl⟩

/-- The items of a line have its number. -/
theorem Said.items_lineno (what : Said) (lineno : Nat) (sect prevName : List Char) :
    ∀ item ∈ what.items lineno sect prevName, item.lineno = lineno := by
  intro item member
  cases what with
  | nothing => cases member
  | header => cases member
  | more => exact List.mem_singleton.mp member ▸ rfl
  | setting => exact List.mem_singleton.mp member ▸ rfl
  | wrong => exact List.mem_singleton.mp member ▸ rfl

/-- The items of some lines are handled one after the other, and the first that does not go well is
remembered unless one went wrong before. -/
theorem foldl_parseLine (lines : List (List Char)) (st : Parse σ) :
    (lines.foldl (parseLine handler) st).user =
        Runs.run (after handler) st.user (itemsFrom st.sect st.prevName st.lineno lines) ∧
      (lines.foldl (parseLine handler) st).error =
        if st.error = 0 then
          firstWrong handler st.user (itemsFrom st.sect st.prevName st.lineno lines)
        else st.error := by
  induction lines generalizing st with
  | nil =>
    refine ⟨rfl, ?_⟩
    split
    · assumption
    · rfl
  | cons line lines ih =>
    have first : decide (st.lineno + 1 = 1) = decide (st.lineno = 0) :=
      decide_eq_decide.mpr (by omega)
    let what := said (st.lineno = 0) (st.prevName ≠ []) line
    have goes : parseLine handler st line =
        { st with lineno := st.lineno + 1 }.done handler what := by
      rw [parseLine]
      dsimp only
      rw [first]
    obtain ⟨sect, prevName, lineno, user, error⟩ :=
      Parse.done_spec handler { st with lineno := st.lineno + 1 } what
    obtain ⟨user', error'⟩ := ih (parseLine handler st line)
    have numbered : ∀ item ∈ what.items (st.lineno + 1) st.sect st.prevName, item.lineno ≠ 0 :=
      fun item member => by rw [what.items_lineno _ _ _ item member]; exact Nat.succ_ne_zero _
    rw [List.foldl_cons, user', error', goes, sect, prevName, lineno, user, error, itemsFrom]
    refine ⟨(List.foldl_append ..).symm, ?_⟩
    dsimp only
    rw [firstWrong_append handler _ _ _ numbered]
    by_cases zero : st.error = 0
    · rw [if_pos zero, if_pos zero]
    · rw [if_neg zero, if_neg zero, if_neg zero]

/-- All items go well, or one of them is the first that does not. -/
theorem firstWrong_spec (user : σ) (items : List Item)
    (numbered : ∀ item ∈ items, item.lineno ≠ 0) :
    (firstWrong handler user items = 0 ↔
        Runs.Along (after handler) (Fine handler) user items) ∧
      (firstWrong handler user items ≠ 0 → ∃ before item later, items = before ++ item :: later ∧
        Runs.Along (after handler) (Fine handler) user before ∧
        ¬Fine handler (Runs.run (after handler) user before) item ∧
        item.lineno = firstWrong handler user items) := by
  induction items generalizing user with
  | nil => exact ⟨iff_of_true rfl trivial, fun wrong => absurd rfl wrong⟩
  | cons item items ih =>
    obtain ⟨zero, first⟩ := ih (after handler user item) fun other member =>
      numbered other (List.mem_cons_of_mem item member)
    rw [firstWrong]
    by_cases fine : Fine handler user item
    · rw [if_pos fine]
      refine ⟨zero.trans ⟨fun along => ⟨fine, along⟩, fun along => along.2⟩, fun wrong => ?_⟩
      obtain ⟨before, bad, later, split, along, not, same⟩ := first wrong
      exact ⟨item :: before, bad, later, by rw [split, List.cons_append], ⟨fine, along⟩, not, same⟩
    · rw [if_neg fine]
      refine ⟨iff_of_false (numbered item List.mem_cons_self) fun along => fine along.1,
        fun _ => ?_⟩
      exact ⟨[], item, items, rfl, trivial, fine, rfl⟩

/-- The items of some lines are numbered by the lines. -/
theorem itemsFrom_lineno (lines : List (List Char)) (sect prevName : List Char) (before : Nat) :
    (itemsFrom sect prevName before lines).Pairwise (fun item next => item.lineno < next.lineno) ∧
      ∀ item ∈ itemsFrom sect prevName before lines,
        before < item.lineno ∧ item.lineno ≤ before + lines.length := by
  induction lines generalizing sect prevName before with
  | nil => exact ⟨.nil, fun item member => absurd member List.not_mem_nil⟩
  | cons line lines ih =>
    rw [itemsFrom]
    let what := said (before = 0) (prevName ≠ []) line
    obtain ⟨order, bounds⟩ := ih (what.sect sect) (what.prevName prevName) (before + 1)
    have own := what.items_lineno (before + 1) sect prevName
    have single : (what.items (before + 1) sect prevName).Pairwise
        fun item next => item.lineno < next.lineno := by
      cases what <;> simp [Said.items]
    rw [List.length_cons]
    refine ⟨List.pairwise_append.mpr ⟨single, order, fun item here next there => ?_⟩, ?_⟩
    · rw [own item here]
      exact (bounds next there).1
    · intro item member
      rcases List.mem_append.mp member with here | there
      · rw [own item here]
        omega
      · have inside := bounds item there
        omega

/-- What the handler is called for is decided by the text alone, whatever it does: it is called for
each item in turn, also after one that went wrong. What is returned is 0 exactly when every line can
be read and no call fails, and otherwise the number of the first line where that is not so. -/
theorem iniParse_first (text : List Char) (user : σ) :
    (iniParseFile handler text user).2 = Runs.run (after handler) user (items text) ∧
      ((iniParseFile handler text user).1 = 0 ↔
        Runs.Along (after handler) (Fine handler) user (items text)) ∧
      ((iniParseFile handler text user).1 ≠ 0 → ∃ before item later,
        items text = before ++ item :: later ∧
          Runs.Along (after handler) (Fine handler) user before ∧
          ¬Fine handler (Runs.run (after handler) user before) item ∧
          item.lineno = (iniParseFile handler text user).1) ∧
      (items text).Pairwise (fun item next => item.lineno < next.lineno) := by
  obtain ⟨made, error⟩ := foldl_parseLine handler (fileLines text) ⟨[], [], 0, 0, user⟩
  obtain ⟨order, bounds⟩ := itemsFrom_lineno (fileLines text) [] [] 0
  have first : (iniParseFile handler text user).1 = firstWrong handler user (items text) := by
    rw [if_pos rfl] at error
    exact error
  obtain ⟨zero, wrong⟩ := firstWrong_spec handler user (items text) fun item member =>
    Nat.ne_of_gt (bounds item member).1
  rw [first]
  exact ⟨made, zero, wrong, order⟩

end

end GpibUtils.Ini
