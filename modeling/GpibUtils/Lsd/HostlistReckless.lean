import GpibUtils.Lsd.HostlistCreate

/-!
# Host lists from text

`hostlist_create` is built with the reckless expansion of ranges. A text without an opening bracket
may have ranges as `tux0-5` or `tux0-tux5`, and a number without a prefix takes the prefix of the
tokens before it, and the width: `tux0-5,12`. What is no such range is one host. The prefix is kept
after a host too, whatever it is then: `foo,1` is `foo` and `fo1`.

What a text stands for depends on its tokens alone, whether it has brackets or not
(`create_hosts`). A text that is written as the notation has it stands for what it says
(`create_written`).
-/

namespace GpibUtils.Lsd

open CSem

/-! ## The code -/

/-- `prefix` and `fmt`, which stay from one token to the next. -/
structure Kept where
  pfx : List Char
  fmt : Nat
  deriving DecidableEq

/-- What a token is taken for. -/
inductive Reading where
  /-- A host, which is pushed as it is. -/
  | host
  /-- The bounds of a range, which is pushed with the prefix and the width that are kept. -/
  | range (low high : Int)
  /-- The prefix does not fit its array. -/
  | overrun
  /-- The difference of the bounds is no `int`. -/
  | overflow
  deriving DecidableEq

/-- The size of the array for a prefix. -/
def prefixSize : Nat := 256

/-- Where the loops leave `pos`: at the first of the digits in front of the last minus sign, or in
front of the last character when there is none. The character in front of a token that begins with
them is looked at too, which changes nothing. When there are no digits it is the last character. -/
def prefixEnd (tok : List Char) : Nat :=
  let pos := if '-' ∈ tok then (tok.reverse.dropWhile fun c => c ≠ '-').length - 1
    else tok.length - 1
  let pos := ((tok.take pos).reverse.dropWhile Char.isDigit).length
  if (tok[pos]?).any Char.isDigit then pos else tok.length - 1

/-- The part of `_hostlist_create` that reads the bounds behind a prefix; there may be an error
already. Without digits behind the minus sign `strtoul` is not called and `high` stays zero, which
is what `strtoul` makes of nothing. -/
def readBounds (pfx : List Char) (error : Bool) (tok : List Char) : Reading :=
  let (number, tok) := strtoul tok
  let low := toInt number.toNat
  match tok with
  | '-' :: tok =>
    let alpha := tok.takeWhile fun c => !c.isDigit
    let digits := tok.dropWhile fun c => !c.isDigit
    let (number, tok) := strtoul digits
    let high := toInt number.toNat
    if low ≤ high ∧ high - low > intMax then .overflow
    else if error ∨ (alpha ≠ [] ∧ alpha ≠ pfx) ∨ digits = [] ∨ low > high ∨
        high - low > maxRange.toNat ∨ tok ≠ [] ∨ high = low then .host
    else .range low high
  | tok => if error ∨ tok ≠ [] ∨ low = 0 then .host else .range low (max low 0)

/-- A pass of the loop of `_hostlist_create`: what is kept, and what the token is taken for. -/
def readTok (kept : Kept) (tok : List Char) : Kept × Reading :=
  let pos := prefixEnd tok
  if pos > 0 ∨ kept.pfx = [] then
    if pos < prefixSize then
      let fmt := ((tok.drop pos).takeWhile Char.isDigit).length
      (⟨tok.take pos, fmt⟩, readBounds (tok.take pos) (fmt = 0) (tok.drop pos))
    else (kept, .overrun)
  else (kept, readBounds kept.pfx false (tok.drop pos))

/-- The loop of `_hostlist_create` over some tokens. -/
def createReckless : List (List Char) → Kept → Hostlist → Created
  | [], _, hl => .list hl
  | tok :: later, kept, hl =>
    match readTok kept tok with
    | (kept, .host) => createReckless later kept (hostlistPushHost hl tok)
    | (kept, .range low high) =>
      createReckless later kept (hostlistPushRange hl
        (hostrangeCreate kept.pfx (toULong low) (toULong high) kept.fmt))
    | (_, .overrun) => .overrun
    | (_, .overflow) => .overflow

/-- `hostlist_create`, by `_hostlist_create`. -/
def hostlistCreate (str : List Char) : Created :=
  if '[' ∈ str then hostlistCreateBracketed str
  else createReckless (tokens (str.length + 1) str) ⟨[], 0⟩ hostlistNew

/-- `hostlist_push` of a text, whose value no program uses; there is no list when
`hostlist_create` does not return. -/
def hostlistPush (hl : Hostlist) (hosts : List Char) : Option Hostlist :=
  match hostlistCreate hosts with
  | .list new => some (hostlistPushList hl new).2
  | .null => some hl
  | .fatal _ | .unterminated | .endless | .overrun | .overflow => none

/-! ## What a text stands for -/

/-- The hosts that a token adds. -/
def Reading.hosts (kept : Kept) (tok : List Char) : Reading → List (List Char)
  | .host => [tok]
  | .range low high => namesBetween kept.pfx kept.fmt low.toNat (high.toNat + 1)
  | .overrun | .overflow => []

/-- Tokens one after another, what is kept when each of them is read, and what it is taken for. -/
def readings : List (List Char) → Kept → List (List Char × Kept × Reading)
  | [], _ => []
  | tok :: later, kept => (tok, readTok kept tok) :: readings later (readTok kept tok).1

/-- A reading that goes on to the next token. -/
def Reading.Ends (reading : Reading) : Prop := reading ≠ .overrun ∧ reading ≠ .overflow

/-- A reading whose bounds are numbers of hosts: a lower bound of `2^31` or more is negative as an
`int`. -/
def Reading.Counted (reading : Reading) : Prop := ∀ low high, reading = .range low high → 0 ≤ low

/-- What the tokens of a text without brackets are taken for. -/
def textReadings (str : List Char) : List (List Char × Kept × Reading) :=
  readings (tokens (str.length + 1) str) ⟨[], 0⟩

/-- The hosts that a text stands for. -/
def textHosts (str : List Char) : List (List Char) :=
  if '[' ∈ str then (tokens (str.length + 1) str).flatMap tokHosts
  else (textReadings str).flatMap fun read => read.2.2.hosts read.2.1 read.1

/-- A text all of whose tokens are taken. -/
def TextTaken (str : List Char) : Prop :=
  if '[' ∈ str then ∀ tok ∈ tokens (str.length + 1) str, Taken tok
  else ∀ read ∈ textReadings str, read.2.2.Ends

/-- A text none of whose ranges leaves the numbers that hosts may have. -/
def TextBounded (str : List Char) : Prop :=
  if '[' ∈ str then ∀ tok ∈ tokens (str.length + 1) str, Bounded tok
  else ∀ read ∈ textReadings str, read.2.2.Counted

/-- The bounds of a range are in order, and the upper one is an `int`. -/
theorem readBounds_order {pfx tok : List Char} {error : Bool} {low high : Int}
    (read : readBounds pfx error tok = .range low high) (counted : 0 ≤ low) :
    low ≤ high ∧ high ≤ intMax := by
  unfold readBounds at read
  dsimp only at read
  split at read
  · split at read
    · exact Reading.noConfusion read
    · split at read
      · exact Reading.noConfusion read
      · rename_i passed
        obtain ⟨lowest, highest⟩ := Reading.range.inj read
        rw [lowest, highest] at passed
        refine ⟨?_, highest ▸ (toInt_range _).2⟩
        exact Int.not_lt.mp fun above => passed (.inr (.inr (.inr (.inl above))))
  · split at read
    · exact Reading.noConfusion read
    · obtain ⟨lowest, highest⟩ := Reading.range.inj read
      rw [lowest] at highest
      rw [max_eq_left counted] at highest
      exact ⟨Int.le_of_eq highest, highest ▸ lowest ▸ (toInt_range _).2⟩

/-- The bounds of the range of a token are in order, and the upper one is an `int`. -/
theorem readTok_order {kept next : Kept} {tok : List Char} {low high : Int}
    (read : readTok kept tok = (next, .range low high)) (counted : 0 ≤ low) :
    low ≤ high ∧ high ≤ intMax := by
  unfold readTok at read
  dsimp only at read
  split at read
  · split at read
    · exact readBounds_order (Prod.mk.inj read).2 counted
    · exact absurd (Prod.mk.inj read).2 (by simp)
  · exact readBounds_order (Prod.mk.inj read).2 counted

/-- Tokens make a list exactly when none of them leaves the array or the `int`s, and then it holds
the hosts of one after another. -/
theorem createReckless_holds {toks : List (List Char)} {kept : Kept}
    (counted : ∀ read ∈ readings toks kept, read.2.2.Counted) {hl : Hostlist}
    {hosts : List (List Char)} (holds : hl.Holds hosts) :
    ((∃ made, createReckless toks kept hl = .list made) ↔
      ∀ read ∈ readings toks kept, read.2.2.Ends) ∧
      ∀ made, createReckless toks kept hl = .list made →
        made.Holds (hosts ++ (readings toks kept).flatMap fun read =>
          read.2.2.hosts read.2.1 read.1) := by
  induction toks generalizing kept hl hosts with
  | nil =>
    refine ⟨⟨fun _ _ member => absurd member List.not_mem_nil, fun _ => ⟨hl, rfl⟩⟩, ?_⟩
    intro made same
    cases same
    rw [readings, List.flatMap_nil, List.append_nil]
    exact holds
  | cons tok later ih =>
    rw [readings, List.forall_mem_cons] at counted
    rw [createReckless, readings, List.forall_mem_cons, List.flatMap_cons, ← List.append_assoc]
    cases read : readTok kept tok with
    | mk next reading =>
      rw [read] at counted
      obtain ⟨first, counted⟩ := counted
      cases reading with
      | host =>
        have ends : Reading.Ends .host := ⟨Reading.noConfusion, Reading.noConfusion⟩
        obtain ⟨proper, names⟩ := hostrangeOf_hosts tok
        have pushed : (hostlistPushHost hl tok).Holds (hosts ++ [tok]) :=
          names ▸ holds.push proper
        obtain ⟨all, made⟩ := ih counted pushed
        exact ⟨all.trans (and_iff_right ends).symm, made⟩
      | range low high =>
        have ends : Reading.Ends (.range low high) := ⟨Reading.noConfusion, Reading.noConfusion⟩
        have positive := first low high rfl
        obtain ⟨order, top⟩ := readTok_order read positive
        have small : high < 2 ^ 64 := Int.lt_of_le_of_lt top (by decide)
        have lowest := toNat_toULong positive (Int.lt_of_le_of_lt order small)
        have highest := toNat_toULong (Int.le_trans positive order) small
        have proper : (hostrangeCreate next.pfx (toULong low) (toULong high) next.fmt).Proper := by
          refine .numbers _ _ ?_ ?_
          · rw [lowest, highest]
            exact Int.toNat_le_toNat order
          · rw [highest]
            have fits : intMax < 2 ^ 64 - 1 := by decide
            omega
        have pushed := holds.push proper
        rw [hosts_hostrangeCreate, lowest, highest] at pushed
        obtain ⟨all, made⟩ := ih counted pushed
        exact ⟨all.trans (and_iff_right ends).symm, made⟩
      | overrun =>
        refine ⟨⟨fun made => Created.noConfusion made.choose_spec, fun all => ?_⟩,
          fun _ same => Created.noConfusion same⟩
        exact absurd rfl all.1.1
      | overflow =>
        refine ⟨⟨fun made => Created.noConfusion made.choose_spec, fun all => ?_⟩,
          fun _ same => Created.noConfusion same⟩
        exact absurd rfl all.1.2

/-- A text whose ranges are numbers of hosts makes a list exactly when its tokens are all taken. -/
theorem hostlistCreate_holds {str : List Char} (bounded : TextBounded str) :
    ((∃ hl, hostlistCreate str = .list hl) ↔ TextTaken str) ∧
      ∀ hl, hostlistCreate str = .list hl → hl.Holds (textHosts str) := by
  unfold TextBounded at bounded
  unfold hostlistCreate TextTaken textHosts
  split at bounded
  · rename_i opened
    simp only [if_pos opened]
    exact createToks_holds bounded hostlistNew_holds
  · rename_i unopened
    simp only [if_neg unopened]
    exact createReckless_holds bounded hostlistNew_holds

/-! ## The notation -/

/-- A piece of a text without brackets: a range has more than one number and not too many, and the
numbers are `int`s. -/
structure Piece.Loose (piece : Piece) : Prop where
  digits : ∀ number ∈ [piece.lo, piece.last], number ≠ [] ∧ ∀ c ∈ number, c.isDigit = true
  order : ∀ hi, piece.hi = some hi → digitsValue piece.lo < digitsValue hi
  few : digitsValue piece.last - digitsValue piece.lo ≤ 16384
  small : digitsValue piece.last < 2 ^ 31

/-- A piece behind a prefix as it is written; something may stand in front of the larger number. -/
def looseText (pfx again : List Char) (piece : Piece) : List Char :=
  match piece.hi with
  | none => pfx ++ piece.lo
  | some hi => pfx ++ piece.lo ++ '-' :: (again ++ hi)

/-- The names of a piece behind a prefix. -/
def looseNames (kept : Kept) (piece : Piece) : List (List Char) :=
  namesBetween kept.pfx kept.fmt (digitsValue piece.lo) (digitsValue piece.last + 1)

/-- A prefix that fits the array, has no minus sign and ends where the digits behind it begin. -/
structure Front (pfx : List Char) : Prop where
  short : pfx.length < prefixSize
  dashes : '-' ∉ pfx
  ends : ∀ c ∈ pfx.getLast?, c.isDigit = false

/-- A host that is no number behind a prefix, and no range: no minus sign follows a digit, and it
has a minus sign or does not end with a digit. -/
structure Plain (name : List Char) : Prop where
  short : name.length ≤ prefixSize
  apart : name.IsChain fun c next => ¬(c.isDigit = true ∧ next = '-')
  ends : '-' ∈ name ∨ ∀ c ∈ name.getLast?, c.isDigit = false

/-- Tokens and the names that they stand for, where the prefix and the width that are kept may be
known. -/
inductive Loosely : Option Kept → List (List Char) → List (List Char) → Prop
  | nil {known : Option Kept} : Loosely known [] []
  /-- A host. What is kept then is nothing to go by. -/
  | host {known : Option Kept} {name : List Char} {toks names : List (List Char)}
      (plain : Plain name) (later : Loosely none toks names) :
      Loosely known (name :: toks) (name :: names)
  /-- Numbers behind a prefix, which may be written again in front of the larger one. There may be
  no prefix as long as none is kept. -/
  | numbers {known : Option Kept} {pfx again : List Char} {piece : Piece}
      {toks names : List (List Char)} (front : Front pfx)
      (alone : pfx = [] → ∃ kept, known = some kept ∧ kept.pfx = [])
      (second : again = [] ∨ again = pfx ∧ ∀ c ∈ pfx, c.isDigit = false) (loose : piece.Loose)
      (later : Loosely (some ⟨pfx, piece.lo.length⟩) toks names) :
      Loosely known (looseText pfx again piece :: toks)
        (looseNames ⟨pfx, piece.lo.length⟩ piece ++ names)
  /-- Numbers that take the prefix of the tokens in front of them; zero alone does not. -/
  | more {kept : Kept} {piece : Piece} {toks names : List (List Char)} (carried : kept.pfx ≠ [])
      (loose : piece.Loose) (counts : piece.hi = none → digitsValue piece.lo ≠ 0)
      (later : Loosely (some kept) toks names) :
      Loosely (some kept) (looseText [] [] piece :: toks) (looseNames kept piece ++ names)

/-- What a text stands for that is written as the notation has it, with brackets or without. -/
inductive Denotes : List Char → List (List Char) → Prop
  | brackets {items : List Item} {str : List Char} (written : Written items str)
      (opened : '[' ∈ str) : Denotes str (items.flatMap Item.names)
  | loose {toks names : List (List Char)} {str : List Char}
      (written : Written (toks.map Item.host) str)
      (loosely : Loosely (some ⟨[], 0⟩) toks names) : Denotes str names

/-- Digits are passed backwards, up to what is in front of them. -/
theorem dropWhile_reverse_digits {front digits : List Char}
    (decimal : ∀ c ∈ digits, c.isDigit = true) (ends : ∀ c ∈ front.getLast?, c.isDigit = false) :
    (front ++ digits).reverse.dropWhile Char.isDigit = front.reverse := by
  rw [List.reverse_append,
    List.dropWhile_append_of_pos fun c member => decimal c (List.mem_reverse.mp member)]
  cases back : front.reverse with
  | nil => rfl
  | cons c later =>
    have last : front.getLast? = some c := by
      rw [List.getLast?_eq_head?_reverse, back]
      rfl
    exact List.dropWhile_cons_of_neg (by rw [ends c last]; decide)

/-- Where the prefix ends: the digits are those in front of the last minus sign, or in front of the
last character. -/
theorem prefixEnd_back {front digits behind : List Char}
    (decimal : ∀ c ∈ digits, c.isDigit = true) (ends : ∀ c ∈ front.getLast?, c.isDigit = false)
    (start : (∃ rest, behind = '-' :: rest ∧ '-' ∉ rest) ∨
      ('-' ∉ front ++ digits ++ behind ∧ behind.length = 1)) :
    prefixEnd (front ++ digits ++ behind) =
      if (digits ++ behind).head?.any Char.isDigit then front.length
      else (front ++ digits ++ behind).length - 1 := by
  have place : (if '-' ∈ front ++ digits ++ behind then
      ((front ++ digits ++ behind).reverse.dropWhile fun c => c ≠ '-').length - 1
      else (front ++ digits ++ behind).length - 1) = (front ++ digits).length := by
    rcases start with ⟨rest, rfl, last⟩ | ⟨none, one⟩
    · have passes : ∀ c ∈ rest.reverse, (decide (c ≠ '-')) = true := fun c member =>
        decide_eq_true fun same => last (same ▸ List.mem_reverse.mp member)
      rw [if_pos (by simp), List.reverse_append, List.reverse_cons, List.append_assoc,
        List.dropWhile_append_of_pos passes, List.cons_append,
        List.dropWhile_cons_of_neg (by simp), List.length_cons, List.nil_append,
        List.length_reverse, Nat.add_sub_cancel]
    · rw [if_neg none, List.length_append, one, Nat.add_sub_cancel]
  have first : (front ++ digits ++ behind)[front.length]? = (digits ++ behind).head? := by
    rw [List.append_assoc, List.getElem?_append_right (Nat.le_refl _), Nat.sub_self,
      List.head?_eq_getElem?]
  rw [prefixEnd, place, List.take_left, dropWhile_reverse_digits decimal ends,
    List.length_reverse, first]

/-- The prefix of numbers ends where it does. -/
theorem prefixEnd_looseText {pfx again : List Char} (front : Front pfx)
    (second : again = [] ∨ again = pfx ∧ ∀ c ∈ pfx, c.isDigit = false) {piece : Piece}
    (loose : piece.Loose) : prefixEnd (looseText pfx again piece) = pfx.length := by
  obtain ⟨lo, hi⟩ := piece
  obtain ⟨nonempty, decimal⟩ := loose.digits lo List.mem_cons_self
  have noDash : ∀ digits : List Char, (∀ c ∈ digits, c.isDigit = true) → '-' ∉ digits :=
    fun digits decimal member => absurd (decimal _ member) (by decide)
  have starts : ∀ rest, ((lo ++ rest).head?.any Char.isDigit) = true := by
    intro rest
    obtain ⟨c, later, rfl⟩ := List.exists_cons_of_ne_nil nonempty
    exact decimal c List.mem_cons_self
  cases hi with
  | none =>
    have split : lo.dropLast ++ [lo.getLast nonempty] = lo := List.dropLast_append_getLast nonempty
    have whole : looseText pfx again ⟨lo, none⟩ =
        pfx ++ lo.dropLast ++ [lo.getLast nonempty] := by
      rw [List.append_assoc, split]
      rfl
    have dashes : '-' ∉ pfx ++ lo.dropLast ++ [lo.getLast nonempty] := by
      rw [List.append_assoc, split, List.mem_append]
      exact fun member => member.elim front.dashes (noDash lo decimal)
    rw [whole, prefixEnd_back (fun c member => decimal c (List.dropLast_subset _ member))
      front.ends (.inr ⟨dashes, rfl⟩), split]
    have begins := starts []
    rw [List.append_nil] at begins
    rw [if_pos begins]
  | some hi =>
    obtain ⟨-, decimal'⟩ := loose.digits hi (List.mem_cons_of_mem _ List.mem_cons_self)
    have dashes : '-' ∉ again ++ hi := by
      rw [List.mem_append]
      rintro (member | member)
      · rcases second with rfl | ⟨rfl, -⟩
        · exact absurd member List.not_mem_nil
        · exact front.dashes member
      · exact noDash hi decimal' member
    rw [looseText, prefixEnd_back decimal front.ends (.inl ⟨_, rfl, dashes⟩), if_pos (starts _)]

/-- A number that fits the `int` is read as it is. -/
theorem strtoul_int {digits rest : List Char} (nonempty : digits ≠ [])
    (decimal : ∀ c ∈ digits, c.isDigit = true) (ends : ∀ c ∈ rest.head?, c.isDigit = false)
    (small : digitsValue digits < 2 ^ 31) :
    (strtoul (digits ++ rest)).2 = rest ∧
      toInt (strtoul (digits ++ rest)).1.toNat = digitsValue digits := by
  have fits : digitsValue digits < 2 ^ 64 := Nat.lt_trans small (by decide)
  rw [strtoul_digits nonempty decimal ends fits]
  refine ⟨rfl, ?_⟩
  show toInt (UInt64.ofNat (digitsValue digits)).toNat = _
  rw [UInt64.toNat_ofNat', Nat.mod_eq_of_lt fits]
  have top : ((digitsValue digits : Nat) : Int) ≤ 2 ^ 31 - 1 := by omega
  exact toInt_of_range (by omega) top

/-- A number alone is both bounds, unless it is zero. -/
theorem readBounds_number (pfx : List Char) {lo : List Char} (nonempty : lo ≠ [])
    (decimal : ∀ c ∈ lo, c.isDigit = true) (small : digitsValue lo < 2 ^ 31) :
    readBounds pfx false lo =
      if digitsValue lo = 0 then .host else .range (digitsValue lo) (digitsValue lo) := by
  obtain ⟨rest, number⟩ := @strtoul_int lo [] nonempty decimal (by simp) small
  rw [List.append_nil] at rest number
  simp only [readBounds, rest, number]
  simp

/-- Two numbers with a minus sign between them are the bounds; the prefix may be written again. -/
theorem readBounds_range {pfx again : List Char}
    (second : again = [] ∨ again = pfx ∧ ∀ c ∈ pfx, c.isDigit = false) {lo hi : List Char}
    (loose : (Piece.mk lo (some hi)).Loose) :
    readBounds pfx false (lo ++ '-' :: (again ++ hi)) =
      .range (digitsValue lo) (digitsValue hi) := by
  have small : digitsValue hi < 2 ^ 31 := loose.small
  have above : digitsValue lo < digitsValue hi := loose.order hi rfl
  obtain ⟨nonempty, decimal⟩ := loose.digits lo List.mem_cons_self
  obtain ⟨nonempty', decimal'⟩ := loose.digits hi (List.mem_cons_of_mem _ List.mem_cons_self)
  obtain ⟨rest, number⟩ := @strtoul_int lo ('-' :: (again ++ hi)) nonempty decimal (by simp)
    (Nat.lt_trans above small)
  obtain ⟨rest', number'⟩ := @strtoul_int hi [] nonempty' decimal' (by simp) small
  rw [List.append_nil] at rest' number'
  have plain : ∀ c ∈ again, (!c.isDigit) = true := by
    rcases second with rfl | ⟨rfl, plain⟩
    · exact fun c member => absurd member List.not_mem_nil
    · exact fun c member => by rw [plain c member]; rfl
  have stops : hi.takeWhile (fun c => !c.isDigit) = [] ∧
      hi.dropWhile (fun c => !c.isDigit) = hi := by
    obtain ⟨c, later, rfl⟩ := List.exists_cons_of_ne_nil nonempty'
    have digit := decimal' c List.mem_cons_self
    exact ⟨List.takeWhile_cons_of_neg (by simp [digit]),
      List.dropWhile_cons_of_neg (by simp [digit])⟩
  have alpha : ¬(again ≠ [] ∧ again ≠ pfx) := by
    rcases second with rfl | ⟨rfl, -⟩
    · exact fun both => both.1 rfl
    · exact fun both => both.2 rfl
  have below : (digitsValue hi : Int) - digitsValue lo ≤ 16384 := by
    have few : digitsValue hi - digitsValue lo ≤ 16384 := loose.few
    omega
  have most : ((maxRange.toNat : Nat) : Int) = 16384 := rfl
  have top : intMax = 2 ^ 31 - 1 := rfl
  have fits : ¬((digitsValue lo : Int) ≤ digitsValue hi ∧
      (digitsValue hi : Int) - digitsValue lo > intMax) := by omega
  have passed : ¬((false = true) ∨ (again ≠ [] ∧ again ≠ pfx) ∨ hi = [] ∨
      (digitsValue lo : Int) > digitsValue hi ∨
      (digitsValue hi : Int) - digitsValue lo > maxRange.toNat ∨ ([] : List Char) ≠ [] ∨
      (digitsValue hi : Int) = digitsValue lo) := by
    rintro (no | no | no | no | no | no | no)
    · exact Bool.noConfusion no
    · exact alpha no
    · exact nonempty' no
    · omega
    · omega
    · exact no rfl
    · omega
  simp only [readBounds, rest, number, List.takeWhile_append_of_pos plain,
    List.dropWhile_append_of_pos plain, stops.1, stops.2, List.append_nil, rest', number',
    if_neg fits, if_neg passed]

/-- The bounds of a piece are read; zero alone is taken for a host. -/
theorem readBounds_looseText {pfx again : List Char}
    (second : again = [] ∨ again = pfx ∧ ∀ c ∈ pfx, c.isDigit = false) {piece : Piece}
    (loose : piece.Loose) :
    readBounds pfx false (looseText [] again piece) =
      if piece.hi = none ∧ digitsValue piece.lo = 0 then .host
      else .range (digitsValue piece.lo) (digitsValue piece.last) := by
  obtain ⟨lo, hi⟩ := piece
  cases hi with
  | none =>
    obtain ⟨nonempty, decimal⟩ := loose.digits lo List.mem_cons_self
    refine (readBounds_number pfx nonempty decimal loose.small).trans ?_
    simp only [true_and]
    rfl
  | some hi =>
    rw [if_neg fun both => Option.some_ne_none _ both.1]
    exact readBounds_range second loose

/-- Numbers are read with the prefix in front of them, or with the prefix that is kept. -/
theorem readTok_looseText {pfx again : List Char} (front : Front pfx)
    (second : again = [] ∨ again = pfx ∧ ∀ c ∈ pfx, c.isDigit = false) {piece : Piece}
    (loose : piece.Loose) (kept : Kept) :
    readTok kept (looseText pfx again piece) =
      if pfx ≠ [] ∨ kept.pfx = [] then
        (⟨pfx, piece.lo.length⟩, readBounds pfx false (looseText [] again piece))
      else (kept, readBounds kept.pfx false (looseText [] again piece)) := by
  have place := prefixEnd_looseText front second loose
  have cut : looseText pfx again piece = pfx ++ looseText [] again piece := by
    obtain ⟨lo, hi⟩ := piece
    cases hi with
    | none => rfl
    | some hi => exact List.append_assoc _ _ _
  have width : ((looseText [] again piece).takeWhile Char.isDigit).length = piece.lo.length := by
    obtain ⟨lo, hi⟩ := piece
    obtain ⟨-, decimal⟩ := loose.digits lo List.mem_cons_self
    cases hi with
    | none =>
      show (lo.takeWhile Char.isDigit).length = _
      rw [List.takeWhile_eq_self_iff.mpr decimal]
    | some hi =>
      show ((lo ++ '-' :: (again ++ hi)).takeWhile Char.isDigit).length = _
      rw [List.takeWhile_append_of_pos decimal, List.takeWhile_cons_of_neg (by decide),
        List.append_nil]
  have digits : decide (piece.lo.length = 0) = false :=
    decide_eq_false fun none =>
      (loose.digits piece.lo List.mem_cons_self).1 (List.length_eq_zero_iff.mp none)
  have some : pfx.length > 0 ↔ pfx ≠ [] := List.length_pos_iff
  rw [readTok, place]
  simp only [some, cut, List.take_left, List.drop_left, width, digits, if_pos front.short]

/-- A single number behind a prefix is written as its name. -/
theorem looseNames_single (pfx : List Char) {lo : List Char} (nonempty : lo ≠ [])
    (decimal : ∀ c ∈ lo, c.isDigit = true) :
    looseNames ⟨pfx, lo.length⟩ ⟨lo, none⟩ = [pfx ++ lo] := by
  show namesBetween pfx lo.length (digitsValue lo) (digitsValue lo + 1) = _
  rw [namesBetween_cons _ _ (Nat.lt_succ_self _), namesBetween_nil _ _ (Nat.le_refl _),
    zeroPadded_digitsValue nonempty decimal]

/-- What ends with neither a digit nor a minus sign behind digits is no range. -/
theorem readBounds_host {digits : List Char} (decimal : ∀ c ∈ digits, c.isDigit = true) {c : Char}
    (last : c.isDigit = false) (apart : digits = [] ∨ c ≠ '-') (pfx : List Char) (error : Bool) :
    readBounds pfx error (digits ++ [c]) = .host := by
  by_cases none : digits = []
  · subst none
    have alone : strtoul [c] = (0, [c]) := by
      have empty : (numeralOf [c]).digits = [] := by
        by_cases space : isSpace c = true
        · simp [numeralOf, space, signOf]
        by_cases sign : c = '+' ∨ c = '-'
        · rcases sign with rfl | rfl <;> rfl
        · have unsigned : signOf [c] = (false, [c]) := by
            rw [not_or] at sign
            simp [signOf, sign.1, sign.2]
          simp [numeralOf, space, unsigned, last]
      rw [strtoul, if_pos empty]
    rw [List.nil_append]
    by_cases dash : c = '-'
    · subst dash
      have top : (0 : Int) ≤ intMax := by decide
      simp [readBounds, alone, (show strtoul [] = (0, []) from rfl), top]
    · simp [readBounds, alone, dash]
  · have stops : ∀ d ∈ [c].head?, d.isDigit = false := by
      rintro d same
      cases same
      exact last
    have rest : (strtoul (digits ++ [c])).2 = [c] := by
      rw [strtoul, numeralOf_digits none decimal stops, if_neg none]
    have dash : c ≠ '-' := apart.resolve_left none
    simp [readBounds, rest, dash]

/-- A token that has no bounds is a host. -/
theorem readTok_host {tok : List Char} (short : prefixEnd tok < prefixSize)
    (host : ∀ pfx error, readBounds pfx error (tok.drop (prefixEnd tok)) = .host) (kept : Kept) :
    (readTok kept tok).2 = .host := by
  rw [readTok]
  simp only [if_pos short, host]
  split <;> rfl

/-- A token is read as numbers of hosts, and stands for some names. -/
structure Reads (kept : Kept) (tok : List Char) (names : List (List Char)) : Prop where
  ends : (readTok kept tok).2.Ends
  counted : (readTok kept tok).2.Counted
  hosts : (readTok kept tok).2.hosts (readTok kept tok).1 tok = names

/-- A token that is taken for a host stands for itself. -/
theorem Reads.host {kept : Kept} {tok : List Char} (host : (readTok kept tok).2 = .host) :
    Reads kept tok [tok] where
  ends := by
    rw [host]
    exact ⟨Reading.noConfusion, Reading.noConfusion⟩
  counted := fun low high same => Reading.noConfusion (host.symm.trans same)
  hosts := by rw [host, Reading.hosts]

/-- A token that is taken for the numbers of a piece stands for their names. -/
theorem Reads.piece {kept next : Kept} {tok : List Char} {piece : Piece}
    (read : readTok kept tok =
      (next, .range (digitsValue piece.lo) (digitsValue piece.last))) :
    Reads kept tok (looseNames next piece) where
  ends := by
    rw [read]
    exact ⟨Reading.noConfusion, Reading.noConfusion⟩
  counted := by
    intro low high same
    rw [read] at same
    obtain ⟨lowest, -⟩ := Reading.range.inj same
    exact lowest ▸ Int.natCast_nonneg _
  hosts := by rw [read, Reading.hosts, Int.toNat_natCast, Int.toNat_natCast, looseNames]

/-- Numbers stand for their names, with the prefix in front of them or with the one that is kept. -/
theorem reads_looseText {pfx again : List Char} (front : Front pfx)
    (second : again = [] ∨ again = pfx ∧ ∀ c ∈ pfx, c.isDigit = false) {piece : Piece}
    (loose : piece.Loose) {kept : Kept} (fresh : pfx ≠ [] ∨ kept.pfx = []) :
    (readTok kept (looseText pfx again piece)).1 = ⟨pfx, piece.lo.length⟩ ∧
      Reads kept (looseText pfx again piece) (looseNames ⟨pfx, piece.lo.length⟩ piece) := by
  have read := readTok_looseText front second loose kept
  rw [if_pos fresh, readBounds_looseText second loose] at read
  refine ⟨by rw [read], ?_⟩
  split at read
  · rename_i zero
    obtain ⟨lo, hi⟩ := piece
    obtain rfl : hi = none := zero.1
    obtain ⟨nonempty, decimal⟩ := loose.digits lo List.mem_cons_self
    rw [looseNames_single pfx nonempty decimal]
    exact .host (by rw [read])
  · exact .piece read

/-- A number alone is a piece. -/
theorem Piece.loose_number {lo : List Char} (nonempty : lo ≠ [])
    (decimal : ∀ c ∈ lo, c.isDigit = true) (small : digitsValue lo < 2 ^ 31) :
    (Piece.mk lo none).Loose := by
  refine ⟨?_, fun hi same => absurd same (by simp), ?_, small⟩
  · intro number member
    have same : number = lo := by simpa [Piece.last] using member
    exact same ▸ ⟨nonempty, decimal⟩
  · rw [Piece.last, Option.getD_none, Nat.sub_self]
    exact Nat.zero_le _

/-- A token whose last character is taken for the number stands for itself, whether that is a digit
or not. -/
theorem reads_last {init : List Char} {c : Char} (place : prefixEnd (init ++ [c]) = init.length)
    (short : init.length < prefixSize) (fresh : c.isDigit = true → init ≠ []) (kept : Kept) :
    Reads kept (init ++ [c]) [init ++ [c]] := by
  cases digit : c.isDigit with
  | false =>
    refine .host (readTok_host (place ▸ short) ?_ kept)
    rw [place, List.drop_left]
    exact readBounds_host (fun d member => absurd member List.not_mem_nil) digit (.inl rfl)
  | true =>
    have decimal : ∀ d ∈ [c], d.isDigit = true := fun d member =>
      List.mem_singleton.mp member ▸ digit
    have small : digitsValue [c] < 2 ^ 31 :=
      Nat.lt_trans (digitsValue_lt decimal) (show 10 ^ 1 < 2 ^ 31 by decide)
    have read : readTok kept (init ++ [c]) = (⟨init, 1⟩, readBounds init false [c]) := by
      rw [readTok, place]
      simp only [List.take_left, List.drop_left, if_pos short]
      rw [if_pos (.inl (List.length_pos_of_ne_nil (fresh digit)))]
      simp [digit]
    rw [readBounds_number init (List.cons_ne_nil c []) decimal small] at read
    split at read
    · exact .host (by rw [read])
    · rw [← looseNames_single init (List.cons_ne_nil c []) decimal]
      exact .piece read

/-- The digits that a name ends with. -/
def trailingDigits (name : List Char) : List Char := (name.reverse.takeWhile Char.isDigit).reverse

/-- A name is cut in front of the digits that it ends with. -/
theorem exists_trailingDigits (name : List Char) :
    ∃ front, front ++ trailingDigits name = name ∧
      (∀ c ∈ trailingDigits name, c.isDigit = true) ∧
      ∀ c ∈ front.getLast?, c.isDigit = false := by
  refine ⟨(name.reverse.dropWhile Char.isDigit).reverse, ?_, fun c member => ?_,
    fun c member => ?_⟩
  · rw [trailingDigits, ← List.reverse_append, List.takeWhile_append_dropWhile,
      List.reverse_reverse]
  · exact List.mem_takeWhile_imp (List.mem_reverse.mp member)
  · rw [List.getLast?_reverse] at member
    have stops := List.head?_dropWhile_not Char.isDigit name.reverse
    rw [Option.mem_def.mp member] at stops
    exact stops

/-- A host stands for itself. -/
theorem Plain.reads {name : List Char} (plain : Plain name) (nonempty : name ≠ []) (kept : Kept) :
    Reads kept name [name] := by
  have split : name.dropLast ++ [name.getLast nonempty] = name :=
    List.dropLast_append_getLast nonempty
  generalize name.dropLast = init at split
  generalize name.getLast nonempty = c at split
  subst split
  have short : init.length < prefixSize := by
    have short := plain.short
    rw [List.length_append, List.length_singleton] at short
    exact short
  have length : (init ++ [c]).length - 1 = init.length := by
    rw [List.length_append, List.length_singleton, Nat.add_sub_cancel]
  by_cases dash : '-' ∈ init ++ [c]
  · -- The last minus sign has no digit in front of it.
    obtain ⟨rest, before, same, none⟩ :=
      List.eq_append_cons_of_mem (List.mem_reverse.mpr dash)
    have parts : init ++ [c] = before.reverse ++ [] ++ '-' :: rest.reverse := by
      rw [← List.reverse_reverse (init ++ [c]), same]
      simp
    have apart := plain.apart
    rw [parts, List.append_nil, List.isChain_append] at apart
    have ends : ∀ d ∈ before.reverse.getLast?, d.isDigit = false := by
      intro d last
      have next := apart.2.2 d last '-' rfl
      simpa using next
    have place := prefixEnd_back (fun d member => absurd member List.not_mem_nil) ends
      (.inl ⟨_, rfl, fun member => none (List.mem_reverse.mp member)⟩)
    rw [← parts] at place
    refine reads_last (place.trans length) short ?_ kept
    rintro digit rfl
    have minus : '-' = c := by simpa using dash
    exact absurd digit (minus ▸ by decide)
  · -- Digits in front of the last character have it behind them.
    have last : c.isDigit = false :=
      (plain.ends.resolve_left dash) c (by simp)
    obtain ⟨front, parts, decimal, ends⟩ := exists_trailingDigits init
    generalize trailingDigits init = digits at parts decimal
    have place := prefixEnd_back decimal ends (.inr ⟨parts.symm ▸ dash, rfl⟩)
    rw [parts] at place
    by_cases none : digits = []
    · rw [none, List.nil_append, List.head?_cons, Option.any_some, last, if_neg (by decide),
        length] at place
      exact reads_last place short (fun digit => absurd digit (by rw [last]; decide)) kept
    · have starts : ((digits ++ [c]).head?.any Char.isDigit) = true := by
        obtain ⟨d, later, same⟩ := List.exists_cons_of_ne_nil none
        rw [same] at decimal ⊢
        exact decimal d List.mem_cons_self
      rw [if_pos starts] at place
      have within : front.length < prefixSize := by
        rw [← parts, List.length_append] at short
        omega
      refine .host (readTok_host (place ▸ within) ?_ kept)
      rw [place, ← parts, List.append_assoc, List.drop_left]
      exact readBounds_host decimal last (.inr fun same => dash (by simp [same]))

/-- Tokens that are written as the notation has it stand for what it says, whatever is kept when
nothing is known. -/
theorem Loosely.reads {known : Option Kept} {toks names : List (List Char)}
    (loosely : Loosely known toks names) (nonempty : ∀ tok ∈ toks, tok ≠ []) {kept : Kept}
    (same : ∀ other, known = some other → other = kept) :
    (∀ read ∈ readings toks kept, read.2.2.Ends ∧ read.2.2.Counted) ∧
      ((readings toks kept).flatMap fun read => read.2.2.hosts read.2.1 read.1) = names := by
  -- A token that reads as some names goes in front of what the others read as.
  have step : ∀ {tok : List Char} {toks first names : List (List Char)} {kept : Kept},
      Reads kept tok first →
      (∀ read ∈ readings toks (readTok kept tok).1, read.2.2.Ends ∧ read.2.2.Counted) ∧
        ((readings toks (readTok kept tok).1).flatMap fun read =>
          read.2.2.hosts read.2.1 read.1) = names →
      (∀ read ∈ readings (tok :: toks) kept, read.2.2.Ends ∧ read.2.2.Counted) ∧
        ((readings (tok :: toks) kept).flatMap fun read =>
          read.2.2.hosts read.2.1 read.1) = first ++ names := by
    intro tok toks first names kept reads later
    rw [readings, List.forall_mem_cons, List.flatMap_cons]
    exact ⟨⟨⟨reads.ends, reads.counted⟩, later.1⟩, congrArg₂ _ reads.hosts later.2⟩
  induction loosely generalizing kept with
  | nil => exact ⟨fun read member => absurd member List.not_mem_nil, rfl⟩
  | @host known name toks names plain later ih =>
    rw [List.forall_mem_cons] at nonempty
    exact step (plain.reads nonempty.1 kept)
      (ih nonempty.2 fun other known => absurd known (by simp))
  | @numbers known pfx again piece toks names front alone second loose later ih =>
    rw [List.forall_mem_cons] at nonempty
    have fresh : pfx ≠ [] ∨ kept.pfx = [] := by
      by_cases none : pfx = []
      · obtain ⟨other, known, empty⟩ := alone none
        exact .inr (same other known ▸ empty)
      · exact .inl none
    obtain ⟨next, reads⟩ := reads_looseText front second loose fresh
    refine step reads (ih nonempty.2 fun other known => ?_)
    rw [next]
    exact (Option.some.inj known).symm
  | @more before piece toks names carried loose counts later ih =>
    rw [List.forall_mem_cons] at nonempty
    obtain rfl := same before rfl
    have read := readTok_looseText ⟨by decide, List.not_mem_nil, by simp⟩ (.inl rfl) loose before
    rw [if_neg fun fresh => fresh.elim (fun none => none rfl) carried,
      readBounds_looseText (.inl rfl) loose, if_neg fun zero => counts zero.1 zero.2] at read
    refine step (.piece read) (ih nonempty.2 fun other known => ?_)
    rw [read]
    exact (Option.some.inj known).symm

/-- Where no item has an opening bracket, there is none. -/
theorem Written.unopened {items : List Item} {str : List Char} (written : Written items str)
    (closed : ∀ item ∈ items, '[' ∉ item.text) : '[' ∉ str := by
  have separator : ∀ seps : List Char, (∀ c ∈ seps, isSep c = true) → '[' ∉ seps :=
    fun seps separate member => absurd (separate _ member) (by decide)
  induction written with
  | nil separate => exact separator _ separate
  | cons separate proper ends later ih =>
    rw [List.forall_mem_cons] at closed
    rw [List.mem_append, List.mem_append]
    rintro (front | inside | behind)
    · exact separator _ separate front
    · exact closed.1 inside
    · exact ih closed.2 behind

/-- A text that is written as the notation has it makes a list of the names that it stands for, in
order. -/
theorem Denotes.creates {str : List Char} {names : List (List Char)}
    (denotes : Denotes str names) :
    ∃ hl, hostlistCreate str = .list hl ∧ hl.Tidy ∧ hl.hosts = names := by
  have text : TextBounded str ∧ TextTaken str ∧ textHosts str = names := by
    rw [TextBounded, TextTaken, textHosts]
    cases denotes with
    | @brackets items str written opened =>
      have toks := written.tokens_eq (Nat.lt_succ_self str.length)
      simp only [if_pos opened, toks, List.forall_mem_map, List.flatMap_map]
      refine ⟨fun item member => (written.proper item member).token.2.1,
        fun item member => (written.proper item member).token.1, ?_⟩
      exact List.flatMap_congr fun item member => (written.proper item member).token.2.2
    | @loose toks names str written loosely =>
      have tokens := written.tokens_eq (Nat.lt_succ_self str.length)
      have same : (toks.map Item.host).map Item.text = toks := by
        rw [List.map_map]
        exact List.map_id toks
      rw [same] at tokens
      have proper : ∀ tok ∈ toks, (Item.host tok).Proper := fun tok member =>
        written.proper _ (List.mem_map_of_mem member)
      have unopened : '[' ∉ str := by
        refine written.unopened fun item member => ?_
        obtain ⟨tok, inside, rfl⟩ := List.mem_map.mp member
        exact fun opens => ((proper tok inside).2.2 _ opens).2 rfl
      simp only [if_neg unopened, textReadings, tokens]
      obtain ⟨each, names⟩ := @Loosely.reads _ _ _ loosely (fun tok member => (proper tok member).1)
        ⟨[], 0⟩ fun other known => (Option.some.inj known).symm
      exact ⟨fun read member => (each read member).2, fun read member => (each read member).1,
        names⟩
  obtain ⟨bounded, taken, hosts⟩ := text
  obtain ⟨made, holds⟩ := hostlistCreate_holds bounded
  obtain ⟨hl, list⟩ := made.mpr taken
  exact ⟨hl, list, (holds hl list).1, (holds hl list).2.trans hosts⟩

/-- When the names are short, and not too many, the list is sound. -/
theorem Denotes.creates_sound {str : List Char} {names : List (List Char)}
    (denotes : Denotes str names) (short : ∀ name ∈ names, name.length ≤ 14)
    (few : (names.length : Int) ≤ intMax) :
    ∃ hl, hostlistCreate str = .list hl ∧ hl.Sound ∧ hl.hosts = names := by
  obtain ⟨hl, made, tidy, hosts⟩ := denotes.creates
  exact ⟨hl, made, tidy.sound (hosts ▸ short) (hosts ▸ few), hosts⟩

/-- Tokens without brackets are not refused. -/
theorem createReckless_not_refused (toks : List (List Char)) (kept : Kept) (hl : Hostlist)
    (refusal : Refusal) : createReckless toks kept hl ≠ refusal.created := by
  induction toks generalizing kept hl with
  | nil => cases refusal <;> exact Created.noConfusion
  | cons tok later ih =>
    rw [createReckless]
    split
    · exact ih _ _
    · exact ih _ _
    · cases refusal <;> exact Created.noConfusion
    · cases refusal <;> exact Created.noConfusion

/-- Tokens are refused when the ranges of one of them are. -/
theorem createToks_refused {toks : List (List Char)} {hl : Hostlist} {refusal : Refusal}
    (refused : createToks toks hl = refusal.created) :
    ∃ tok ∈ toks, rangesOf tok = .error refusal := by
  induction toks generalizing hl with
  | nil => cases refusal <;> cases refused
  | cons tok later ih =>
    rw [createToks] at refused
    split at refused
    · obtain ⟨other, member, ranges⟩ := ih refused
      exact ⟨other, List.mem_cons_of_mem _ member, ranges⟩
    · exact ⟨tok, List.mem_cons_self, createTok_refused refused⟩

/-- A text makes a list exactly when each of its tokens is taken. In a text with an opening bracket
that is a host that is copied whole, or brackets whose ranges are not refused; in a text without, a
token leaves neither the array for the prefix nor the numbers of an `int`. The list is tidy, however
its ranges meet, and its hosts are those of one token after another, when no range leaves the
numbers that hosts may have. Only ranges in brackets are refused. -/
theorem create_hosts (str : List Char) (bounded : TextBounded str) :
    ((∃ hl, hostlistCreate str = .list hl) ↔ TextTaken str) ∧
      (∀ hl, hostlistCreate str = .list hl → hl.Tidy ∧ hl.hosts = textHosts str) ∧
      ∀ refusal : Refusal, hostlistCreate str = refusal.created →
        '[' ∈ str ∧ ∃ tok ∈ tokens (str.length + 1) str, rangesOf tok = .error refusal := by
  obtain ⟨made, holds⟩ := hostlistCreate_holds bounded
  refine ⟨made, holds, fun refusal refused => ?_⟩
  rw [hostlistCreate] at refused
  split at refused
  · rename_i opened
    exact ⟨opened, createToks_refused refused⟩
  · exact absurd refused (createReckless_not_refused _ _ _ refusal)

/-- A prefix is kept from one token to the next, also behind a host. -/
theorem create_hosts_kept :
    ∃ hl, hostlistCreate "foo,1,n3-5,7".toList = .list hl ∧
      hl.hosts = ["foo".toList, "fo1".toList, "n3".toList, "n4".toList, "n5".toList,
        "n7".toList] := by
  have read : textReadings "foo,1,n3-5,7".toList =
      [("foo".toList, ⟨"fo".toList, 0⟩, .host), ("1".toList, ⟨"fo".toList, 0⟩, .range 1 1),
        ("n3-5".toList, ⟨"n".toList, 1⟩, .range 3 5),
        ("7".toList, ⟨"n".toList, 1⟩, .range 7 7)] := by
    decide
  have unopened : '[' ∉ "foo,1,n3-5,7".toList := by decide
  have bounded : TextBounded "foo,1,n3-5,7".toList := by
    rw [TextBounded, if_neg unopened, read]
    simp [Reading.Counted]
  have taken : TextTaken "foo,1,n3-5,7".toList := by
    rw [TextTaken, if_neg unopened, read]
    simp [Reading.Ends]
  obtain ⟨made, holds, -⟩ := create_hosts "foo,1,n3-5,7".toList bounded
  obtain ⟨hl, list⟩ := made.mpr taken
  refine ⟨hl, list, (holds hl list).2.trans ?_⟩
  rw [textHosts, if_neg unopened, read]
  decide

/-- A text that is written as the notation has it makes a list, and whoever goes through the list
gets the names that the text stands for, each of them once and in order. The end of the list is
reached exactly when there is a cell behind the ranges. -/
theorem create_written {str : List Char} {names : List (List Char)} (denotes : Denotes str names)
    (short : ∀ name ∈ names, name.length ≤ 14) (few : (names.length : Int) ≤ intMax) {rounds : Nat}
    (enough : names.length < rounds) :
    ∃ hl, hostlistCreate str = .list hl ∧
      iterate hl rounds = (names, decide (hl.hr = [] ∨ hl.hr.length < hl.size)) := by
  obtain ⟨hl, made, sound, hosts⟩ := denotes.creates_sound short few
  rw [← hosts] at enough ⊢
  exact ⟨hl, made, iterate_eq sound enough⟩

/-- Ranges without brackets, and a number that takes the prefix of the range in front of it. -/
theorem create_written_three :
    ∃ hl, hostlistCreate "tux0-tux1, 12".toList = .list hl ∧
      iterate hl 4 = (["tux0".toList, "tux1".toList, "tux12".toList],
        decide (hl.hr = [] ∨ hl.hr.length < hl.size)) := by
  have range : (Piece.mk "0".toList (some "1".toList)).Loose :=
    ⟨by decide, fun hi same => by cases same; decide, by decide, by decide⟩
  have number : (Piece.mk "12".toList none).Loose :=
    ⟨by decide, fun hi same => absurd same (by simp), by decide, by decide⟩
  have front : Front "tux".toList := ⟨by decide, by decide, by decide⟩
  have loosely : Loosely (some ⟨[], 0⟩) ["tux0-tux1".toList, "12".toList] _ :=
    .numbers front (fun none => absurd none (by decide)) (.inr ⟨rfl, by decide⟩) range
      (.more (by decide) number (fun _ => by decide) .nil)
  have none : ∀ c ∈ ([] : List Char), isSep c = true := by decide
  have comma : ∀ c ∈ [',', ' '], isSep c = true := by decide
  have first : (Item.host "tux0-tux1".toList).Proper := ⟨by decide, by decide, by decide⟩
  have second : (Item.host "12".toList).Proper := ⟨by decide, by decide, by decide⟩
  have written : Written (["tux0-tux1".toList, "12".toList].map Item.host)
      "tux0-tux1, 12".toList :=
    .cons none first (by decide) (.cons comma second (by decide) (.nil none))
  exact create_written (.loose written loosely) (by decide) (by decide) (show _ < 4 by decide)

end GpibUtils.Lsd
