import GpibUtils.CSem.Decimal
import GpibUtils.Lsd.HostlistIterator
import Mathlib.Data.List.TakeWhile

/-!
# Host lists from text with brackets

A text is cut into tokens at tabs, commas and blanks, but not at those between brackets. In a text
that has an opening bracket, a token without brackets is one host. A token with brackets is a
prefix, numbers and ranges of numbers between the brackets, and what comes after them. Bounds that
are out of order, or too far apart, end the program.

What a text stands for depends on its tokens alone: the ranges of the list are put together in
whatever way they meet, and the hosts are those of one token after another (`createToks_holds`).
Tokens that are written as the notation has it stand for what they say (`Item.Proper.token`).
-/

namespace GpibUtils.Lsd

open CSem

/-! ## The code -/

/-- The separators `hostlist_create` gives: `"\t, "`. -/
def isSep (c : Char) : Bool := c = '\t' ∨ c = ',' ∨ c = ' '

/-- `strchr`: what is in front of the character, and what is behind it. -/
def strchr (c : Char) (s : List Char) : Option (List Char × List Char) :=
  match s.dropWhile fun other => other ≠ c with
  | [] => none
  | _ :: behind => some (s.takeWhile fun other => other ≠ c, behind)

/-- `_advance_past_brackets`, of a token and what comes behind it. -/
def advancePastBrackets (tok str : List Char) : Option (List Char × List Char) :=
  if '[' ∈ tok ∧ ']' ∉ tok then
    match strchr ']' str with
    | some (inside, behind) =>
      if '[' ∈ inside then none else some (tok ++ inside ++ [']'], behind)
    | none => none
  else none

/-- The loop of `_next_tok` that ends a token; a token that has been advanced past brackets is not
advanced again. -/
def endTok : (rounds : Nat) → (tok str : List Char) → List Char × List Char
  | 0, tok, str => (tok, str)
  | rounds + 1, tok, str =>
    let tok := tok ++ str.takeWhile fun c => !isSep c
    let str := str.dropWhile fun c => !isSep c
    match advancePastBrackets tok str with
    | some (tok, str) => endTok rounds tok str
    | none => (tok, str)

/-- `_next_tok`: the token, and what comes behind it. -/
def nextTok (str : List Char) : Option (List Char × List Char) :=
  let str := str.dropWhile isSep
  if str = [] then none
  else
    let (tok, str) := endTok 2 [] str
    some (tok, str.dropWhile isSep)

/-- `MAX_RANGE` -/
def maxRange : UInt64 := 16384

/-- `MAX_HOST_SUFFIX` -/
def maxHostSuffix : UInt64 := 33554432

/-- `MAX_RANGES` -/
def maxRanges : Nat := 10240

/-- `struct hostname_components` -/
structure Hostname where
  hostname : List Char
  pfx : List Char
  num : UInt64
  suffix : Option (List Char)
  deriving DecidableEq

/-- `host_prefix_end` -/
def hostPrefixEnd (hostname : List Char) : Int :=
  (hostname.reverse.dropWhile Char.isDigit).length - 1

/-- `hostname_create` -/
def hostnameCreate (hostname : List Char) : Hostname :=
  let idx := hostPrefixEnd hostname
  if idx = hostname.length - 1 then ⟨hostname, hostname, 0, none⟩
  else
    let suffix := hostname.drop (idx + 1).toNat
    let (num, p) := strtoul suffix
    if p = [] ∧ num ≤ maxHostSuffix then ⟨hostname, hostname.take (idx + 1).toNat, num, some suffix⟩
    else ⟨hostname, hostname, num, none⟩

/-- The range of `hostlist_push_host`. -/
def hostrangeOf (hn : Hostname) : Hostrange :=
  match hn.suffix with
  | some suffix => hostrangeCreate hn.pfx hn.num hn.num suffix.length
  | none => hostrangeCreateSingle hn.hostname

/-- `hostlist_push_host` -/
def hostlistPushHost (hl : Hostlist) (str : List Char) : Hostlist :=
  hostlistPushRange hl (hostrangeOf (hostnameCreate str))

/-- `struct _range` -/
structure Range where
  lo : UInt64
  hi : UInt64
  width : Nat
  deriving DecidableEq

/-- Why ranges are refused. -/
inductive Refusal where
  /-- "Invalid range", by way of `_error`. -/
  | invalid (orig : List Char)
  /-- "Too many hosts in range", by way of `_error`. -/
  | hosts (orig : List Char)
  /-- More than `MAX_RANGES` ranges, without a message. -/
  | ranges
  deriving DecidableEq

/-- The upper bound of a range, from what is behind the minus sign, or from the lower bound and what
is behind it: the number, what is behind it, and whether there is one. -/
def upperBound (p : Option (List Char)) (lo : UInt64) (q : List Char) :
    UInt64 × List Char × Bool :=
  match p with
  | some (c :: p) =>
    let (hi, q) := strtoul (c :: p)
    (hi, q, q ≠ c :: p)
  | _ => (lo, q, true)

/-- `_parse_single_range` -/
def parseSingleRange (orig : List Char) : Except Refusal Range :=
  let (str, p) :=
    match strchr '-' orig with
    | some (str, p) => (str, some p)
    | none => (orig, none)
  if p.bind List.head? = some '-' then .error (.invalid orig)
  else
    let (lo, q) := strtoul str
    if q = str then .error (.invalid orig)
    else
      let (hi, q, number) := upperBound p lo q
      if number = false ∨ q ≠ [] then .error (.invalid orig)
      else if lo > hi then .error (.invalid orig)
      else if hi - lo + 1 > maxRange then .error (.hosts orig)
      else .ok ⟨lo, hi, str.length⟩

/-- `_parse_range_list`, with room for some ranges. -/
def parseRangeList : (room : Nat) → (str : List Char) → Except Refusal (List Range)
  | 0, _ => .error .ranges
  | room + 1, str =>
    match strchr ',' str with
    | none => (parseSingleRange str).map ([·])
    | some (str, p) =>
      match parseSingleRange str with
      | .error refusal => .error refusal
      | .ok range => (parseRangeList room p).map (range :: ·)

/-- `_push_range_list`, which calls `hostlist_push_hr` -/
def pushRangeList (hl : Hostlist) (pfx : List Char) (ranges : List Range) : Hostlist :=
  ranges.foldl (fun hl rng =>
    hostlistPushRange hl (hostrangeCreate pfx rng.lo rng.hi rng.width)) hl

/-- `_push_range_list_with_suffix`, of ranges that do not end with the largest number. -/
def pushRangeListWithSuffix (hl : Hostlist) (pfx sfx : List Char) (ranges : List Range) :
    Hostlist :=
  ranges.foldl (fun hl rng =>
    (List.range' rng.lo.toNat (rng.hi.toNat + 1 - rng.lo.toNat)).foldl (fun hl j =>
      hostlistPushRange hl (hostrangeCreateSingle
        ((pfx ++ zeroPadded rng.width j ++ sfx).take 4095))) hl) hl

/-- What becomes of a text. -/
inductive Created where
  | list (hl : Hostlist)
  /-- `hostlist_create` returns NULL. -/
  | null
  /-- `_error` calls `lsd_fatal_error`, which prints a message and exits with status 1. -/
  | fatal (refusal : Refusal)
  /-- The copy of a token takes all of `cur_tok`, and has no end. -/
  | unterminated
  /-- A loop goes to the largest number, and does not end. -/
  | endless
  /-- A prefix does not fit its array. -/
  | overrun
  /-- The difference of two bounds is no `int`. -/
  | overflow
  deriving DecidableEq

/-- What becomes of a text whose ranges are refused. -/
def Refusal.created : Refusal → Created
  | .ranges => .null
  | refusal => .fatal refusal

/-- The host that a token is, of which `cur_tok` is a copy. -/
def createHost (hl : Hostlist) (curTok : List Char) : Created :=
  if curTok.length < 1024 then .list (hostlistPushHost hl curTok) else .unterminated

/-- What `_hostlist_create_bracketed` does with a token. -/
def createTok (hl : Hostlist) (tok : List Char) : Created :=
  match strchr '[' tok with
  | none => createHost hl tok
  | some (pfx, p) =>
    match strchr ']' p with
    | none => createHost hl tok
    | some (inside, q) =>
      match parseRangeList maxRanges inside with
      | .error refusal => refusal.created
      | .ok ranges =>
        if q = [] then .list (pushRangeList hl pfx ranges)
        else if ranges.any fun rng => rng.hi = -1 then .endless
        else .list (pushRangeListWithSuffix hl pfx q ranges)

/-- The tokens of a text. -/
def tokens : (rounds : Nat) → (str : List Char) → List (List Char)
  | 0, _ => []
  | rounds + 1, str =>
    match nextTok str with
    | none => []
    | some (tok, str) => tok :: tokens rounds str

/-- The loop of `_hostlist_create_bracketed` over some tokens. -/
def createToks : List (List Char) → Hostlist → Created
  | [], hl => .list hl
  | tok :: later, hl =>
    match createTok hl tok with
    | .list hl => createToks later hl
    | failed => failed

/-- `_hostlist_create_bracketed` -/
def hostlistCreateBracketed (str : List Char) : Created :=
  createToks (tokens (str.length + 1) str) hostlistNew

/-! ## What a list is made of -/

/-- A list whose ranges have hosts, whose array has cells and room for them, and that counts its
hosts as an `int` does. -/
structure Hostlist.Tidy (hl : Hostlist) : Prop where
  ranges : ∀ hr ∈ hl.hr, hr.Proper
  cells : 0 < hl.size
  room : hl.hr.length ≤ hl.size
  count : hl.nhosts = toInt hl.hosts.length

/-- A list is tidy, and stands for some hosts. -/
def Hostlist.Holds (hl : Hostlist) (hosts : List (List Char)) : Prop :=
  hl.Tidy ∧ hl.hosts = hosts

/-- A tidy list whose names are short is sound. -/
theorem Hostlist.Tidy.sound {hl : Hostlist} (tidy : hl.Tidy)
    (short : ∀ name ∈ hl.hosts, name.length ≤ 14) (few : (hl.hosts.length : Int) ≤ intMax) :
    hl.Sound where
  ranges := by
    intro hr member
    have names : ∀ name ∈ hr.hosts, name.length ≤ 14 := fun name inside =>
      short name (List.mem_flatMap.mpr ⟨hr, member, inside⟩)
    have proper := tidy.ranges hr member
    cases proper with
    | single pfx =>
      have length : pfx.length ≤ 14 := names pfx List.mem_cons_self
      exact ⟨.single pfx, Nat.le_trans length (by decide), Nat.zero_le 14, Nat.pow_pos (by decide)⟩
    | @numbers pfx lo hi width order below =>
      have last : pfx ++ zeroPadded width hi.toNat ∈ (hostrangeCreate pfx lo hi width).hosts := by
        refine List.mem_map.mpr ⟨hi.toNat, List.mem_range'_1.mpr ⟨order, ?_⟩, rfl⟩
        show hi.toNat < lo.toNat + (hi.toNat + 1 - lo.toNat)
        omega
      have length := names _ last
      rw [List.length_append, zeroPadded, List.length_append, List.length_replicate] at length
      have digits : (Nat.toDigits 10 hi.toNat).length ≤ 14 := by omega
      have small := (Nat.length_toDigits_le_iff (by decide) (by decide)).mp digits
      have front : pfx.length ≤ maxhostnamelen := Nat.le_trans (by omega) (show 14 ≤ 64 by decide)
      have narrow : width ≤ 14 := by omega
      exact ⟨.numbers pfx width order below, front, narrow, small⟩
  cells := tidy.cells
  room := tidy.room
  count := by rw [tidy.count, toInt_of_range (by omega) few]
  few := few

/-- A range that has hosts puts them behind the others. -/
theorem Hostlist.Holds.push {hl : Hostlist} {hosts : List (List Char)} (holds : hl.Holds hosts)
    {hr : Hostrange} (proper : hr.Proper) :
    (hostlistPushRange hl hr).Holds (hosts ++ hr.hosts) := by
  obtain ⟨tidy, rfl⟩ := holds
  obtain ⟨pushed, ranges⟩ := hostlistPushRange_hosts (fun _ proper => proper)
    (fun _ _ _ first second extended => (Hostrange.extend_hosts first second extended).2)
    tidy.ranges proper
  refine ⟨⟨ranges, Nat.lt_of_lt_of_le tidy.cells hl.size_le_expanded,
    hostlistPushRange_room hr tidy.room, ?_⟩, pushed⟩
  show toInt (hl.nhosts + (hostrangeCount hr).toNat) = _
  rw [pushed, tidy.count, proper.count, Int.add_comm, toInt_add_toInt, List.length_append,
    Nat.cast_add, Int.add_comm]

/-- What is pushed in a loop puts its hosts behind the others, when every pass does. -/
theorem Hostlist.Holds.foldl {α : Type} {pass : Hostlist → α → Hostlist}
    {names : α → List (List Char)} {items : List α}
    (each : ∀ item ∈ items, ∀ (hl : Hostlist) (hosts : List (List Char)), hl.Holds hosts →
      (pass hl item).Holds (hosts ++ names item))
    {hl : Hostlist} {hosts : List (List Char)} (holds : hl.Holds hosts) :
    (items.foldl pass hl).Holds (hosts ++ items.flatMap names) := by
  induction items generalizing hl hosts with
  | nil =>
    rw [List.flatMap_nil, List.append_nil]
    exact holds
  | cons item later ih =>
    rw [List.foldl_cons, List.flatMap_cons, ← List.append_assoc]
    exact ih (fun other member => each other (List.mem_cons_of_mem _ member))
      (each item List.mem_cons_self _ _ holds)

/-- A new list holds nothing. -/
theorem hostlistNew_holds : hostlistNew.Holds [] :=
  ⟨⟨fun _ member => absurd member List.not_mem_nil, by decide, Nat.zero_le _,
    (toInt_of_range (by decide) (by decide)).symm⟩, rfl⟩

/-! ## Hosts -/

/-- Digits that do not fit the word are read as the largest number. -/
theorem strtoul_large {digits : List Char} (nonempty : digits ≠ [])
    (decimal : ∀ c ∈ digits, c.isDigit = true) (large : 2 ^ 64 ≤ digitsValue digits) :
    strtoul digits = (-1, []) := by
  have read := @numeralOf_digits digits [] nonempty decimal (by simp)
  rw [List.append_nil] at read
  simp only [strtoul, read, if_neg nonempty, if_pos large]

/-- The range of a host has the host and no other. -/
theorem hostrangeOf_hosts (str : List Char) :
    (hostrangeOf (hostnameCreate str)).Proper ∧
      (hostrangeOf (hostnameCreate str)).hosts = [str] := by
  have split : (str.reverse.dropWhile Char.isDigit).reverse ++
      (str.reverse.takeWhile Char.isDigit).reverse = str := by
    rw [← List.reverse_append, List.takeWhile_append_dropWhile, List.reverse_reverse]
  let front := (str.reverse.dropWhile Char.isDigit).reverse
  let digits := (str.reverse.takeWhile Char.isDigit).reverse
  have decimal : ∀ c ∈ digits, c.isDigit = true := fun c member =>
    List.mem_takeWhile_imp (List.mem_reverse.mp member)
  have ends : hostPrefixEnd str = front.length - 1 := by
    rw [hostPrefixEnd, List.length_reverse]
  have total : str.length = front.length + digits.length := by
    rw [← List.length_append, split]
  have single : (hostrangeCreateSingle str).Proper ∧ (hostrangeCreateSingle str).hosts = [str] :=
    ⟨.single str, rfl⟩
  rw [hostnameCreate, ends]
  by_cases none : digits = []
  · have same : (front.length : Int) - 1 = str.length - 1 := by
      rw [total, none]
      rfl
    rw [if_pos same]
    exact single
  · have some : (front.length : Int) - 1 ≠ str.length - 1 := by
      have positive := List.length_pos_of_ne_nil none
      omega
    have place : ((front.length : Int) - 1 + 1).toNat = front.length := by omega
    have behind : str.drop front.length = digits := by
      rw [← split]
      exact List.drop_left
    have before : str.take front.length = front := by
      rw [← split]
      exact List.take_left
    rw [if_neg some, place, behind, before]
    dsimp only
    split
    · rename_i valid
      by_cases fits : digitsValue digits < 2 ^ 64
      · have read := @strtoul_digits digits [] none decimal (by simp) fits
        rw [List.append_nil] at read
        rw [read] at valid ⊢
        have number : (UInt64.ofNat (digitsValue digits)).toNat = digitsValue digits := by
          rw [UInt64.toNat_ofNat']
          exact Nat.mod_eq_of_lt fits
        have small : digitsValue digits ≤ 33554432 := by
          rw [← number]
          exact UInt64.le_iff_toNat_le.mp valid.2
        refine ⟨.numbers front digits.length (Nat.le_refl _) (by dsimp only; omega), ?_⟩
        show (hostrangeCreate front _ _ digits.length).hosts = _
        rw [hosts_hostrangeCreate, number, namesBetween_cons _ _ (Nat.lt_succ_self _),
          namesBetween_nil _ _ (Nat.le_refl _), zeroPadded_digitsValue none decimal, split]
      · rw [strtoul_large none decimal (Nat.not_lt.mp fits)] at valid
        exact absurd valid.2 (by decide)
    · exact single

/-! ## Tokens -/

/-- What is in front of, between and behind the brackets of a token. -/
def brackets (tok : List Char) : Option (List Char × List Char × List Char) :=
  (strchr '[' tok).bind fun (pfx, p) => (strchr ']' p).map fun (inside, q) => (pfx, inside, q)

/-- The ranges that are read between the brackets of a token. -/
def rangesOf (tok : List Char) : Except Refusal (List Range) :=
  match brackets tok with
  | none => .ok []
  | some (_, inside, _) => parseRangeList maxRanges inside

/-- The hosts of a range with what is in front of its brackets and what is behind them. -/
def Range.hosts (pfx sfx : List Char) (rng : Range) : List (List Char) :=
  if sfx = [] then namesBetween pfx rng.width rng.lo.toNat (rng.hi.toNat + 1)
  else (List.range' rng.lo.toNat (rng.hi.toNat + 1 - rng.lo.toNat)).map fun j =>
    (pfx ++ zeroPadded rng.width j ++ sfx).take 4095

/-- The hosts that a token stands for. -/
def tokHosts (tok : List Char) : List (List Char) :=
  match brackets tok, rangesOf tok with
  | none, _ => [tok]
  | some (pfx, _, sfx), .ok ranges => ranges.flatMap (Range.hosts pfx sfx)
  | some _, .error _ => []

/-- A token that is taken: a host that `cur_tok` has room for, or ranges that are not refused. -/
def Taken (tok : List Char) : Prop :=
  match brackets tok with
  | none => tok.length < 1024
  | some _ => ∃ ranges, rangesOf tok = .ok ranges

/-- No range of a token goes to the largest number. -/
def Bounded (tok : List Char) : Prop :=
  ∀ ranges, rangesOf tok = .ok ranges → ∀ rng ∈ ranges, rng.hi ≠ -1

/-- The bounds of a range that is read are in order. -/
theorem parseSingleRange_order {orig : List Char} {rng : Range}
    (read : parseSingleRange orig = .ok rng) : rng.lo ≤ rng.hi := by
  unfold parseSingleRange at read
  grind

/-- The bounds of ranges that are read are in order. -/
theorem parseRangeList_order {room : Nat} {str : List Char} {ranges : List Range}
    (read : parseRangeList room str = .ok ranges) : ∀ rng ∈ ranges, rng.lo ≤ rng.hi := by
  induction room generalizing str ranges with
  | zero => cases read
  | succ room ih =>
    rw [parseRangeList] at read
    intro rng member
    split at read
    · cases single : parseSingleRange str with
      | error refusal =>
        rw [single] at read
        cases read
      | ok range =>
        rw [single] at read
        cases read
        exact List.mem_singleton.mp member ▸ parseSingleRange_order single
    · split at read
      · cases read
      · rename_i p _ _ range single
        cases list : parseRangeList room p with
        | error refusal =>
          rw [list] at read
          cases read
        | ok later =>
          rw [list] at read
          cases read
          rcases List.mem_cons.mp member with first | member
          · exact first ▸ parseSingleRange_order single
          · exact ih list rng member

/-- Ranges that do not go to the largest number are pushed. -/
theorem pushRangeList_holds {hl : Hostlist} {hosts : List (List Char)} (holds : hl.Holds hosts)
    (pfx : List Char) {ranges : List Range} (order : ∀ rng ∈ ranges, rng.lo ≤ rng.hi)
    (bounded : ∀ rng ∈ ranges, rng.hi ≠ -1) :
    (pushRangeList hl pfx ranges).Holds (hosts ++ ranges.flatMap (Range.hosts pfx [])) := by
  refine holds.foldl fun rng member hl hosts holds => ?_
  have below : rng.hi.toNat + 1 < 2 ^ 64 := by
    have last : rng.hi.toNat ≠ (-1 : UInt64).toNat :=
      fun same => bounded rng member (UInt64.toNat_inj.mp same)
    have word : (-1 : UInt64).toNat = 2 ^ 64 - 1 := by decide
    have bound := rng.hi.toNat_lt
    omega
  exact holds.push (.numbers pfx rng.width (UInt64.le_iff_toNat_le.mp (order rng member)) below)

/-- Ranges with something behind the brackets are pushed as one host after another. -/
theorem pushRangeListWithSuffix_holds {hl : Hostlist} {hosts : List (List Char)}
    (holds : hl.Holds hosts) (pfx : List Char) {sfx : List Char} (some : sfx ≠ [])
    (ranges : List Range) :
    (pushRangeListWithSuffix hl pfx sfx ranges).Holds
      (hosts ++ ranges.flatMap (Range.hosts pfx sfx)) := by
  refine holds.foldl fun rng _ hl hosts holds => ?_
  let name : Nat → List Char := fun j => (pfx ++ zeroPadded rng.width j ++ sfx).take 4095
  have each : ∀ j ∈ List.range' rng.lo.toNat (rng.hi.toNat + 1 - rng.lo.toNat),
      ∀ (hl : Hostlist) (hosts : List (List Char)), hl.Holds hosts →
        (hostlistPushRange hl (hostrangeCreateSingle (name j))).Holds (hosts ++ [name j]) :=
    fun j _ hl hosts holds => holds.push (.single (name j))
  rw [Range.hosts, if_neg some, List.map_eq_flatMap]
  exact holds.foldl each

/-- A token with brackets is read in parts. -/
theorem createTok_eq (hl : Hostlist) (tok : List Char) :
    createTok hl tok =
      match brackets tok with
      | none => createHost hl tok
      | some (pfx, inside, q) =>
        match parseRangeList maxRanges inside with
        | .error refusal => refusal.created
        | .ok ranges =>
          if q = [] then .list (pushRangeList hl pfx ranges)
          else if ranges.any fun rng => rng.hi = -1 then .endless
          else .list (pushRangeListWithSuffix hl pfx q ranges) := by
  rw [createTok, brackets]
  cases strchr '[' tok with
  | none => rfl
  | some parts =>
    dsimp only [Option.bind_some]
    cases strchr ']' parts.2 with
    | none => rfl
    | some parts' => rfl

/-- A token that is taken puts its hosts behind the others. -/
theorem createTok_taken {hl : Hostlist} {hosts : List (List Char)} (holds : hl.Holds hosts)
    {tok : List Char} (bounded : Bounded tok) (taken : Taken tok) :
    ∃ hl', createTok hl tok = .list hl' ∧ hl'.Holds (hosts ++ tokHosts tok) := by
  rw [createTok_eq, tokHosts]
  rw [Taken] at taken
  cases parts : brackets tok with
  | none =>
    rw [parts] at taken
    have short : tok.length < 1024 := taken
    obtain ⟨proper, names⟩ := hostrangeOf_hosts tok
    exact ⟨_, if_pos short, names ▸ holds.push proper⟩
  | some split =>
    obtain ⟨pfx, inside, sfx⟩ := split
    rw [parts] at taken
    obtain ⟨ranges, read⟩ := taken
    have last := bounded ranges read
    have parsed : parseRangeList maxRanges inside = .ok ranges := by
      rwa [rangesOf, parts] at read
    have order := parseRangeList_order parsed
    rw [read]
    dsimp only
    rw [parsed]
    dsimp only
    by_cases none : sfx = []
    · subst none
      exact ⟨_, if_pos rfl, pushRangeList_holds holds pfx order last⟩
    · have bound : (ranges.any fun rng => rng.hi = -1) = false := by
        rw [List.any_eq_false]
        intro rng member
        simpa using last rng member
      rw [if_neg none, bound]
      exact ⟨_, rfl, pushRangeListWithSuffix_holds holds pfx none ranges⟩

/-- A token that is not taken makes no list. -/
theorem createTok_not_taken (hl : Hostlist) {tok : List Char} (not : ¬Taken tok) (hl' : Hostlist) :
    createTok hl tok ≠ .list hl' := by
  rw [createTok_eq]
  rw [Taken] at not
  cases parts : brackets tok with
  | none =>
    rw [parts] at not
    have long : ¬tok.length < 1024 := not
    dsimp only
    rw [createHost, if_neg long]
    exact Created.noConfusion
  | some split =>
    obtain ⟨pfx, inside, sfx⟩ := split
    rw [parts] at not
    have read : rangesOf tok = parseRangeList maxRanges inside := by rw [rangesOf, parts]
    cases parsed : parseRangeList maxRanges inside with
    | error refusal =>
      dsimp only
      rw [parsed]
      cases refusal <;> exact Created.noConfusion
    | ok ranges => exact absurd ⟨ranges, read.trans parsed⟩ not

/-- A token is refused when its ranges are. -/
theorem createTok_refused {hl : Hostlist} {tok : List Char} {refusal : Refusal}
    (refused : createTok hl tok = refusal.created) : rangesOf tok = .error refusal := by
  rw [createTok_eq] at refused
  rw [rangesOf]
  cases parts : brackets tok with
  | none =>
    rw [parts] at refused
    dsimp only at refused
    rw [createHost] at refused
    split at refused <;> cases refusal <;> exact Created.noConfusion refused
  | some split =>
    obtain ⟨pfx, inside, sfx⟩ := split
    rw [parts] at refused
    dsimp only at refused ⊢
    cases parsed : parseRangeList maxRanges inside with
    | error other =>
      rw [parsed] at refused
      have same : other.created = refusal.created := refused
      cases other <;> cases refusal <;> simp_all [Refusal.created]
    | ok ranges =>
      rw [parsed] at refused
      dsimp only at refused
      split at refused
      · cases refusal <;> exact Created.noConfusion refused
      · split at refused <;> cases refusal <;> exact Created.noConfusion refused

/-- Tokens that do not go to the largest number make a list exactly when they are all taken, and
then it holds the hosts of one after another. -/
theorem createToks_holds {toks : List (List Char)} (bounded : ∀ tok ∈ toks, Bounded tok)
    {hl : Hostlist} {hosts : List (List Char)} (holds : hl.Holds hosts) :
    ((∃ hl', createToks toks hl = .list hl') ↔ ∀ tok ∈ toks, Taken tok) ∧
      ∀ hl', createToks toks hl = .list hl' → hl'.Holds (hosts ++ toks.flatMap tokHosts) := by
  induction toks generalizing hl hosts with
  | nil =>
    refine ⟨⟨fun _ _ member => absurd member List.not_mem_nil, fun _ => ⟨hl, rfl⟩⟩, ?_⟩
    intro hl' made
    cases made
    rw [List.flatMap_nil, List.append_nil]
    exact holds
  | cons tok later ih =>
    rw [createToks]
    by_cases taken : Taken tok
    · obtain ⟨next, made, holds'⟩ := createTok_taken holds (bounded tok List.mem_cons_self) taken
      obtain ⟨all, made'⟩ :=
        ih (fun other member => bounded other (List.mem_cons_of_mem _ member)) holds'
      rw [made, List.forall_mem_cons, List.flatMap_cons, ← List.append_assoc]
      exact ⟨all.trans (and_iff_right taken).symm, made'⟩
    · have none : ∀ hl', (match createTok hl tok with
          | .list hl => createToks later hl
          | failed => failed) ≠ .list hl' := by
        intro hl' made
        split at made
        · rename_i next first
          exact createTok_not_taken hl taken next first
        · rename_i failed
          exact failed hl' made
      refine ⟨⟨fun made => absurd made.choose_spec (none _), fun all => ?_⟩, fun hl' made => ?_⟩
      · exact absurd (all tok List.mem_cons_self) taken
      · exact absurd made (none hl')

/-! ## The notation -/

/-- A number between brackets, or two with a minus sign between them. -/
structure Piece where
  lo : List Char
  hi : Option (List Char)
  deriving DecidableEq

/-- The larger number. -/
def Piece.last (piece : Piece) : List Char := piece.hi.getD piece.lo

/-- A piece as it is written. -/
def Piece.text (piece : Piece) : List Char :=
  match piece.hi with
  | none => piece.lo
  | some hi => piece.lo ++ '-' :: hi

/-- A piece consists of digits, its numbers are in order, there are not too many of them, and the
last one is not the largest that there is. -/
structure Piece.Proper (piece : Piece) : Prop where
  digits : ∀ number ∈ [piece.lo, piece.last], number ≠ [] ∧ ∀ c ∈ number, c.isDigit = true
  order : digitsValue piece.lo ≤ digitsValue piece.last
  few : digitsValue piece.last - digitsValue piece.lo < 16384
  fits : digitsValue piece.last + 1 < 2 ^ 64

/-- The range that a piece is read as. -/
def Piece.range (piece : Piece) : Range :=
  ⟨UInt64.ofNat (digitsValue piece.lo), UInt64.ofNat (digitsValue piece.last), piece.lo.length⟩

/-- Pieces as they are written between brackets. -/
def insideText (pieces : List Piece) : List Char :=
  List.intercalate [','] (pieces.map Piece.text)

/-- The names of a piece, with what is in front of the brackets and what is behind them. -/
def Piece.names (pfx sfx : List Char) (piece : Piece) : List (List Char) :=
  (namesBetween pfx piece.lo.length (digitsValue piece.lo) (digitsValue piece.last + 1)).map
    (· ++ sfx)

/-- A host, or hosts in brackets. -/
inductive Item where
  | host (name : List Char)
  | hosts (pfx : List Char) (pieces : List Piece) (sfx : List Char)
  deriving DecidableEq

/-- An item as it is written. -/
def Item.text : Item → List Char
  | .host name => name
  | .hosts pfx pieces sfx =>
    pfx ++ '[' :: (insideText pieces ++ ']' :: sfx)

/-- The names that an item stands for. -/
def Item.names : Item → List (List Char)
  | .host name => [name]
  | .hosts pfx pieces sfx => pieces.flatMap (Piece.names pfx sfx)

/-- An item that is written as the notation has it: no separator outside of its brackets, no other
brackets in front of them, and names that are copied whole. -/
def Item.Proper : Item → Prop
  | .host name => name ≠ [] ∧ name.length < 1024 ∧ ∀ c ∈ name, isSep c = false ∧ c ≠ '['
  | .hosts pfx pieces sfx =>
    (∀ c ∈ pfx, isSep c = false ∧ c ≠ '[' ∧ c ≠ ']') ∧ (∀ c ∈ sfx, isSep c = false) ∧
      pieces ≠ [] ∧ pieces.length ≤ maxRanges ∧
      ∀ piece ∈ pieces, piece.Proper ∧ pfx.length + piece.lo.length + sfx.length + 20 ≤ 4095

/-- Items are written with separators between them. -/
inductive Written : List Item → List Char → Prop
  | nil {seps : List Char} (separate : ∀ c ∈ seps, isSep c = true) : Written [] seps
  | cons {seps rest : List Char} {item : Item} {items : List Item}
      (separate : ∀ c ∈ seps, isSep c = true) (proper : item.Proper)
      (ends : ∀ c ∈ rest.head?, isSep c = true) (later : Written items rest) :
      Written (item :: items) (seps ++ (item.text ++ rest))

/-- A character is found behind what does not have it. -/
theorem strchr_append {c : Char} {front : List Char} (without : ∀ other ∈ front, other ≠ c)
    (behind : List Char) : strchr c (front ++ c :: behind) = some (front, behind) := by
  have passes : ∀ other ∈ front, (decide (other ≠ c)) = true := fun other member =>
    decide_eq_true (without other member)
  rw [strchr, List.dropWhile_append_of_pos passes, List.takeWhile_append_of_pos passes,
    List.dropWhile_cons_of_neg (by simp), List.takeWhile_cons_of_neg (by simp), List.append_nil]

/-- A character is not found in what does not have it. -/
theorem strchr_none {c : Char} {s : List Char} (without : ∀ other ∈ s, other ≠ c) :
    strchr c s = none := by
  have passes : ∀ other ∈ s, (decide (other ≠ c)) = true := fun other member =>
    decide_eq_true (without other member)
  have gone := @List.dropWhile_append_of_pos _ (fun other => decide (other ≠ c)) s [] passes
  rw [List.append_nil, List.dropWhile_nil] at gone
  rw [strchr, gone]

/-- A digit is no separator, minus sign or bracket. -/
theorem digit_plain {c : Char} (digit : c.isDigit = true) :
    isSep c = false ∧ c ≠ '-' ∧ c ≠ '[' ∧ c ≠ ']' ∧ c ≠ ',' := by
  refine ⟨?_, ?_, ?_, ?_, ?_⟩
  · rw [isSep, decide_eq_false_iff_not]
    rintro (rfl | rfl | rfl) <;> exact absurd digit (by decide)
  all_goals
    rintro rfl
    exact absurd digit (by decide)

/-- Digits with nothing behind them are read. -/
theorem strtoul_whole {digits : List Char} (nonempty : digits ≠ [])
    (decimal : ∀ c ∈ digits, c.isDigit = true) (fits : digitsValue digits < 2 ^ 64) :
    strtoul digits = (UInt64.ofNat (digitsValue digits), []) := by
  have read := @strtoul_digits digits [] nonempty decimal (by simp) fits
  rwa [List.append_nil] at read

/-- The bounds of a range pass the checks when they are in order and close. -/
theorem bounds_pass {lo hi : Nat} (order : lo ≤ hi) (few : hi - lo < 16384)
    (fits : hi + 1 < 2 ^ 64) :
    ¬UInt64.ofNat lo > UInt64.ofNat hi ∧ ¬UInt64.ofNat hi - UInt64.ofNat lo + 1 > maxRange := by
  have low : (UInt64.ofNat lo).toNat = lo := by
    rw [UInt64.toNat_ofNat']
    omega
  have high : (UInt64.ofNat hi).toNat = hi := by
    rw [UInt64.toNat_ofNat']
    omega
  have distance : (UInt64.ofNat hi - UInt64.ofNat lo).toNat = hi - lo := by
    rw [toNat_sub (by omega), low, high]
  have one : (1 : UInt64).toNat = 1 := rfl
  have most : maxRange.toNat = 16384 := rfl
  rw [gt_iff_lt, gt_iff_lt, UInt64.lt_iff_toNat_lt, UInt64.lt_iff_toNat_lt, UInt64.toNat_add, low,
    high, distance, one, most]
  omega

/-- A piece is read. -/
theorem parseSingleRange_text {piece : Piece} (proper : piece.Proper) :
    parseSingleRange piece.text = .ok piece.range := by
  obtain ⟨lo, hi⟩ := piece
  obtain ⟨digits, order, few, fits⟩ := proper
  obtain ⟨inOrder, close⟩ := bounds_pass order few fits
  obtain ⟨nonempty, decimal⟩ := digits lo List.mem_cons_self
  have whole := strtoul_whole nonempty decimal (Nat.lt_of_le_of_lt order (Nat.lt_of_succ_lt fits))
  have plain : ∀ c ∈ lo, c ≠ '-' := fun c member => (digit_plain (decimal c member)).2.1
  cases hi with
  | none =>
    have one : ¬maxRange = 0 := by decide
    simp [parseSingleRange, Piece.text, strchr_none plain, whole, nonempty.symm, upperBound, one,
      Piece.range, Piece.last]
  | some hi =>
    simp only [Piece.last, Option.getD_some] at inOrder close fits digits
    obtain ⟨nonempty', decimal'⟩ := digits hi (List.mem_cons_of_mem _ List.mem_cons_self)
    have whole' := strtoul_whole nonempty' decimal' (Nat.lt_of_succ_lt fits)
    obtain ⟨c, later, rfl⟩ := List.exists_cons_of_ne_nil nonempty'
    have digit : c ≠ '-' := (digit_plain (decimal' c List.mem_cons_self)).2.1
    simp only [parseSingleRange, Piece.text, strchr_append plain, whole, whole', upperBound,
      Option.bind_some, List.head?_cons, Option.some.injEq, if_neg digit, if_neg nonempty.symm]
    simp [inOrder, close, Piece.range, Piece.last]

/-- A piece is written without commas, brackets or separators. -/
theorem Piece.Proper.plain {piece : Piece} (proper : piece.Proper) :
    ∀ c ∈ piece.text, isSep c = false ∧ c ≠ '[' ∧ c ≠ ']' ∧ c ≠ ',' := by
  obtain ⟨lo, hi⟩ := piece
  have number : ∀ number ∈ [lo, (Piece.mk lo hi).last], ∀ c ∈ number,
      isSep c = false ∧ c ≠ '[' ∧ c ≠ ']' ∧ c ≠ ',' := by
    intro number member c digit
    obtain ⟨sep, -, left, right, comma⟩ := digit_plain ((proper.digits number member).2 c digit)
    exact ⟨sep, left, right, comma⟩
  intro c member
  cases hi with
  | none => exact number lo List.mem_cons_self c member
  | some hi =>
    rcases List.mem_append.mp member with low | high
    · exact number lo List.mem_cons_self c low
    · rcases List.mem_cons.mp high with rfl | high
      · decide
      · exact number hi (List.mem_cons_of_mem _ List.mem_cons_self) c high

/-- One piece is written as it is. -/
theorem insideText_single (piece : Piece) : insideText [piece] = piece.text :=
  List.intercalate_singleton

/-- There is a comma between a piece and the next one. -/
theorem insideText_cons (piece next : Piece) (later : List Piece) :
    insideText (piece :: next :: later) = piece.text ++ ',' :: insideText (next :: later) := by
  rw [insideText, List.map_cons, List.map_cons, List.intercalate_cons_cons, List.append_assoc]
  rfl

/-- Pieces with commas between them are read one after another. -/
theorem parseRangeList_text {pieces : List Piece} (nonempty : pieces ≠ [])
    (proper : ∀ piece ∈ pieces, piece.Proper) {room : Nat} (few : pieces.length ≤ room) :
    parseRangeList room (insideText pieces) = .ok (pieces.map Piece.range) := by
  induction pieces generalizing room with
  | nil => exact absurd rfl nonempty
  | cons piece later ih =>
    obtain ⟨more, rfl⟩ := Nat.exists_eq_succ_of_ne_zero (Nat.ne_of_gt (Nat.lt_of_lt_of_le
      (Nat.succ_pos _) few))
    have first := parseSingleRange_text (proper piece List.mem_cons_self)
    have plain : ∀ c ∈ piece.text, c ≠ ',' := fun c member =>
      ((proper piece List.mem_cons_self).plain c member).2.2.2
    rw [parseRangeList]
    cases later with
    | nil =>
      rw [insideText_single, strchr_none plain]
      dsimp only
      rw [first]
      rfl
    | cons next later =>
      have rest := ih (List.cons_ne_nil _ _)
        (fun other member => proper other (List.mem_cons_of_mem _ member))
        (Nat.le_of_succ_le_succ few)
      rw [insideText_cons, strchr_append plain]
      dsimp only
      rw [first, rest]
      rfl

/-- What is between brackets has no brackets. -/
theorem insideText_plain {pieces : List Piece} (proper : ∀ piece ∈ pieces, piece.Proper) :
    ∀ c ∈ insideText pieces, c ≠ '[' ∧ c ≠ ']' := by
  induction pieces with
  | nil => exact fun c member => absurd member List.not_mem_nil
  | cons piece later ih =>
    have first : ∀ c ∈ piece.text, c ≠ '[' ∧ c ≠ ']' := fun c member =>
      have plain := (proper piece List.mem_cons_self).plain c member
      ⟨plain.2.1, plain.2.2.1⟩
    cases later with
    | nil => exact insideText_single piece ▸ first
    | cons next later =>
      rw [insideText_cons]
      intro c member
      rcases List.mem_append.mp member with text | behind
      · exact first c text
      · rcases List.mem_cons.mp behind with rfl | inside
        · decide
        · exact ih (fun other member => proper other (List.mem_cons_of_mem _ member)) c inside

/-- The names of a piece are those of the range that it is read as. -/
theorem Piece.Proper.range_hosts {piece : Piece} (proper : piece.Proper) {pfx sfx : List Char}
    (short : pfx.length + piece.lo.length + sfx.length + 20 ≤ 4095) :
    piece.range.hosts pfx sfx = piece.names pfx sfx := by
  have fits := proper.fits
  have order := proper.order
  have low : piece.range.lo.toNat = digitsValue piece.lo := by
    rw [range, UInt64.toNat_ofNat']
    omega
  have high : piece.range.hi.toNat = digitsValue piece.last := by
    rw [range, UInt64.toNat_ofNat']
    omega
  have width : piece.range.width = piece.lo.length := rfl
  rw [Range.hosts, names, low, high, width]
  by_cases none : sfx = []
  · rw [if_pos none, none]
    simp
  · rw [if_neg none, namesBetween, List.map_map]
    refine List.map_congr_left fun j member => List.take_of_length_le ?_
    have bound := (List.mem_range'_1.mp member).2
    have digits : (Nat.toDigits 10 j).length ≤ 20 :=
      (Nat.length_toDigits_le_iff (by decide) (by decide)).mpr (by omega)
    rw [List.length_append, List.length_append, zeroPadded, List.length_append,
      List.length_replicate]
    omega

/-- An item that is written as the notation has it is taken, no range of it goes to the largest
number, and it stands for its names. -/
theorem Item.Proper.token {item : Item} (proper : item.Proper) :
    Taken item.text ∧ Bounded item.text ∧ tokHosts item.text = item.names := by
  cases item with
  | host name =>
    obtain ⟨-, short, plain⟩ := proper
    have none : brackets name = none := by
      rw [brackets, strchr_none fun c member => (plain c member).2]
      rfl
    refine ⟨?_, ?_, ?_⟩
    · rw [Taken, text, none]
      exact short
    · intro ranges read
      rw [rangesOf, text, none] at read
      cases read
      exact fun rng member => absurd member List.not_mem_nil
    · rw [tokHosts, text, none]
      rfl
  | hosts pfx pieces sfx =>
    obtain ⟨front, -, nonempty, few, each⟩ := proper
    have properPieces : ∀ piece ∈ pieces, piece.Proper := fun piece member => (each piece member).1
    have parts : brackets (Item.hosts pfx pieces sfx).text =
        some (pfx, insideText pieces, sfx) := by
      rw [brackets, text, strchr_append fun c member => (front c member).2.1]
      dsimp only [Option.bind_some]
      rw [strchr_append fun c member => (insideText_plain properPieces c member).2]
      rfl
    have read : rangesOf (Item.hosts pfx pieces sfx).text = .ok (pieces.map Piece.range) := by
      rw [rangesOf, parts]
      exact parseRangeList_text nonempty properPieces few
    refine ⟨?_, ?_, ?_⟩
    · rw [Taken, parts]
      exact ⟨_, read⟩
    · intro ranges same
      rw [read] at same
      cases same
      intro rng member
      obtain ⟨piece, inside, rfl⟩ := List.mem_map.mp member
      intro last
      have fits := (each piece inside).1.fits
      have value := congrArg UInt64.toNat last
      have word : (-1 : UInt64).toNat = 2 ^ 64 - 1 := by decide
      rw [Piece.range, UInt64.toNat_ofNat', word] at value
      omega
    · rw [tokHosts, read, parts, names]
      dsimp only
      rw [List.flatMap_map]
      exact List.flatMap_congr fun piece member =>
        (each piece member).1.range_hosts (each piece member).2

/-- What has no separators is taken whole from what ends with it or has a separator behind it. -/
theorem take_plain {front rest : List Char} (plain : ∀ c ∈ front, isSep c = false)
    (ends : ∀ c ∈ rest.head?, isSep c = true) :
    (front ++ rest).takeWhile (fun c => !isSep c) = front ∧
      (front ++ rest).dropWhile (fun c => !isSep c) = rest := by
  have passes : ∀ c ∈ front, (!isSep c) = true := fun c member => by rw [plain c member]; rfl
  rw [List.takeWhile_append_of_pos passes, List.dropWhile_append_of_pos passes]
  cases rest with
  | nil => exact ⟨List.append_nil _, rfl⟩
  | cons c later =>
    have stops : (!isSep c) = false := by rw [ends c rfl]; rfl
    rw [List.takeWhile_cons, List.dropWhile_cons]
    simp [stops]

/-- A token without an opening bracket, or with a closing one, is not advanced. -/
theorem advancePastBrackets_none {tok : List Char} (closed : '[' ∈ tok → ']' ∈ tok)
    (str : List Char) : advancePastBrackets tok str = none :=
  if_neg fun opens => opens.2 (closed opens.1)

/-- A token ends where an item does. -/
theorem endTok_item {item : Item} (proper : item.Proper) {rest : List Char}
    (ends : ∀ c ∈ rest.head?, isSep c = true) :
    endTok 2 [] (item.text ++ rest) = (item.text, rest) := by
  -- A token that goes to the next separator and is not advanced ends there.
  have ended : ∀ (rounds : Nat) (tok front : List Char), (∀ c ∈ front, isSep c = false) →
      ('[' ∈ tok ++ front → ']' ∈ tok ++ front) →
      endTok (rounds + 1) tok (front ++ rest) = (tok ++ front, rest) := by
    intro rounds tok front plain closed
    obtain ⟨taken, dropped⟩ := take_plain plain ends
    rw [endTok, taken, dropped, advancePastBrackets_none closed]
  cases item with
  | host name =>
    obtain ⟨-, -, plain⟩ := proper
    have unopened : '[' ∉ name := fun opens => (plain _ opens).2 rfl
    exact ended 1 [] name (fun c member => (plain c member).1) fun opens => absurd opens unopened
  | hosts pfx pieces sfx =>
    obtain ⟨front, back, -, -, each⟩ := proper
    have inside := insideText_plain fun piece member => (each piece member).1
    let before := (insideText pieces).takeWhile fun c => !isSep c
    let behind := (insideText pieces).dropWhile fun c => !isSep c
    have split : before ++ behind = insideText pieces := List.takeWhile_append_dropWhile
    have beforePlain : ∀ c ∈ before, isSep c = false ∧ c ≠ ']' := by
      intro c member
      have passes := List.mem_takeWhile_imp member
      exact ⟨by simpa using passes, (inside c (split ▸ List.mem_append_left _ member)).2⟩
    have openPlain : ∀ c ∈ pfx ++ '[' :: before, isSep c = false := by
      intro c member
      rcases List.mem_append.mp member with inFront | member
      · exact (front c inFront).1
      · rcases List.mem_cons.mp member with rfl | member
        · decide
        · exact (beforePlain c member).1
    cases cut : behind with
    | nil =>
      have whole : before = insideText pieces := by rw [← split, cut, List.append_nil]
      have plain : ∀ c ∈ (Item.hosts pfx pieces sfx).text, isSep c = false := by
        intro c member
        have text : (Item.hosts pfx pieces sfx).text = (pfx ++ '[' :: before) ++ ']' :: sfx := by
          rw [whole, Item.text, List.append_assoc]
          rfl
        rw [text] at member
        rcases List.mem_append.mp member with opened | member
        · exact openPlain c opened
        · rcases List.mem_cons.mp member with rfl | member
          · decide
          · exact back c member
      refine ended 1 [] _ plain fun _ => ?_
      rw [Item.text]
      simp
    | cons sep later =>
      have sepEnds : ∀ c ∈ (behind ++ ']' :: (sfx ++ rest)).head?, isSep c = true := by
        intro c member
        rw [cut] at member
        have first : sep = c := Option.some.inj member
        have stops := List.head?_dropWhile_not (fun c => !isSep c) (insideText pieces)
        rw [show (insideText pieces).dropWhile (fun c => !isSep c) = sep :: later from cut] at stops
        simpa [first] using stops
      have text : (Item.hosts pfx pieces sfx).text ++ rest =
          (pfx ++ '[' :: before) ++ (behind ++ ']' :: (sfx ++ rest)) := by
        rw [Item.text, ← split]
        simp
      have unclosed : ']' ∉ pfx ++ '[' :: before := by
        intro member
        rcases List.mem_append.mp member with inFront | member
        · exact (front _ inFront).2.2 rfl
        · rcases List.mem_cons.mp member with same | member
          · exact absurd same (by decide)
          · exact (beforePlain _ member).2 rfl
      have behindPlain : ∀ c ∈ behind, c ≠ '[' ∧ c ≠ ']' := fun c member =>
        inside c (split ▸ List.mem_append_right _ member)
      have advanced : advancePastBrackets (pfx ++ '[' :: before) (behind ++ ']' :: (sfx ++ rest)) =
          some (pfx ++ '[' :: before ++ behind ++ [']'], sfx ++ rest) := by
        rw [advancePastBrackets, if_pos ⟨by simp, unclosed⟩,
          strchr_append fun c member => (behindPlain c member).2]
        exact if_neg fun opens => (behindPlain _ opens).1 rfl
      obtain ⟨taken, dropped⟩ := take_plain openPlain sepEnds
      rw [text, endTok, taken, dropped, List.nil_append, advanced]
      dsimp only
      rw [ended 0 _ sfx back fun _ => by simp, Item.text, ← split]
      simp

/-- An item begins with a character that is no separator. -/
theorem Item.Proper.head {item : Item} (proper : item.Proper) :
    ∃ c later, item.text = c :: later ∧ isSep c = false := by
  cases item with
  | host name =>
    obtain ⟨nonempty, -, plain⟩ := proper
    obtain ⟨c, later, rfl⟩ := List.exists_cons_of_ne_nil nonempty
    exact ⟨c, later, rfl, (plain c List.mem_cons_self).1⟩
  | hosts pfx pieces sfx =>
    cases pfx with
    | nil => exact ⟨'[', _, rfl, by decide⟩
    | cons c pfx => exact ⟨c, _, rfl, (proper.1 c List.mem_cons_self).1⟩

/-- Separators are skipped up to an item. -/
theorem Item.Proper.skip {item : Item} (proper : item.Proper) {seps : List Char}
    (separate : ∀ c ∈ seps, isSep c = true) (rest : List Char) :
    (seps ++ (item.text ++ rest)).dropWhile isSep = item.text ++ rest := by
  obtain ⟨c, later, text, plain⟩ := proper.head
  rw [List.dropWhile_append_of_pos separate, text, List.cons_append,
    List.dropWhile_cons_of_neg (by rw [plain]; decide)]

/-- An item is the next token. -/
theorem nextTok_item {seps rest : List Char} {item : Item}
    (separate : ∀ c ∈ seps, isSep c = true) (proper : item.Proper)
    (ends : ∀ c ∈ rest.head?, isSep c = true) :
    nextTok (seps ++ (item.text ++ rest)) = some (item.text, rest.dropWhile isSep) := by
  obtain ⟨c, later, text, -⟩ := proper.head
  have nonempty : item.text ++ rest ≠ [] := by
    rw [text]
    exact List.cons_ne_nil _ _
  rw [nextTok, proper.skip separate]
  dsimp only
  rw [if_neg nonempty, endTok_item proper ends]

/-- What is written goes on being written without the separators in front. -/
theorem Written.skip {items : List Item} {s : List Char} (written : Written items s) :
    Written items (s.dropWhile isSep) := by
  cases written with
  | nil separate =>
    have gone := @List.dropWhile_append_of_pos _ isSep s [] separate
    rw [List.append_nil, List.dropWhile_nil] at gone
    rw [gone]
    exact .nil fun c member => absurd member List.not_mem_nil
  | @cons seps rest item items separate proper ends later =>
    rw [proper.skip separate]
    exact .cons (fun c member => absurd member List.not_mem_nil) proper ends later

/-- The tokens of what is written are the items. -/
theorem Written.tokens_eq {items : List Item} {s : List Char} (written : Written items s)
    {rounds : Nat} (enough : s.length < rounds) : tokens rounds s = items.map Item.text := by
  induction rounds generalizing items s with
  | zero => exact absurd enough (Nat.not_lt_zero _)
  | succ rounds ih =>
    cases written with
    | nil separate =>
      have gone := @List.dropWhile_append_of_pos _ isSep s [] separate
      rw [List.append_nil, List.dropWhile_nil] at gone
      have none : nextTok s = none := by rw [nextTok, gone, if_pos rfl]
      rw [tokens, none]
      rfl
    | @cons seps rest item items separate proper ends later =>
      obtain ⟨c, behind, text, -⟩ := proper.head
      have shorter : (rest.dropWhile isSep).length < rounds := by
        have fewer : (rest.dropWhile isSep).length ≤ rest.length :=
          (List.dropWhile_sublist _).length_le
        rw [List.length_append, List.length_append, text, List.length_cons] at enough
        omega
      rw [tokens, nextTok_item separate proper ends]
      dsimp only
      rw [ih later.skip shorter, List.map_cons]

/-- The items of what is written are proper. -/
theorem Written.proper {items : List Item} {s : List Char} (written : Written items s) :
    ∀ item ∈ items, item.Proper := by
  induction written with
  | nil separate => exact fun item member => absurd member List.not_mem_nil
  | cons separate proper ends later ih =>
    intro item member
    rcases List.mem_cons.mp member with rfl | member
    · exact proper
    · exact ih item member

end GpibUtils.Lsd
