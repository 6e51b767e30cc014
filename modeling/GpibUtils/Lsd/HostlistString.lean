import GpibUtils.Lsd.HostlistReckless

/-!
# Host lists as text

The ranges of a list that have one prefix and come one after another are written between one pair of
brackets; a single number is written without brackets. What is written into a buffer that is large
enough makes a list of the same hosts when it is read (`create_rangedString`). A text without any
brackets does so when its names mean themselves there: `n1,5` has the hosts `n1` and `5` in it, and
is read as `n1` and `n5`.
-/

namespace GpibUtils.Lsd

open CSem

/-! ## The code -/

/-- `hostrange_numstr` -/
def hostrangeNumstr (hr : Hostrange) : List Char :=
  if hr.singlehost then []
  else zeroPadded hr.width hr.lo.toNat ++
    if hr.lo < hr.hi then '-' :: zeroPadded hr.width hr.hi.toNat else []

/-- `_is_bracket_needed`, of a range and those behind it. -/
def isBracketNeeded (hr : Hostrange) (later : List Hostrange) : Bool :=
  hostrangeCount hr > 1 || later.head?.any fun next => hostrangeWithinRange hr next

/-- The loop of `_get_bracketed_list`: what is in the buffer and the ranges that are left, unless
the buffer is full. -/
def bracketedLoop (bracketNeeded : Bool) (n : Nat) :
    Hostrange → (later : List Hostrange) → (buf : List Char) →
      Option (List Char × List Hostrange)
  | hr, later, buf =>
    let buf := buf ++ hostrangeNumstr hr
    if buf.length ≥ n then none
    else
      let buf := if bracketNeeded then buf ++ [','] else buf
      match later with
      | [] => some (buf, [])
      | next :: later =>
        if hostrangeWithinRange next hr then bracketedLoop bracketNeeded n next later buf
        else some (buf, next :: later)

/-- `_get_bracketed_list`, from a range on: what is written and the ranges that are left, unless it
does not fit. -/
def getBracketedList (hr : Hostrange) (later : List Hostrange) (n : Nat) :
    Option (List Char × List Hostrange) :=
  let bracketNeeded := isBracketNeeded hr later
  if hr.pfx.length > n then none
  else
    let buf := if bracketNeeded ∧ hr.pfx.length < n then hr.pfx ++ ['['] else hr.pfx
    match bracketedLoop bracketNeeded n hr later buf with
    | none => none
    | some (buf, later) =>
      if bracketNeeded ∧ buf.length < n ∧ buf.length > 0 then some (buf.dropLast ++ [']'], later)
      else if buf.length ≥ n then none
      else some (buf, later)

/-- The loop of `hostlist_ranged_string`; every round takes a range. -/
def rangedLoop (n : Nat) : (rounds : Nat) → List Hostrange → (buf : List Char) → Option (List Char)
  | 0, _, buf | _ + 1, [], buf => some buf
  | rounds + 1, hr :: later, buf =>
    if buf.length < n then
      match getBracketedList hr later (n - buf.length) with
      | none => none
      | some (part, left) =>
        let buf := buf ++ part
        let buf := if buf.length > 0 ∧ buf.length < n ∧ left ≠ [] then buf ++ [','] else buf
        rangedLoop n rounds left buf
    else none

/-- `hostlist_ranged_string` into a buffer of some size: the text, unless it is truncated. -/
def hostlistRangedString (hl : Hostlist) (n : Nat) : Option (List Char) :=
  match rangedLoop n hl.hr.length hl.hr [] with
  | none => none
  | some buf => if buf.length ≥ n then none else some buf

/-! ## What is written -/

/-- A range that can be read again when it is written: its prefix has no separators and brackets, it
has not too many hosts, and its names are not too long. -/
structure Hostrange.Printable (hr : Hostrange) : Prop where
  proper : hr.Proper
  plain : ∀ c ∈ hr.pfx, isSep c = false ∧ c ≠ '[' ∧ c ≠ ']'
  named : hr.singlehost = true → hr.pfx ≠ []
  few : hr.hi.toNat - hr.lo.toNat < 16384
  short : hr.pfx.length + hr.width + 20 < 1024

/-- The piece that a range is written as. -/
def pieceOf (hr : Hostrange) : Piece where
  lo := zeroPadded hr.width hr.lo.toNat
  hi := if hr.lo < hr.hi then some (zeroPadded hr.width hr.hi.toNat) else none

/-- Numbers are not written with no digits. -/
theorem zeroPadded_ne_nil (width n : Nat) : zeroPadded width n ≠ [] := by
  rw [zeroPadded]
  exact fun none => Nat.toDigits_ne_nil (List.append_eq_nil_iff.mp none).2

/-- A number is written with as many digits as the width asks for, or as it has. -/
theorem length_zeroPadded_eq (width n : Nat) :
    (zeroPadded width n).length = max width (Nat.toDigits 10 n).length := by
  rw [zeroPadded, List.length_append, List.length_replicate]
  omega

/-- A word is written with so many digits at most. -/
theorem length_zeroPadded_word (width : Nat) (n : UInt64) :
    (zeroPadded width n.toNat).length ≤ width + 20 := by
  have bound := n.toNat_lt
  have digits : (Nat.toDigits 10 n.toNat).length ≤ 20 :=
    (Nat.length_toDigits_le_iff (by decide) (by decide)).mpr (by omega)
  rw [length_zeroPadded_eq]
  omega

section
variable {pfx : List Char} {lo hi : UInt64} {width : Nat}
  (printable : (hostrangeCreate pfx lo hi width).Printable)
include printable

/-- The bounds of a range that can be read again. -/
theorem Hostrange.Printable.bounds : lo.toNat ≤ hi.toNat ∧ hi.toNat + 1 < 2 ^ 64 := by
  obtain ⟨proper, -, -, -, -⟩ := printable
  cases proper with
  | numbers pfx width order below => exact ⟨order, below⟩

/-- The last number of the piece is the upper bound. -/
theorem Hostrange.Printable.piece_last :
    (pieceOf (hostrangeCreate pfx lo hi width)).last = zeroPadded width hi.toNat := by
  have order := printable.bounds.1
  show Option.getD (if lo < hi then some (zeroPadded width hi.toNat) else none)
    (zeroPadded width lo.toNat) = _
  by_cases less : lo < hi
  · rw [if_pos less]
    rfl
  · have same : lo = hi := by
      rw [UInt64.lt_iff_toNat_lt] at less
      exact UInt64.toNat_inj.mp (by omega)
    rw [if_neg less, same]
    rfl

/-- A range is written as a piece that can be read. -/
theorem Hostrange.Printable.piece_proper :
    (pieceOf (hostrangeCreate pfx lo hi width)).Proper := by
  have last := printable.piece_last
  obtain ⟨order, below⟩ := printable.bounds
  have first : (pieceOf (hostrangeCreate pfx lo hi width)).lo = zeroPadded width lo.toNat := rfl
  have few : hi.toNat - lo.toNat < 16384 := printable.few
  refine ⟨?_, ?_, ?_, ?_⟩
  · intro number member
    rw [first, last] at member
    simp only [List.mem_cons, List.not_mem_nil, or_false] at member
    rcases member with rfl | rfl
    · exact ⟨zeroPadded_ne_nil _ _, zeroPadded_decimal _ _⟩
    · exact ⟨zeroPadded_ne_nil _ _, zeroPadded_decimal _ _⟩
  · rwa [first, last, digitsValue_zeroPadded, digitsValue_zeroPadded]
  · rwa [first, last, digitsValue_zeroPadded, digitsValue_zeroPadded]
  · rwa [last, digitsValue_zeroPadded]

/-- The names of the piece are the hosts of the range. -/
theorem Hostrange.Printable.piece_names :
    (pieceOf (hostrangeCreate pfx lo hi width)).names pfx [] =
      (hostrangeCreate pfx lo hi width).hosts := by
  have first : (pieceOf (hostrangeCreate pfx lo hi width)).lo = zeroPadded width lo.toNat := rfl
  have pads : zeroPadding lo (zeroPadded width lo.toNat).length = zeroPadding lo width := by
    rw [zeroPadding_eq, zeroPadding_eq, digitCount_eq, length_zeroPadded_eq]
    omega
  rw [Piece.names, printable.piece_last, first, digitsValue_zeroPadded, digitsValue_zeroPadded,
    namesBetween_congr pfx pads, hosts_hostrangeCreate]
  simp

end

/-- A range of numbers is what it was created as. -/
theorem Hostrange.eq_create {hr : Hostrange} (numbers : hr.singlehost = false) :
    hr = hostrangeCreate hr.pfx hr.lo hr.hi hr.width := by
  rw [hostrangeCreate, ← numbers]

/-- What is written of a range between brackets is its piece. -/
theorem hostrangeNumstr_eq {hr : Hostrange} (numbers : hr.singlehost = false) :
    hostrangeNumstr hr = (pieceOf hr).text := by
  rw [hostrangeNumstr, if_neg (by rw [numbers]; decide), pieceOf, Piece.text]
  by_cases less : hr.lo < hr.hi
  · rw [if_pos less, if_pos less]
  · rw [if_neg less, if_neg less, List.append_nil]

/-! ## What is read -/

/-- Ranges with one prefix, none of which is a single host. -/
def Alike (pfx : List Char) (group : List Hostrange) : Prop :=
  ∀ hr ∈ group, hr.pfx = pfx ∧ hr.singlehost = false

/-- Between brackets the numbers of ranges with one prefix are written, each with a comma behind. -/
theorem bracketedLoop_group {n : Nat} {hr : Hostrange} {later left : List Hostrange}
    {buf out : List Char} (numbers : hr.singlehost = false)
    (written : bracketedLoop true n hr later buf = some (out, left)) :
    ∃ group, later = group ++ left ∧ Alike hr.pfx (hr :: group) ∧
      out = buf ++ (hr :: group).flatMap fun range => hostrangeNumstr range ++ [','] := by
  have alone : Alike hr.pfx [hr] := fun range member => by
    rw [List.mem_singleton.mp member]
    exact ⟨rfl, numbers⟩
  induction later generalizing hr buf with
  | nil =>
    rw [bracketedLoop] at written
    split at written
    · cases written
    · cases written
      exact ⟨[], rfl, alone, by simp⟩
  | cons next later ih =>
    rw [bracketedLoop] at written
    split at written
    · cases written
    · dsimp only at written
      split at written
      · rename_i within
        have same : next.pfx = hr.pfx ∧ next.singlehost = false := by
          simp [hostrangeWithinRange, samePrefix] at within
          exact ⟨within.1.1, within.2.1⟩
        obtain ⟨group, split, alike, text⟩ := ih same.2 written fun range member => by
          rw [List.mem_singleton.mp member]
          exact ⟨rfl, same.2⟩
        refine ⟨next :: group, congrArg (next :: ·) split, ?_, ?_⟩
        · intro range member
          rcases List.mem_cons.mp member with rfl | member
          · exact ⟨rfl, numbers⟩
          · exact same.1 ▸ alike range member
        · rw [text, List.flatMap_cons, if_pos rfl]
          simp
      · cases written
        exact ⟨[], rfl, alone, by simp⟩

/-- Without brackets one range is written. -/
theorem bracketedLoop_single {n : Nat} {hr : Hostrange} {later : List Hostrange}
    {buf out : List Char} {left : List Hostrange}
    (apart : ∀ next ∈ later.head?, hostrangeWithinRange next hr = false)
    (written : bracketedLoop false n hr later buf = some (out, left)) :
    later = left ∧ out = buf ++ hostrangeNumstr hr := by
  cases later with
  | nil =>
    rw [bracketedLoop] at written
    split at written
    · cases written
    · cases written
      exact ⟨rfl, rfl⟩
  | cons next later =>
    rw [bracketedLoop] at written
    split at written
    · cases written
    · dsimp only at written
      rw [apart next rfl] at written
      cases written
      exact ⟨rfl, rfl⟩

/-- Numbers with commas behind them are those with commas between them and one behind. -/
theorem flatMap_numstr {group : List Hostrange} (nonempty : group ≠ [])
    (numbers : ∀ hr ∈ group, hr.singlehost = false) :
    group.flatMap (fun range => hostrangeNumstr range ++ [',']) =
      insideText (group.map pieceOf) ++ [','] := by
  induction group with
  | nil => exact absurd rfl nonempty
  | cons hr later ih =>
    rw [List.flatMap_cons, hostrangeNumstr_eq (numbers hr List.mem_cons_self), List.map_cons]
    cases later with
    | nil =>
      rw [List.map_nil, insideText_single]
      exact List.append_nil _
    | cons next later =>
      have rest := ih (List.cons_ne_nil _ _) fun other member =>
        numbers other (List.mem_cons_of_mem _ member)
      rw [rest, List.map_cons, insideText_cons]
      simp

/-- Whether ranges go between the same brackets does not depend on which one comes first. -/
theorem hostrangeWithinRange_comm (h1 h2 : Hostrange) :
    hostrangeWithinRange h1 h2 = hostrangeWithinRange h2 h1 := by
  simp only [hostrangeWithinRange, samePrefix, Bool.or_comm h1.singlehost,
    eq_comm (a := h1.pfx), eq_comm (a := h1.singlehost)]

/-- Ranges of numbers with one prefix are written as hosts in brackets. -/
theorem hosts_item {pfx : List Char} {group : List Hostrange} (nonempty : group ≠ [])
    (alike : Alike pfx group) (printable : ∀ hr ∈ group, hr.Printable)
    (few : group.length ≤ maxRanges) :
    (Item.hosts pfx (group.map pieceOf) []).Proper ∧
      (Item.hosts pfx (group.map pieceOf) []).names = Blocks.all Hostrange.hosts group := by
  have created : ∀ hr ∈ group, hr = hostrangeCreate pfx hr.lo hr.hi hr.width := fun hr member => by
    rw [← (alike hr member).1]
    exact Hostrange.eq_create (alike hr member).2
  constructor
  · refine ⟨?_, fun c member => absurd member List.not_mem_nil, ?_, ?_, ?_⟩
    · obtain ⟨hr, member⟩ := List.exists_mem_of_ne_nil group nonempty
      exact (alike hr member).1 ▸ (printable hr member).plain
    · exact fun none => nonempty (List.map_eq_nil_iff.mp none)
    · rwa [List.length_map]
    · intro piece member
      obtain ⟨hr, inside, rfl⟩ := List.mem_map.mp member
      have fits := printable hr inside
      have short := fits.short
      have width := length_zeroPadded_word hr.width hr.lo
      refine ⟨?_, ?_⟩
      · rw [created hr inside] at fits ⊢
        exact fits.piece_proper
      · rw [(alike hr inside).1] at short
        show pfx.length + (zeroPadded hr.width hr.lo.toNat).length + 0 + 20 ≤ 4095
        omega
  · rw [Item.names, List.flatMap_map]
    refine List.flatMap_congr fun hr inside => ?_
    have fits := printable hr inside
    rw [created hr inside] at fits ⊢
    exact fits.piece_names

/-- A range of one host is written as the host. -/
theorem host_item {hr : Hostrange} (printable : hr.Printable) (one : ¬hostrangeCount hr > 1) :
    (Item.host (hr.pfx ++ hostrangeNumstr hr)).Proper ∧
      (Item.host (hr.pfx ++ hostrangeNumstr hr)).names = hr.hosts := by
  have plain := printable.plain
  have short := printable.short
  have count := printable.proper.count
  have positive := printable.proper.hosts_pos
  rw [gt_iff_lt, UInt64.lt_iff_toNat_lt, count] at one
  have length : hr.hosts.length = 1 := by
    have word : (1 : UInt64).toNat = 1 := rfl
    omega
  cases printable.proper with
  | single pfx =>
    have text : (hostrangeCreateSingle pfx).pfx ++ hostrangeNumstr (hostrangeCreateSingle pfx) =
        pfx := List.append_nil pfx
    have few : pfx.length < 1024 := by
      have short : pfx.length + 0 + 20 < 1024 := short
      omega
    rw [text]
    exact ⟨⟨printable.named rfl, few, fun c member => ⟨(plain c member).1, (plain c member).2.1⟩⟩,
      rfl⟩
  | @numbers pfx lo hi width order below =>
    rw [hosts_hostrangeCreate, length_namesBetween] at length
    have same : lo = hi := UInt64.toNat_inj.mp (by omega)
    have number := length_zeroPadded_word width lo
    have text : (hostrangeCreate pfx lo hi width).pfx ++
        hostrangeNumstr (hostrangeCreate pfx lo hi width) = pfx ++ zeroPadded width lo.toNat := by
      rw [hostrangeNumstr_eq rfl, pieceOf, Piece.text, same]
      simp [hostrangeCreate]
    rw [text]
    refine ⟨⟨?_, ?_, ?_⟩, ?_⟩
    · exact fun none => zeroPadded_ne_nil _ _ (List.append_eq_nil_iff.mp none).2
    · have short : pfx.length + width + 20 < 1024 := short
      rw [List.length_append]
      omega
    · intro c member
      rcases List.mem_append.mp member with front | digit
      · exact ⟨(plain c front).1, (plain c front).2.1⟩
      · obtain ⟨sep, -, left, -⟩ := digit_plain (zeroPadded_decimal _ _ c digit)
        exact ⟨sep, left⟩
    · rw [hosts_hostrangeCreate, same, namesBetween_cons _ _ (Nat.lt_succ_self _),
        namesBetween_nil _ _ (Nat.le_refl _)]
      rfl

/-- What is written from a range on is an item that stands for the hosts of the ranges that are
written. -/
theorem getBracketedList_item {hr : Hostrange} {later : List Hostrange} {n : Nat}
    {part : List Char} {left : List Hostrange}
    (printable : ∀ range ∈ hr :: later, range.Printable)
    (few : (hr :: later).length ≤ maxRanges)
    (written : getBracketedList hr later n = some (part, left)) :
    ∃ group item, later = group ++ left ∧ Item.Proper item ∧ item.text = part ∧
      item.names = Blocks.all Hostrange.hosts (hr :: group) ∧ part.length < n := by
  rw [getBracketedList] at written
  cases needed : isBracketNeeded hr later with
  | true =>
    have numbers : hr.singlehost = false := by
      rw [isBracketNeeded, Bool.or_eq_true] at needed
      rcases needed with many | within
      · cases single : hr.singlehost with
        | false => rfl
        | true =>
          have one : hostrangeCount hr = 1 := if_pos single
          rw [one] at many
          exact absurd many (by decide)
      · obtain ⟨next, -, within⟩ := Option.any_eq_true _ _ |>.mp within
        simp [hostrangeWithinRange] at within
        exact within.2.1
    rw [needed] at written
    dsimp only at written
    split at written
    · cases written
    · split at written
      · cases written
      · rename_i rest out left' looped
        by_cases room : hr.pfx.length < n
        · rw [if_pos ⟨rfl, room⟩] at looped
          obtain ⟨group, split, alike, text⟩ := bracketedLoop_group numbers looped
          have whole := flatMap_numstr (List.cons_ne_nil hr group) fun range member =>
            (alike range member).2
          rw [whole] at text
          have positive : out.length > 0 := by
            rw [text, List.length_append, List.length_append, List.length_singleton]
            omega
          by_cases fits : out.length < n
          · rw [if_pos ⟨rfl, fits, positive⟩] at written
            cases written
            have inGroup : ∀ range ∈ hr :: group, range ∈ hr :: later := by
              intro range member
              rcases List.mem_cons.mp member with rfl | member
              · exact List.mem_cons_self
              · rw [split]
                exact List.mem_cons_of_mem _ (List.mem_append_left _ member)
            have count : (hr :: group).length ≤ maxRanges := by
              rw [split, List.length_cons, List.length_append] at few
              rw [List.length_cons]
              omega
            obtain ⟨proper, names⟩ := hosts_item (List.cons_ne_nil hr group) alike
              (fun range member => printable range (inGroup range member)) count
            refine ⟨group, _, split, proper, ?_, names, ?_⟩
            · rw [Item.text, text, ← List.append_assoc, List.dropLast_concat]
              simp
            · rw [text, ← List.append_assoc, List.dropLast_concat]
              rw [text] at fits
              simp only [List.length_append, List.length_cons, List.length_nil] at fits ⊢
              exact fits
          · rw [if_neg fun both => fits both.2.1, if_pos (Nat.not_lt.mp fits)] at written
            cases written
        · rw [if_neg fun both => room both.2] at looped
          have full : (hr.pfx ++ hostrangeNumstr hr).length ≥ n := by
            rw [List.length_append]
            omega
          unfold bracketedLoop at looped
          rw [if_pos full] at looped
          cases looped
  | false =>
    have one : ¬hostrangeCount hr > 1 := by
      intro many
      rw [isBracketNeeded, decide_eq_true many] at needed
      cases needed
    have apart : ∀ next ∈ later.head?, hostrangeWithinRange next hr = false := by
      intro next member
      rw [isBracketNeeded, Bool.or_eq_false_iff] at needed
      have within := needed.2
      rw [Option.mem_def.mp member] at within
      rw [hostrangeWithinRange_comm]
      exact within
    rw [needed] at written
    dsimp only at written
    split at written
    · cases written
    · split at written
      · cases written
      · rename_i rest out left' looped
        rw [if_neg fun both => absurd both.1 (by decide)] at looped written
        obtain ⟨split, text⟩ := bracketedLoop_single apart looped
        split at written
        · cases written
        · rename_i fits
          cases written
          obtain ⟨proper, names⟩ := host_item (printable hr List.mem_cons_self) one
          refine ⟨[], _, split, proper, text.symm, ?_, Nat.not_le.mp fits⟩
          rw [names, Blocks.all_cons]
          exact (List.append_nil _).symm

/-- What is written goes on being written with a separator in front. -/
theorem Written.separated {items : List Item} {s : List Char} (written : Written items s) {c : Char}
    (separates : isSep c = true) : Written items (c :: s) := by
  have front : ∀ {seps : List Char}, (∀ d ∈ seps, isSep d = true) → ∀ d ∈ c :: seps,
      isSep d = true := by
    intro seps separate d member
    rcases List.mem_cons.mp member with rfl | member
    · exact separates
    · exact separate d member
  cases written with
  | nil separate => exact .nil (front separate)
  | cons separate proper ends later => exact .cons (front separate) proper ends later

/-- What is written of ranges are items that stand for their hosts. -/
theorem rangedLoop_written {n rounds : Nat} {ranges : List Hostrange} {buf out : List Char}
    (printable : ∀ range ∈ ranges, range.Printable) (few : ranges.length ≤ maxRanges)
    (enough : ranges.length ≤ rounds) (written : rangedLoop n rounds ranges buf = some out) :
    ∃ items text, out = buf ++ text ∧ Written items text ∧
      items.flatMap Item.names = Blocks.all Hostrange.hosts ranges := by
  have nothing : out = buf → ranges = [] → ∃ items text, out = buf ++ text ∧ Written items text ∧
      items.flatMap Item.names = Blocks.all Hostrange.hosts ranges := by
    rintro rfl rfl
    exact ⟨[], [], (List.append_nil _).symm, .nil fun c member => absurd member List.not_mem_nil,
      rfl⟩
  induction rounds generalizing ranges buf with
  | zero =>
    cases written
    exact nothing rfl (List.eq_nil_of_length_eq_zero (Nat.le_zero.mp enough))
  | succ rounds ih =>
    cases ranges with
    | nil =>
      cases written
      exact nothing rfl rfl
    | cons hr later =>
      rw [rangedLoop] at written
      split at written
      · rename_i room
        split at written
        · cases written
        · rename_i part left bracketed
          obtain ⟨group, item, split, proper, text, names, short⟩ :=
            getBracketedList_item printable few bracketed
          obtain ⟨c, behind, head, -⟩ := proper.head
          have length : 0 < part.length := by
            rw [← text, head]
            exact Nat.succ_pos _
          have fits : (buf ++ part).length > 0 ∧ (buf ++ part).length < n := by
            rw [List.length_append]
            omega
          have all : Blocks.all Hostrange.hosts (hr :: later) =
              item.names ++ Blocks.all Hostrange.hosts left := by
            rw [split, ← List.cons_append, Blocks.all_append, names]
          have rest : ∀ range ∈ left, range.Printable := fun range member =>
            printable range (List.mem_cons_of_mem _ (split ▸ List.mem_append_right _ member))
          have shorter : left.length ≤ rounds ∧ left.length ≤ maxRanges := by
            rw [split, List.length_cons, List.length_append] at enough few
            omega
          dsimp only at written
          cases left with
          | nil =>
            rw [if_neg fun all => all.2.2 rfl] at written
            have done : out = buf ++ part := by
              cases rounds <;> exact (Option.some.inj written).symm
            refine ⟨[item], part, done, ?_, ?_⟩
            · have alone := @Written.cons [] [] item [] (fun c member => absurd member
                List.not_mem_nil) proper (by simp) (.nil fun c member => absurd member
                List.not_mem_nil)
              rwa [List.append_nil, List.nil_append, text] at alone
            · rw [all]
              simp
          | cons next left =>
            rw [if_pos ⟨fits.1, fits.2, List.cons_ne_nil _ _⟩] at written
            obtain ⟨items, more, out', wrote, names'⟩ :=
              ih rest shorter.2 shorter.1 written (by
                rintro - none
                cases none)
            refine ⟨item :: items, part ++ ',' :: more, ?_, ?_, ?_⟩
            · rw [out']
              simp
            · have separated := wrote.separated (c := ',') (by decide)
              have first := @Written.cons [] (',' :: more) item items (fun c member => absurd member
                List.not_mem_nil) proper (by simp [isSep]) separated
              rwa [List.nil_append, text] at first
            · rw [List.flatMap_cons, names', all]
      · cases written

/-- Names that mean themselves when they are written without brackets: none is longer than a prefix
may be or has a minus sign behind a digit, the number that one ends with is an `int`, and one that
is a number does not come behind one that is none. -/
structure Legible (names : List (List Char)) : Prop where
  short : ∀ name ∈ names, name.length ≤ prefixSize
  apart : ∀ name ∈ names, name.IsChain fun c next => ¬(c.isDigit = true ∧ next = '-')
  small : ∀ name ∈ names, digitsValue (trailingDigits name) < 2 ^ 31
  alike : (∀ name ∈ names, trailingDigits name ≠ name) ∨ ∀ name ∈ names, trailingDigits name = name

/-- Names that mean themselves stand for themselves, one after another. -/
theorem Legible.loosely {names : List (List Char)} (legible : Legible names)
    (nonempty : ∀ name ∈ names, name ≠ []) {known : Option Kept}
    (bare : (∀ name ∈ names, trailingDigits name ≠ name) ∨
      (∀ name ∈ names, trailingDigits name = name) ∧ ∃ kept, known = some kept ∧ kept.pfx = []) :
    Loosely known names names := by
  induction names generalizing known with
  | nil => exact .nil
  | cons name later ih =>
    obtain ⟨short, apart, small, alike⟩ := legible
    rw [List.forall_mem_cons] at short apart small nonempty
    have rest : Legible later := by
      refine ⟨short.2, apart.2, small.2, ?_⟩
      exact alike.imp (fun all => (List.forall_mem_cons.mp all).2)
        fun all => (List.forall_mem_cons.mp all).2
    obtain ⟨front, split, decimal, ends⟩ := exists_trailingDigits name
    by_cases plain : '-' ∈ name ∨ trailingDigits name = []
    · -- A host of its own, so that none of the names is a number.
      have unlike : trailingDigits name ≠ name := by
        rcases plain with dash | none
        · intro same
          exact absurd (decimal _ (same.symm ▸ dash)) (by decide)
        · exact fun same => nonempty.1 (same.symm.trans none)
      have others := bare.resolve_right fun all => unlike ((List.forall_mem_cons.mp all.1).1)
      have last : '-' ∈ name ∨ ∀ c ∈ name.getLast?, c.isDigit = false := by
        refine plain.imp_right fun none => ?_
        rw [none, List.append_nil] at split
        exact split ▸ ends
      exact .host ⟨short.1, apart.1, last⟩
        (ih rest nonempty.2 (.inl (List.forall_mem_cons.mp others).2))
    · rw [not_or] at plain
      have dashes : '-' ∉ front := fun member => plain.1 (split ▸ List.mem_append_left _ member)
      have fits : front.length < prefixSize := by
        have length := congrArg List.length split
        rw [List.length_append] at length
        have some := List.length_pos_of_ne_nil plain.2
        have most := short.1
        omega
      have loose := Piece.loose_number plain.2 decimal small.1
      have alone : front = [] → ∃ kept, known = some kept ∧ kept.pfx = [] := by
        intro empty
        rw [empty, List.nil_append] at split
        exact (bare.resolve_left fun all => (List.forall_mem_cons.mp all).1 split).2
      have next : (∀ name ∈ later, trailingDigits name ≠ name) ∨
          (∀ name ∈ later, trailingDigits name = name) ∧
            ∃ kept, some (Kept.mk front (trailingDigits name).length) = some kept ∧
              kept.pfx = [] := by
        refine bare.imp (fun all => (List.forall_mem_cons.mp all).2) fun both => ?_
        have all := List.forall_mem_cons.mp both.1
        have empty : front = [] := by
          rw [all.1] at split
          exact List.append_left_eq_self.mp split
        exact ⟨all.2, _, rfl, empty⟩
      have loosely := Loosely.numbers ⟨fits, dashes, ends⟩ alone (.inl rfl) loose
        (ih rest nonempty.2 next)
      rw [looseNames_single front plain.2 decimal] at loosely
      have token : looseText front [] ⟨trailingDigits name, none⟩ = name := split
      rwa [token, split] at loosely

/-- An item of a text without an opening bracket is a host. -/
theorem Written.hosts {items : List Item} {str : List Char} (written : Written items str)
    (unopened : '[' ∉ str) : items = (items.flatMap Item.names).map Item.host := by
  induction written with
  | nil separate => rfl
  | @cons seps rest item items separate proper ends later ih =>
    rw [List.mem_append, List.mem_append, not_or, not_or] at unopened
    obtain ⟨-, closed, behind⟩ := unopened
    rw [List.flatMap_cons, List.map_append, ← ih behind]
    cases item with
    | host name => rfl
    | hosts pfx pieces sfx => exact absurd (by simp [Item.text]) closed

end GpibUtils.Lsd
