import GpibUtils.CSem.Buffer
import GpibUtils.Inst.GenericRead

/-!
# Reading strings

`inst_rdstr`, `inst_rdf`, `inst_qry` and `inst_qrystr` read a response into a buffer and make a
string of it: they put a NUL behind it and take carriage returns and newlines off its end. A query
gives the string that a write and a read give; the two places where the code goes wrong on the way
are an empty response, for which `inst_qry` looks at the byte in front of the buffer, and one that
`inst_rdf` has asked for and has no room for (`strings_sound_iff`).
-/

namespace GpibUtils.Inst

open CSem

/-! ## The code -/

/-- What stops one of these functions. -/
inductive Stop where
  /-- `_generic_read` ends the program. -/
  | read (fault : Fatal)
  /-- `_generic_write` ends the program. -/
  | write
  /-- `lsd_nomem_error` ends the program. -/
  | memory
  /-- An assertion fails. -/
  | assertion
  /-- An access outside the buffer. -/
  | outside
  deriving DecidableEq

/-- An instrument while a string is written to it and a response is read from it: what
`_generic_write` makes of the string, and what the transport does during the read. -/
structure Line where
  write : List UInt8 → Except Stop Unit
  transport : Transport
  verbose : Bool

/-- The result of an access to a buffer. -/
def inside {α : Type} : Option α → Except Stop α
  | none => .error .outside
  | some value => .ok value

/-- `_generic_read` into a buffer: the count, and the buffer after it. -/
def Line.genericRead (line : Line) (buf : Buffer) (len : Int) : Except Stop (Int × Buffer) :=
  match Inst.genericRead line.transport (.ofBytes buf) len with
  | .error fault => .error (.read fault)
  | .ok (count, mem) => .ok (count, mem.slice 0 buf.length)

/-- The characters that end a line. -/
def isTerminator (byte : UInt8) : Bool := byte = '\r'.toUInt8 ∨ byte = '\n'.toUInt8

/-- The loop of `_zap_trailing_terminators`, with `p` behind so many bytes. -/
def zapLoop : Nat → Buffer → Option Buffer
  | 0, buf => some buf
  | n + 1, buf => do
    let byte ← buf.load n
    if isTerminator byte then
      let buf ← buf.store n 0
      zapLoop n buf
    else some buf

/-- `_zap_trailing_terminators` -/
def zapTrailingTerminators (buf : Buffer) : Option Buffer := do
  let n ← buf.strlen
  zapLoop n buf

/-- Print the string in a buffer when `verbose` is set; `xstrcpyprint` reads it up to its NUL. -/
def Line.printString (line : Line) (buf : Buffer) : Except Stop Unit :=
  if line.verbose then (inside buf.strlen).map fun _ => () else .ok ()

/-- `inst_rdstr`, before it polls: the buffer after it. -/
def instRdstr (line : Line) (buf : Buffer) (len : Int) : Except Stop Buffer := do
  let (count, buf) ← line.genericRead buf (len - 1)
  if count < len then
    let buf ← inside (buf.store count 0)
    let buf ← inside (zapTrailingTerminators buf)
    line.printString buf
    .ok buf
  else .error .assertion

/-- The size of the buffer of `inst_rdf`. -/
def rdfSize : Nat := 1024

/-- `inst_rdf`, before it polls: what `vsscanf` makes of the string, which it reads up to its NUL.
The count is compared as an unsigned number. -/
def instRdf {α : Type} (line : Line) (buf : Buffer) (scan : List UInt8 → α) : Except Stop α := do
  let (count, buf) ← line.genericRead buf (rdfSize - 1)
  if (toULong count).toNat < rdfSize - 1 then
    let buf ← inside (buf.store count 0)
    let buf ← inside (zapTrailingTerminators buf)
    let _ ← inside buf.strlen
    line.printString buf
    .ok (scan buf.str)
  else .error .assertion

/-- `inst_wrtstr`, before it polls. -/
def instWrtstr (line : Line) (str : List UInt8) : Except Stop Unit := line.write str

/-- The part of `inst_qry` that puts a NUL behind a response when there is room and none is
there. -/
def terminate (buf : Buffer) (count len : Int) : Except Stop (Int × Buffer) :=
  if count < len then do
    let last ← inside (buf.load (count - 1))
    if last ≠ 0 then
      let buf ← inside (buf.store count 0)
      .ok (count + 1, buf)
    else .ok (count, buf)
  else .ok (count, buf)

/-- The part of `inst_qry` that prints a response: as a string, when it is a short one. -/
def Line.printResponse (line : Line) (buf : Buffer) (count : Int) : Except Stop Unit :=
  if line.verbose then do
    let last ← inside (buf.load (count - 1))
    if last = 0 then
      let n ← inside buf.strlen
      if n < 60 then line.printString buf else .ok ()
    else .ok ()
  else .ok ()

/-- `inst_qry`, before it polls: the count, and the buffer after it. -/
def instQry (line : Line) (str : List UInt8) (buf : Buffer) (len : Int) :
    Except Stop (Int × Buffer) := do
  line.write str
  let (count, buf) ← line.genericRead buf len
  let (count, buf) ← terminate buf count len
  line.printResponse buf count
  .ok (count, buf)

/-- `inst_qrystr`: the count, and the buffer after it. -/
def instQrystr (line : Line) (str : List UInt8) (buf : Buffer) (len : Int) :
    Except Stop (Int × Buffer) := do
  let (count, buf) ← instQry line str buf (len - 1)
  let buf ← inside (buf.store (if 0 < count then count else 0) 0)
  let buf ← inside (zapTrailingTerminators buf)
  .ok (count, buf)

/-! ## Terminators -/

/-- The string that a response becomes: what comes before its first NUL, without the carriage
returns and newlines at the end. -/
def textOf (response : List UInt8) : List UInt8 :=
  (Buffer.str response).rdropWhile isTerminator

/-- How many terminators a string ends with. -/
def terminators (s : List UInt8) : Nat := s.length - (s.rdropWhile isTerminator).length

/-- A terminator at the end is one more. -/
theorem terminators_concat {s : List UInt8} {byte : UInt8} (ends : isTerminator byte = true) :
    terminators (s ++ [byte]) = terminators s + 1 := by
  have shorter := (List.rdropWhile_prefix isTerminator s).length_le
  rw [terminators, terminators, List.rdropWhile_concat_pos _ _ _ ends, List.length_append,
    List.length_singleton]
  omega

/-- The loop overwrites the terminators at the end of a string by NULs. -/
theorem zapLoop_append (s rest : List UInt8) :
    zapLoop s.length (s ++ rest) =
      some (s.rdropWhile isTerminator ++ (List.replicate (terminators s) 0 ++ rest)) := by
  induction s using List.reverseRecOn generalizing rest with
  | nil => rfl
  | append_singleton s byte ih =>
    have load := Buffer.load_append s rest byte
    have store := Buffer.store_append s rest byte 0
    rw [List.length_append, List.length_singleton, List.append_assoc, List.singleton_append]
    simp only [zapLoop, load, store, bind, Option.bind_some]
    cases ends : isTerminator byte with
    | true =>
      rw [if_pos rfl, ih, List.rdropWhile_concat_pos _ _ _ ends, terminators_concat ends,
        List.replicate_succ', List.append_assoc, List.singleton_append]
    | false =>
      have whole := List.rdropWhile_concat_neg isTerminator s byte (by simp [ends])
      simp [whole, terminators]

/-- `_zap_trailing_terminators` overwrites the terminators at the end of a string by NULs. -/
theorem zapTrailingTerminators_append {s : List UInt8} (plain : ∀ byte ∈ s, byte ≠ 0)
    (rest : List UInt8) :
    zapTrailingTerminators (s ++ 0 :: rest) =
      some (s.rdropWhile isTerminator ++ (List.replicate (terminators s) 0 ++ 0 :: rest)) := by
  simp only [zapTrailingTerminators, Buffer.strlen_append plain, bind, Option.bind_some]
  exact zapLoop_append s (0 :: rest)

/-- A response with a NUL behind it becomes its string. -/
theorem zapTrailingTerminators_response (response rest : List UInt8) :
    ∃ buf, zapTrailingTerminators (response ++ 0 :: rest) = some buf ∧
      ∃ more, buf = textOf response ++ 0 :: more ∧ ∀ byte ∈ textOf response, byte ≠ 0 := by
  obtain ⟨more, split, plain⟩ := Buffer.exists_str response rest
  have inside : ∀ byte ∈ textOf response, byte ≠ 0 := fun byte member =>
    plain byte ((List.rdropWhile_prefix isTerminator _).subset member)
  rw [split, zapTrailingTerminators_append plain]
  refine ⟨_, rfl, ?_⟩
  cases count : terminators (Buffer.str response) with
  | zero => exact ⟨more, rfl, inside⟩
  | succ n => exact ⟨List.replicate n 0 ++ 0 :: more, rfl, inside⟩

/-! ## Responses -/

/-- A read of `room` bytes is given a response: its bytes are stored, and nothing else. -/
def Line.Delivers (line : Line) (response : List UInt8) (room : Int) : Prop :=
  response.length ≤ room ∧ ∀ mem,
    Inst.genericRead line.transport mem room = .ok (response.length, mem.memcpy 0 response)

section
variable {line : Line} {response : List UInt8} {buf : Buffer} {room : Int}

/-- What a read leaves in the buffer. -/
theorem Line.Delivers.read (delivers : line.Delivers response room) (within : room ≤ buf.length) :
    line.genericRead buf room =
      .ok (response.length, response ++ buf.drop response.length) := by
  have fits : response.length ≤ buf.length := by
    have bound := delivers.1
    omega
  have whole : (Memory.ofBytes buf).slice 0 buf.length = buf := Memory.holds_ofBytes buf
  rw [Line.genericRead, delivers.2]
  simp only [Memory.slice_memcpy_front _ fits, whole]

/-- A response that leaves room in the buffer has a byte behind it. -/
theorem exists_drop (shorter : response.length < buf.length) :
    ∃ byte rest, buf.drop response.length = byte :: rest :=
  ⟨_, _, List.drop_eq_getElem_cons shorter⟩

/-- Printing a string that has a NUL stays inside. -/
theorem Line.printString_append {s : List UInt8} (plain : ∀ byte ∈ s, byte ≠ 0)
    (rest : List UInt8) : line.printString (s ++ 0 :: rest) = .ok () := by
  unfold Line.printString
  split
  · rw [Buffer.strlen_append plain]
    rfl
  · rfl

/-- `inst_rdstr` gives the string of a response. -/
theorem instRdstr_delivers (delivers : line.Delivers response (buf.length - 1)) :
    ∃ after, instRdstr line buf buf.length = .ok after ∧ after.str = textOf response := by
  have shorter : response.length < buf.length := by
    have bound := delivers.1
    omega
  obtain ⟨byte, rest, back⟩ := exists_drop shorter
  obtain ⟨after, zapped, more, rfl, plain⟩ := zapTrailingTerminators_response response rest
  have read := @Line.Delivers.read line response buf _ delivers (by omega)
  have before : (response.length : Int) < buf.length := by omega
  rw [back] at read
  refine ⟨_, ?_, Buffer.str_append plain more⟩
  simp only [instRdstr, read, bind, Except.bind, before, if_true, Buffer.store_append, inside,
    zapped, Line.printString_append plain]

/-- A response as `inst_qry` leaves it: with a NUL behind it when there is room for one and none is
there. -/
def terminated (response : List UInt8) (len : Int) : List UInt8 :=
  if (response.length : Int) < len ∧ response.getLast? ≠ some 0 then response ++ [0]
  else response

/-- Its length. -/
theorem length_terminated (response : List UInt8) {len : Int} (fits : response.length ≤ len) :
    response.length ≤ (terminated response len).length ∧
      ((terminated response len).length : Int) ≤ len := by
  unfold terminated
  split
  · rw [List.length_append, List.length_singleton]
    omega
  · omega

/-- A NUL at the end is not part of the string. -/
theorem textOf_terminated (response : List UInt8) (len : Int) :
    textOf (terminated response len) = textOf response := by
  unfold terminated
  split
  · rw [textOf, Buffer.str_nul, textOf]
  · rfl

/-- The last byte of a response is read. -/
theorem load_last {last : UInt8} (ends : response.getLast? = some last) (rest : List UInt8) :
    Buffer.load (response ++ rest) (response.length - 1) = some last := by
  obtain ⟨front, rfl⟩ := List.getLast?_eq_some_iff.mp ends
  have index : ((front ++ [last]).length : Int) - 1 = front.length := by
    rw [List.length_append, List.length_singleton]
    omega
  rw [index, List.append_assoc]
  exact Buffer.load_append front rest last

/-- A response that is not empty has a last byte. -/
theorem exists_getLast? (nonempty : response ≠ []) : ∃ last, response.getLast? = some last :=
  ⟨_, List.getLast?_eq_some_getLast nonempty⟩

/-- `inst_qry` puts a NUL behind a response that is not empty. -/
theorem terminate_response (nonempty : response ≠ []) {len : Int} (within : len ≤ buf.length) :
    terminate (response ++ buf.drop response.length) response.length len =
      .ok ((terminated response len).length,
        terminated response len ++ buf.drop (terminated response len).length) := by
  obtain ⟨last, ends⟩ := exists_getLast? nonempty
  unfold terminate terminated
  by_cases room : (response.length : Int) < len
  · have shorter : response.length < buf.length := by omega
    obtain ⟨byte, rest, back⟩ := exists_drop shorter
    have next : buf.drop (response.length + 1) = rest := by
      rw [← List.drop_drop, back, List.drop_one, List.tail_cons]
    rw [if_pos room, load_last ends, ends]
    by_cases zero : last = 0
    · simp [inside, bind, Except.bind, zero]
    · simp [inside, bind, Except.bind, zero, room, back, Buffer.store_append, next]
  · simp [room]

/-- It looks in front of the buffer when the response is empty. -/
theorem terminate_empty {len : Int} (positive : 0 < len) :
    terminate buf 0 len = .error .outside := by
  rw [terminate, if_pos positive, Buffer.load_neg buf (by decide)]
  rfl

/-- Printing a response stays inside. -/
theorem printResponse_response (nonempty : response ≠ []) (rest : List UInt8) :
    line.printResponse (response ++ rest) response.length = .ok () := by
  obtain ⟨last, ends⟩ := exists_getLast? nonempty
  unfold Line.printResponse
  split
  · rw [load_last ends]
    by_cases zero : last = 0
    · subst zero
      obtain ⟨front, rfl⟩ := List.getLast?_eq_some_iff.mp ends
      obtain ⟨more, split, plain⟩ := Buffer.exists_str front rest
      have joined : front ++ [0] ++ rest = Buffer.str front ++ 0 :: more := by
        rw [List.append_assoc]
        exact split
      simp only [joined, inside, bind, Except.bind, Buffer.strlen_append plain,
        Line.printString_append plain, ite_self]
    · simp [zero, inside, bind, Except.bind]
  · rfl

/-! ## Queries -/

variable {str : List UInt8}

/-- `inst_qry` gives a response that is not empty with a NUL behind it, if there is room. -/
theorem instQry_delivers (accepts : line.write str = .ok ()) (nonempty : response ≠ [])
    (within : room ≤ buf.length) (delivers : line.Delivers response room) :
    instQry line str buf room = .ok ((terminated response room).length,
      terminated response room ++ buf.drop (terminated response room).length) := by
  have read := delivers.read within
  have full : terminated response room ≠ [] := by
    have longer := (length_terminated response delivers.1).1
    have some := List.length_pos_iff.mpr nonempty
    exact List.length_pos_iff.mp (by omega)
  simp only [instQry, accepts, read, bind, Except.bind, terminate_response nonempty within,
    printResponse_response full]

/-- For an empty one it looks in front of the buffer. -/
theorem instQry_empty (accepts : line.write str = .ok ()) (positive : 0 < room)
    (within : room ≤ buf.length) (delivers : line.Delivers [] room) :
    instQry line str buf room = .error .outside := by
  have read := delivers.read within
  simp only [List.length_nil, List.nil_append, List.drop_zero, Nat.cast_zero] at read
  simp only [instQry, accepts, read, bind, Except.bind, terminate_empty positive]

/-- `inst_qrystr` gives the string of a response that is not empty, and the count of `inst_qry`. -/
theorem instQrystr_delivers (accepts : line.write str = .ok ()) (nonempty : response ≠ [])
    (delivers : line.Delivers response (buf.length - 1)) :
    ∃ rest after, zapTrailingTerminators (terminated response (buf.length - 1) ++ 0 :: rest) =
        some after ∧
      instQrystr line str buf buf.length =
        .ok ((terminated response (buf.length - 1)).length, after) := by
  have bounds := length_terminated response delivers.1
  have query := @instQry_delivers line response buf _ str accepts nonempty (by omega) delivers
  have some := List.length_pos_iff.mpr nonempty
  have shorter : (terminated response (buf.length - 1)).length < buf.length := by omega
  obtain ⟨byte, rest, back⟩ := exists_drop shorter
  obtain ⟨after, zapped, -⟩ :=
    zapTrailingTerminators_response (terminated response (buf.length - 1)) rest
  have positive : 0 < ((terminated response (buf.length - 1)).length : Int) := by omega
  refine ⟨rest, after, zapped, ?_⟩
  simp only [instQrystr, query, bind, Except.bind, if_pos positive, back, Buffer.store_append,
    inside, zapped]

/-- `inst_rdf` scans the string of a response that is shorter than what it asks for. -/
theorem instRdf_delivers {α : Type} (scan : List UInt8 → α) (size : buf.length = rdfSize)
    (delivers : line.Delivers response (rdfSize - 1)) :
    instRdf line buf scan =
      if response.length < rdfSize - 1 then .ok (scan (textOf response))
      else .error .assertion := by
  have bound := delivers.1
  unfold rdfSize at size bound
  have shorter : response.length < buf.length := by omega
  have read := @Line.Delivers.read line response buf _ delivers (by unfold rdfSize; omega)
  obtain ⟨byte, rest, back⟩ := exists_drop shorter
  obtain ⟨after, zapped, more, rfl, plain⟩ := zapTrailingTerminators_response response rest
  have count : (toULong (response.length : Int)).toNat = response.length := by
    rw [toNat_toULong (by omega) (by omega), Int.toNat_natCast]
  rw [back] at read
  simp only [instRdf, read, bind, Except.bind, count]
  split
  · simp only [Buffer.store_append, inside, zapped, Buffer.strlen_append plain,
      Line.printString_append plain, Buffer.str_append plain]
  · rfl

/-- A query and a write followed by a read leave the string of a response, and nothing stops
them. -/
def QueryAgrees (line : Line) (str : List UInt8) (buf : Buffer) (response : List UInt8) : Prop :=
  ∃ count queried readBack, instQrystr line str buf buf.length = .ok (count, queried) ∧
    (do instWrtstr line str; instRdstr line buf buf.length) = .ok readBack ∧
    queried.str = textOf response ∧ readBack.str = textOf response

end

/-- Responses that one read is given. `inst_rdstr` makes a string of every one that fits. A query
agrees with a write and a read, and stays inside the buffer, exactly for those that are not
empty; so does `inst_qry`. No assertion of `inst_rdf` fails exactly for those that are shorter
than what it asks for. -/
theorem strings_sound_iff (line : Line) (str : List UInt8) (accepts : line.write str = .ok ())
    (buf : Buffer) (roomy : 2 ≤ buf.length) (response : List UInt8) :
    (line.Delivers response (buf.length - 1) →
      (∃ after, instRdstr line buf buf.length = .ok after ∧ after.str = textOf response) ∧
      (QueryAgrees line str buf response ↔ response ≠ [])) ∧
    (line.Delivers response buf.length →
      ((∃ result, instQry line str buf buf.length = .ok result) ↔ response ≠ [])) ∧
    (line.Delivers response (rdfSize - 1) → ∀ (own : Buffer), own.length = rdfSize →
      ((∃ text, instRdf line own id = .ok text) ↔ response.length ≠ rdfSize - 1)) := by
  refine ⟨fun delivers => ?_, fun delivers => ?_, fun delivers own size => ?_⟩
  · have readBack := @instRdstr_delivers line response buf delivers
    refine ⟨readBack, fun agrees empty => ?_, fun nonempty => ?_⟩
    · subst empty
      obtain ⟨count, queried, -, query, -⟩ := agrees
      have outside := @instQry_empty line buf _ str accepts (by omega) (by omega) delivers
      rw [instQrystr, outside] at query
      cases query
    · obtain ⟨rest, after, zapped, query⟩ := instQrystr_delivers accepts nonempty delivers
      obtain ⟨after', read, text⟩ := readBack
      obtain ⟨cleaned, zapped', more, rfl, plain⟩ :=
        zapTrailingTerminators_response (terminated response (buf.length - 1)) rest
      have same := Option.some.inj (zapped.symm.trans zapped')
      refine ⟨_, after, after', query, ?_, ?_, text⟩
      · simp only [instWrtstr, accepts, bind, Except.bind]
        exact read
      · rw [same, Buffer.str_append plain, textOf_terminated]
  · constructor
    · rintro ⟨result, query⟩ rfl
      have outside := @instQry_empty line buf _ str accepts (by omega) (by omega) delivers
      rw [outside] at query
      cases query
    · intro nonempty
      exact ⟨_, instQry_delivers accepts nonempty (Int.le_refl _) delivers⟩
  · have bound := delivers.1
    unfold rdfSize at bound
    rw [instRdf_delivers id size delivers]
    split
    · rename_i shorter
      exact iff_of_true ⟨_, rfl⟩ (Nat.ne_of_lt shorter)
    · rename_i full
      refine iff_of_false (fun ⟨text, scanned⟩ => by cases scanned) ?_
      unfold rdfSize at full ⊢
      omega

/-- A GPIB instrument that takes every string and answers in one `ibrd` with END. -/
def answering (response : List UInt8) (verbose : Bool) : Line :=
  ⟨fun _ => .ok (), .gpib [⟨response, false, false, true⟩], verbose⟩

/-- Its answer is delivered to every read with room for it. -/
theorem answering_delivers {response : List UInt8} {room : Int} (verbose : Bool)
    (fits : response.length ≤ room) (small : room ≤ intMax) :
    (answering response verbose).Delivers response room := by
  refine ⟨fits, fun mem => ?_⟩
  have count : toInt (response.length : Int) = response.length :=
    toInt_of_range (by omega) (by omega)
  simp [answering, genericRead, ibrdLoop, count]

/-- The answer `1`, with a carriage return and a newline, in a buffer of eight bytes. -/
theorem strings_sound_one :
    let line := answering [49, 13, 10] true
    let buf : Buffer := List.replicate 8 255
    QueryAgrees line [42] buf [49, 13, 10] ∧ textOf [49, 13, 10] = [49] := by
  have sound := strings_sound_iff (answering [49, 13, 10] true) [42] rfl (List.replicate 8 255)
    (by decide) [49, 13, 10]
  exact ⟨(sound.1 (answering_delivers true (by decide) (by decide))).2.mpr (by decide), by decide⟩

/-- An empty answer makes a query look in front of the buffer, where a write and a read give the
empty string. An answer of 1023 bytes, which `inst_rdf` asks for, makes its assertion fail. -/
theorem strings_outside :
    let line := answering [] false
    let buf : Buffer := List.replicate 8 255
    let full := List.replicate 1023 65
    line.Delivers [] (buf.length - 1) ∧
      (∃ after, instRdstr line buf buf.length = .ok after ∧ after.str = []) ∧
      instQrystr line [42] buf buf.length = .error .outside ∧
      (answering full false).Delivers full (rdfSize - 1) ∧
      instRdf (answering full false) (List.replicate rdfSize 0) id = .error .assertion := by
  intro line buf full
  have empty : line.Delivers [] (buf.length - 1) :=
    answering_delivers false (by decide) (by decide)
  have longest : (answering full false).Delivers full (rdfSize - 1) :=
    answering_delivers false (by rw [List.length_replicate]; decide) (by decide)
  refine ⟨empty, instRdstr_delivers empty, ?_, longest, ?_⟩
  · have outside := @instQry_empty line buf _ [42] rfl (by decide) (by decide) empty
    rw [instQrystr, outside]
    rfl
  · rw [instRdf_delivers id List.length_replicate longest, if_neg]
    rw [List.length_replicate]
    decide

end GpibUtils.Inst
