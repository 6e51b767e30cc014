import GpibUtils.Vxi11.Write

/-!
# Chunks of `vxi11_write`

How a message is cut. Each data RPC offers as much of what is left as the peer can hold, and END
marks the data RPCs that offer the last byte. The flag is set and never cleared, and a device may
take only part of a marked chunk, so marked RPCs repeat; the invariant is that END is set only
once what is left fits the peer (`Chunking`).
-/

namespace GpibUtils.Vxi11

open CSem Dialogue

/-- Bytes that a data RPC had acknowledged, none standing for all that were offered. -/
def WriteCall.acked (call : WriteCall) : Nat :=
  match call.reply with
  | none => 0
  | some r =>
    if r.error = 0 then if r.size = 0 then call.parms.dataLen.toNat else r.size.toNat else 0

/-- Bytes that some data RPCs had acknowledged. -/
def ackedBy (calls : List WriteCall) : Nat := (calls.map WriteCall.acked).sum

/-- A data RPC carries END. -/
def WriteCall.Marked (call : WriteCall) : Prop := call.parms.flags &&& flagEndw ≠ 0

@[simp] theorem ackedBy_nil : ackedBy [] = 0 := rfl

@[simp] theorem ackedBy_append (calls : List WriteCall) (call : WriteCall) :
    ackedBy (calls ++ [call]) = ackedBy calls + call.acked := by simp [ackedBy]

/-- What each data RPC of a message of `len` bytes offers, and how it is marked. -/
structure Chunked (v : Device) (len : Int) (calls : List WriteCall) : Prop where
  /-- It offers the bytes still unacknowledged, or as many of them as the peer can hold. -/
  offers : ∀ before call after, calls = before ++ call :: after →
    call.parms.dataLen = min (len - ackedBy before) v.maxRecvSize.toNat
  /-- It is marked when it offers the last byte, and END is asked for. -/
  marks : ∀ before call after, calls = before ++ call :: after →
    (call.Marked ↔ v.doEndw = true ∧ ackedBy before + call.parms.dataLen = len)

/-- What the data RPCs of a message that went out have done. -/
structure SentWhole (v : Device) (len : Int) (calls : List WriteCall) : Prop where
  /-- All bytes are acknowledged. -/
  whole : ackedBy calls = len
  /-- END is sent when it is asked for. -/
  marked : v.doEndw = true → ∃ call ∈ calls, call.Marked
  /-- No data RPC that leaves later bytes unoffered is marked. -/
  unmarked : ∀ before call after, calls = before ++ call :: after →
    ackedBy before + call.parms.dataLen < len → ¬call.Marked

/-- The variables of the loop after some data RPCs: what is left is what is unacknowledged, and
END is set only once that fits the peer. -/
structure Chunking (v : Device) (len : Int) (past : List WriteCall) (s : WriteState) : Prop where
  left : s.len = len - ackedBy past
  nonneg : 0 ≤ s.len
  flags : s.flags = 0 ∨ s.flags = flagEndw ∧ v.doEndw = true ∧ s.len ≤ v.maxRecvSize.toNat

section
variable {v : Device} {core : Client} {len : Int} {past : List WriteCall} {s : WriteState}

/-- The chunk offered is what is left, or as much of it as the peer can hold. -/
theorem writeTry_eq (positive : 0 < s.len) (small : s.len ≤ intMax) :
    ((writeTry v s.len).toNat : Int) = min s.len v.maxRecvSize.toNat := by
  have same : (toULong s.len).toNat = s.len.toNat :=
    toNat_toULong (by omega) (by unfold intMax at small; omega)
  unfold writeTry
  split
  · rename_i larger
    have := UInt64.lt_iff_toNat_lt.mp larger
    omega
  · rename_i fits
    have := mt UInt64.lt_iff_toNat_lt.mpr fits
    omega

/-- The length a data RPC offers. -/
theorem writeCall_dataLen (positive : 0 < s.len) (small : s.len ≤ intMax)
    (x : Exchange DeviceWriteResp) :
    (writeCall v (s, x)).parms.dataLen = (writeTry v s.len).toNat := by
  simp only [writeCall]
  exact toInt_writeTry positive small

/-- The flags of the next data RPC: END exactly when the chunk is the rest of the message. -/
theorem Chunking.writeFlags_eq (chunking : Chunking v len past s) (small : s.len ≤ intMax) :
    writeFlags v s =
      if v.doEndw = true ∧ s.len ≤ v.maxRecvSize.toNat then flagEndw else 0 := by
  have nonneg := chunking.nonneg
  have same : (toULong s.len).toNat = s.len.toNat :=
    toNat_toULong nonneg (by unfold intMax at small; omega)
  have fits : v.maxRecvSize < toULong s.len ↔ ¬s.len ≤ v.maxRecvSize.toNat := by
    rw [UInt64.lt_iff_toNat_lt, same]
    omega
  unfold writeFlags
  rcases chunking.flags with clear | ⟨set, endw, last⟩
  · by_cases room : s.len ≤ v.maxRecvSize.toNat <;> by_cases endw : v.doEndw = true <;>
      simp [fits, room, endw, clear]
  · simp [fits, set, endw, last]

/-- The data RPC of a pass offers the rest of the message, or as much of it as the peer can
hold. -/
theorem Chunking.offers (chunking : Chunking v len past s) (running : 0 < s.len)
    (small : s.len ≤ intMax) (x : Exchange DeviceWriteResp) :
    (writeCall v (s, x)).parms.dataLen = min (len - ackedBy past) v.maxRecvSize.toNat := by
  rw [← chunking.left, ← writeTry_eq running small, writeCall_dataLen running small]

/-- The data RPC of a pass is marked exactly when it offers the last byte. -/
theorem Chunking.marks (chunking : Chunking v len past s) (running : 0 < s.len)
    (small : s.len ≤ intMax) (x : Exchange DeviceWriteResp) :
    (writeCall v (s, x)).Marked ↔
      v.doEndw = true ∧ ackedBy past + (writeCall v (s, x)).parms.dataLen = len := by
  have offered := chunking.offers running small x
  have left := chunking.left
  have last : ackedBy past + (writeCall v (s, x)).parms.dataLen = len ↔
      s.len ≤ v.maxRecvSize.toNat := by omega
  rw [last, WriteCall.Marked]
  simp only [writeCall, chunking.writeFlags_eq small]
  by_cases both : v.doEndw = true ∧ s.len ≤ v.maxRecvSize.toNat <;> simp [both, flagEndw]

/-- A pass whose reply acknowledges at most what was offered keeps the variables in step. -/
theorem Chunking.body (chunking : Chunking v len past s) (core : Client) (running : 0 < s.len)
    (small : s.len ≤ intMax) {x : Exchange DeviceWriteResp}
    (honest : HonestWrites [writeCall v (s, x)]) :
    Chunking v len (past ++ [writeCall v (s, x)]) (writeBody v core s x) := by
  have left := chunking.left
  have offered : (writeCall v (s, x)).parms.dataLen = (writeTry v s.len).toNat :=
    writeCall_dataLen running small x
  have fits := writeTry_eq (v := v) running small
  -- END is set for the rest of the call once what is left fits the peer.
  have flags : ∀ remaining ≤ s.len, writeFlags v s = 0 ∨
      writeFlags v s = flagEndw ∧ v.doEndw = true ∧ remaining ≤ v.maxRecvSize.toNat := by
    intro remaining less
    rw [chunking.writeFlags_eq small]
    by_cases both : v.doEndw = true ∧ s.len ≤ v.maxRecvSize.toNat
    · exact .inr ⟨if_pos both, both.1, less.trans both.2⟩
    · exact .inl (if_neg both)
  by_cases success : resultOf (x.reply.map (·.error)) = 0
  · obtain ⟨r, reply, good⟩ := Option.map_eq_some_iff.mp (resultOf_eq_zero.mp success)
    have acked : (writeCall v (s, x)).acked = writeAcked v s.len r := by
      simp only [WriteCall.acked, offered, Int.toNat_natCast]
      simp only [writeCall, reply, good, if_true, writeAcked]
    have bound : (writeAcked v s.len r : Int) ≤ s.len := by
      have within := honest _ (List.mem_singleton.mpr rfl) r reply good
      unfold writeAcked
      split <;> omega
    have same : toInt (s.len - writeAcked v s.len r) = s.len - writeAcked v s.len r :=
      toInt_of_range (by omega) (by omega)
    have nonneg : 0 ≤ s.len - writeAcked v s.len r := by omega
    have less : s.len - writeAcked v s.len r ≤ s.len := by omega
    rw [writeBody_success reply good, same]
    constructor
    · simp only [ackedBy_append, acked, left]
      omega
    · exact nonneg
    · exact flags _ less
  · have acked : (writeCall v (s, x)).acked = 0 := by
      cases reply : x.reply with
      | none => simp [WriteCall.acked, writeCall, reply]
      | some r =>
        have failed : r.error ≠ 0 := by simpa [reply, resultOf] using success
        simp [WriteCall.acked, writeCall, reply, failed]
    rw [writeBody_failed success]
    constructor
    · simpa [acked] using left
    · exact chunking.nonneg
    · exact flags _ le_rfl

end

section
variable {v : Device} {core : Client} {len : Int} {peer : Peer DeviceWriteResp}

/-- Every pass keeps the variables in step, while the device acknowledges at most what it was
offered. -/
theorem writeLoop_chunking (v : Device) (core : Client) (small : len ≤ intMax) :
    (writeLoop v core).HistoryInvariant fun past s =>
      HonestWrites (past.map (writeCall v)) → Chunking v len (past.map (writeCall v)) s where
  step past s x held running honest := by
    have condition : s.res = 0 ∧ 0 < s.len := by simpa [writeLoop] using running
    rw [List.map_append] at honest ⊢
    have earlier : HonestWrites (past.map (writeCall v)) := fun call member =>
      honest call (List.mem_append_left _ member)
    have last : HonestWrites [writeCall v (s, x)] := fun call member =>
      honest call (List.mem_append_right _ member)
    have chunking := held earlier
    have below : s.len ≤ intMax := by
      have left := chunking.left
      omega
    exact chunking.body core condition.2 below last

/-- What holds before the first data RPC. -/
theorem chunking_start (v : Device) (nonneg : 0 ≤ len) : Chunking v len [] (writeStart v len) := by
  constructor <;> simp [writeStart, nonneg]

/-- Each data RPC of a call is made in a state in step with those before it. -/
theorem writeCalls_chunking (positive : 1 ≤ len) (small : len ≤ intMax)
    (honest : HonestWrites (writeCalls v core len peer)) {before after : List WriteCall}
    {call : WriteCall} (split : writeCalls v core len peer = before ++ call :: after) :
    ∃ s x, writeCall v (s, x) = call ∧ 0 < s.len ∧ s.len ≤ intMax ∧ Chunking v len before s := by
  by_cases admits : peer.admits v
  · rw [writeCalls, writeRounds, if_pos admits] at split honest
    obtain ⟨front, back, rounds, rfl, rest⟩ := List.map_eq_append_iff.mp split
    obtain ⟨round, later, rfl, rfl, rfl⟩ := List.map_eq_cons_iff.mp rest
    have running : (writeLoop v core).running round.1 = true := (Loop.rounds_split rounds).1
    have condition : round.1.res = 0 ∧ 0 < round.1.len := by simpa [writeLoop] using running
    have start : HonestWrites (([] : List (WriteState × Exchange DeviceWriteResp)).map
        (writeCall v)) → Chunking v len ([].map (writeCall v)) (writeStart v len) :=
      fun _ => chunking_start v (by omega)
    have earlier : HonestWrites (front.map (writeCall v)) := fun call member =>
      honest call (by rw [rounds, List.map_append]; exact List.mem_append_left _ member)
    have chunking := (writeLoop_chunking v core small).round start rounds earlier
    have left := chunking.left
    exact ⟨round.1, round.2, rfl, condition.2, by omega, chunking⟩
  · simp [writeCalls, writeRounds, admits] at split

/-- Every data RPC offers what it should and is marked as it should be. -/
theorem writeCalls_chunked (positive : 1 ≤ len) (small : len ≤ intMax)
    (honest : HonestWrites (writeCalls v core len peer)) :
    Chunked v len (writeCalls v core len peer) := by
  constructor
  · intro before call after split
    obtain ⟨s, x, rfl, running, below, chunking⟩ := writeCalls_chunking positive small honest split
    exact chunking.offers running below x
  · intro before call after split
    obtain ⟨s, x, rfl, running, below, chunking⟩ := writeCalls_chunking positive small honest split
    exact chunking.marks running below x

/-- A call that returns 0 has had every byte acknowledged. -/
theorem vxi11Write_whole (opened : Opened v core) (positive : 1 ≤ len) (small : len ≤ intMax)
    (honest : HonestWrites (writeCalls v core len peer)) (ok : (vxi11Write v len peer).1 = 0) :
    ackedBy (writeCalls v core len peer) = len := by
  have admits : peer.admits v := by
    by_contra refused
    rw [vxi11Write, onCore_opened opened] at ok
    exact (bracketed_refused opened refused _).1 ok
  have done : ((writeLoop v core).final (writeStart v len) peer.exchanges).res = 0 := by
    rw [vxi11Write_ret opened admits] at ok
    by_contra failed
    rw [if_neg failed] at ok
    exact failed ok
  rw [writeCalls, writeRounds, if_pos admits] at honest ⊢
  have start : HonestWrites (([] : List (WriteState × Exchange DeviceWriteResp)).map
      (writeCall v)) → Chunking v len ([].map (writeCall v)) (writeStart v len) :=
    fun _ => chunking_start v (by omega)
  have chunking := (writeLoop_chunking v core small).final start peer.exchanges honest
  have stopped := @Loop.running_final _ _ (writeLoop v core) (writeStart v len) peer.exchanges
  simp only [writeLoop, decide_eq_false_iff_not, not_and] at stopped
  have empty := stopped done
  have left := chunking.left
  have nonneg := chunking.nonneg
  simp only [List.nil_append] at left
  change ¬0 < ((writeLoop v core).final (writeStart v len) peer.exchanges).len at empty
  omega

/-- The data RPC that has the last byte acknowledged is marked. -/
theorem Chunked.last_marked {calls : List WriteCall} (chunked : Chunked v len calls)
    (positive : 1 ≤ len) (honest : HonestWrites calls) (whole : ackedBy calls = len)
    (endw : v.doEndw = true) : ∃ call ∈ calls, call.Marked := by
  have some : calls ≠ [] := by
    intro none
    rw [none, ackedBy_nil] at whole
    omega
  obtain ⟨before, call, rfl⟩ := List.eq_nil_or_concat calls |>.resolve_left some
  rw [List.concat_eq_append] at *
  have member : call ∈ before ++ [call] := List.mem_append_right _ (List.mem_singleton.mpr rfl)
  have offered := chunked.offers before call [] rfl
  have within : call.acked = 0 ∨ (call.acked : Int) ≤ call.parms.dataLen := by
    cases reply : call.reply with
    | none => simp [WriteCall.acked, reply]
    | some r =>
      have bound := honest call member r reply
      simp only [WriteCall.acked, reply]
      by_cases good : r.error = 0
      · have bound := bound good
        simp only [good, if_true]
        split <;> omega
      · simp [good]
  refine ⟨call, member, (chunked.marks before call [] rfl).mpr ⟨endw, ?_⟩⟩
  rw [ackedBy_append] at whole
  omega

/-- However a device takes the chunks of a message, each data RPC that is sent offers as much of the
rest as the peer can hold, END marks exactly those that offer the last byte, and a call that returns
0 has sent the whole message. -/
theorem vxi11Write_chunked (opened : Opened v core) (positive : 1 ≤ len) (small : len ≤ intMax)
    (honest : HonestWrites (writeCalls v core len peer)) :
    (vxi11Write v len peer).2.filterMap Rpc.writeParms =
        (writeCalls v core len peer).map WriteCall.parms ∧
      Chunked v len (writeCalls v core len peer) ∧
      ((vxi11Write v len peer).1 = 0 → SentWhole v len (writeCalls v core len peer)) := by
  have chunked : Chunked v len (writeCalls v core len peer) :=
    writeCalls_chunked positive small honest
  refine ⟨vxi11Write_sends opened len peer, chunked, fun ok => ?_⟩
  have whole := vxi11Write_whole opened positive small honest ok
  constructor
  · exact whole
  · exact chunked.last_marked positive honest whole
  · intro before call after split early marked
    have last := ((chunked.marks before call after split).mp marked).2
    omega

end

/-- A message of three bytes to a device that holds two and takes one at a time: the last two
data RPCs are marked. -/
theorem vxi11Write_chunked_three :
    let peer : Peer DeviceWriteResp := ⟨none, [acknowledge 1, acknowledge 1, acknowledge 0], none⟩
    let calls := writeCalls (linked 2) 1 3 peer
    calls.map (·.parms.flags) = [0, 8, 8] ∧ Chunked (linked 2) 3 calls ∧
      SentWhole (linked 2) 3 calls := by
  have calls : writeCalls (linked 2) 1 3
      ⟨none, [acknowledge 1, acknowledge 1, acknowledge 0], none⟩ =
        [⟨⟨0, 25000, 0, 0, 0, 2⟩, some ⟨0, 1⟩⟩, ⟨⟨0, 25000, 0, 8, -1, 2⟩, some ⟨0, 1⟩⟩,
          ⟨⟨0, 25000, 0, 8, -2, 1⟩, some ⟨0, 0⟩⟩] := by decide
  have chunked := @vxi11Write_chunked (linked 2) 1 3
    ⟨none, [acknowledge 1, acknowledge 1, acknowledge 0], none⟩ (linked_opened 2) (by decide)
    (by decide) (by simp [HonestWrites, calls])
  exact ⟨by simp [calls], chunked.2.1, chunked.2.2 (by decide)⟩

end GpibUtils.Vxi11
