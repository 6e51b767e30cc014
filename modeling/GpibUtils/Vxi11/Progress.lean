import GpibUtils.Vxi11.Chunks

/-!
# Progress of `vxi11_write`

How long the loop of `vxi11_write` keeps sending to a device that acknowledges every data RPC.
The sizes it acknowledges are 32-bit words that nothing checks, and they are subtracted from an
`int`: one that exceeds what is left by more than half the range makes the count go up. A device
that declares room for nothing and acknowledges nothing keeps the loop where it is. Nothing else
does (`vxi11Write_progresses_iff`).
-/

namespace GpibUtils.Vxi11

open CSem Dialogue

/-- A data RPC that a device acknowledges: the clock read before and after it, and the size. -/
structure Ack where
  before : Timeval
  after : Timeval
  size : UInt32

/-- The data RPC as the caller sees it. -/
def Ack.exchange (ack : Ack) : Exchange DeviceWriteResp :=
  ⟨ack.before, ack.after, some ⟨0, ack.size⟩⟩

/-- Milliseconds measured for a data RPC. -/
def Ack.elapsed (ack : Ack) : UInt64 := timersubms ack.after ack.before

/-- The data RPCs of an unbounded conversation. -/
def exchangesOf (acks : ℕ → Ack) (n : ℕ) : Exchange DeviceWriteResp := (acks n).exchange

/-- Bytes not yet acknowledged after some data RPCs, for a device with so much room; one that
acknowledges nothing has taken all it was offered. -/
def leftAfter (room len : ℕ) (acks : ℕ → Ack) : ℕ → ℕ
  | 0 => len
  | n + 1 =>
    let left := leftAfter room len acks n
    left - if (acks n).size = 0 then min left room else (acks n).size.toNat

/-- Milliseconds measured for the first data RPCs. -/
def spentAfter (acks : ℕ → Ack) : ℕ → UInt64
  | 0 => 0
  | n + 1 => spentAfter acks n + (acks n).elapsed

/-- Bytes are left after the first data RPCs and after each before them, and the time was not
used up exactly after any. -/
def Unfinished (v : Device) (len : ℕ) (acks : ℕ → Ack) (n : ℕ) : Prop :=
  ∀ k ≤ n, 0 < leftAfter v.maxRecvSize.toNat len acks k ∧
    (0 < k → spentAfter acks k ≠ v.ioTimeout)

instance (v : Device) (len : ℕ) (acks : ℕ → Ack) (n : ℕ) : Decidable (Unfinished v len acks n) :=
  inferInstanceAs (Decidable (∀ k ≤ n, _))

/-- No size acknowledged while bytes are left exceeds them by more than half the range of an
`int`. -/
def ModerateSizes (v : Device) (len : ℕ) (acks : ℕ → Ack) : Prop :=
  ∀ n, Unfinished v len acks n →
    (acks n).size.toNat ≤ leftAfter v.maxRecvSize.toNat len acks n + 2 ^ 31

/-- The loop of a call that asks for `len` bytes, met by an unbounded conversation. -/
structure Progresses (v : Device) (core : Client) (len : ℕ) (acks : ℕ → Ack) : Prop where
  /-- No pass makes the bytes left to send more. -/
  shrinks : ∀ n, (writeLoop v core).Reaches (writeStart v len) (exchangesOf acks) (n + 1) →
    ((writeLoop v core).after (writeStart v len) (exchangesOf acks) (n + 1)).len ≤
      ((writeLoop v core).after (writeStart v len) (exchangesOf acks) n).len
  /-- A call makes at most one data RPC for each byte, however much of the conversation it is
  given. -/
  ends : ∀ lock unlock n,
    (writeCalls v core len ⟨lock, Loop.firstOf (exchangesOf acks) n, unlock⟩).length ≤ len

/-- The variables of the loop after some data RPCs agree with what is left and the time spent. -/
structure InStep (v : Device) (len : ℕ) (acks : ℕ → Ack) (n : ℕ) (s : WriteState) : Prop where
  left : 0 < leftAfter v.maxRecvSize.toNat len acks n →
    s.len = leftAfter v.maxRecvSize.toNat len acks n
  none : leftAfter v.maxRecvSize.toNat len acks n = 0 → s.len ≤ 0
  time : s.tmout = v.ioTimeout - spentAfter acks n
  error : 0 < leftAfter v.maxRecvSize.toNat len acks n →
    (s.res = 0 ↔ (0 < n → spentAfter acks n ≠ v.ioTimeout))

section
variable {v : Device} {core : Client} {len : ℕ} {acks : ℕ → Ack} {n : ℕ}

/-- No more than the message is left. -/
theorem leftAfter_le (room len : ℕ) (acks : ℕ → Ack) (n : ℕ) : leftAfter room len acks n ≤ len := by
  induction n with
  | zero => exact le_rfl
  | succ n ih => exact (Nat.sub_le _ _).trans ih

/-- A peer with room takes something with every data RPC. -/
theorem leftAfter_lt (room : 0 < v.maxRecvSize.toNat)
    (some : 0 < leftAfter v.maxRecvSize.toNat len acks n) :
    leftAfter v.maxRecvSize.toNat len acks (n + 1) < leftAfter v.maxRecvSize.toNat len acks n := by
  have sized : (acks n).size ≠ 0 → 0 < (acks n).size.toNat := by
    intro nonzero
    exact Nat.pos_of_ne_zero fun zero => nonzero (UInt32.toNat_inj.mp (by simpa using zero))
  rw [leftAfter]
  by_cases zero : (acks n).size = 0
  · simp only [zero, if_true]
    omega
  · have taken := sized zero
    simp only [zero, if_false]
    omega

/-- What holds after the first data RPCs held after fewer. -/
theorem Unfinished.before {k : ℕ} (unfinished : Unfinished v len acks n) (below : k ≤ n) :
    Unfinished v len acks k := fun j small => unfinished j (small.trans below)

/-- One more data RPC. -/
theorem unfinished_iff (earlier : ∀ k < n, Unfinished v len acks k) :
    Unfinished v len acks n ↔ 0 < leftAfter v.maxRecvSize.toNat len acks n ∧
      (0 < n → spentAfter acks n ≠ v.ioTimeout) := by
  constructor
  · intro unfinished
    exact unfinished n le_rfl
  · intro last k below
    rcases Nat.lt_or_eq_of_le below with less | rfl
    · exact earlier k less k le_rfl
    · exact last

/-- Variables in step with a conversation let the loop go on exactly while it is unfinished. -/
theorem InStep.running_iff {s : WriteState} (inStep : InStep v len acks n s) (core : Client)
    (earlier : ∀ k < n, Unfinished v len acks k) :
    (writeLoop v core).running s = true ↔ Unfinished v len acks n := by
  rw [unfinished_iff earlier]
  have condition : (writeLoop v core).running s = true ↔ s.res = 0 ∧ 0 < s.len := by
    simp [writeLoop]
  rw [condition]
  rcases Nat.eq_zero_or_pos (leftAfter v.maxRecvSize.toNat len acks n) with none | some
  · have empty := inStep.none none
    constructor
    · intro both
      omega
    · intro both
      omega
  · have left := inStep.left some
    rw [inStep.error some]
    constructor
    · intro both
      exact ⟨some, both.1⟩
    · intro both
      exact ⟨both.2, by omega⟩

/-- Bytes acknowledged in a pass that starts in step. -/
theorem InStep.acked {s : WriteState} (inStep : InStep v len acks n s) (small : len ≤ intMax)
    (some : 0 < leftAfter v.maxRecvSize.toNat len acks n) :
    writeAcked v s.len ⟨0, (acks n).size⟩ =
      if (acks n).size = 0
        then min (leftAfter v.maxRecvSize.toNat len acks n) v.maxRecvSize.toNat
        else (acks n).size.toNat := by
  have left := inStep.left some
  have most := leftAfter_le v.maxRecvSize.toNat len acks n
  have offered := @writeTry_eq v s (by omega) (by omega)
  unfold writeAcked
  by_cases zero : (acks n).size = 0
  · simp only [zero, if_true]
    omega
  · simp only [zero, if_false]

/-- A pass from a state in step, acknowledged by a moderate size, leads to a state in step. -/
theorem InStep.body {s : WriteState} (inStep : InStep v len acks n s) (core : Client)
    (small : len ≤ intMax) (some : 0 < leftAfter v.maxRecvSize.toNat len acks n)
    (moderate : (acks n).size.toNat ≤ leftAfter v.maxRecvSize.toNat len acks n + 2 ^ 31) :
    InStep v len acks (n + 1) (writeBody v core s (exchangesOf acks n)) := by
  have left := inStep.left some
  have most := leftAfter_le v.maxRecvSize.toNat len acks n
  have acked := inStep.acked small some
  have bound : writeAcked v s.len ⟨0, (acks n).size⟩ ≤
      leftAfter v.maxRecvSize.toNat len acks n + 2 ^ 31 := by
    rw [acked]
    split <;> omega
  have next : leftAfter v.maxRecvSize.toNat len acks (n + 1) =
      leftAfter v.maxRecvSize.toNat len acks n - writeAcked v s.len ⟨0, (acks n).size⟩ := by
    rw [acked]
    rfl
  have same : toInt (s.len - writeAcked v s.len ⟨0, (acks n).size⟩) =
      s.len - writeAcked v s.len ⟨0, (acks n).size⟩ := by
    unfold intMax at small
    apply toInt_of_range
    · omega
    · unfold intMax
      omega
  have time : s.tmout - (exchangesOf acks n).elapsed = v.ioTimeout - spentAfter acks (n + 1) := by
    rw [inStep.time, spentAfter]
    change v.ioTimeout - spentAfter acks n - (acks n).elapsed = _
    grind
  have body := @writeBody_success v core s (exchangesOf acks n) ⟨0, (acks n).size⟩ rfl rfl
  rw [body, same, time]
  constructor
  · intro later
    change s.len - writeAcked v s.len ⟨0, (acks n).size⟩ = _
    omega
  · intro none
    change s.len - writeAcked v s.len ⟨0, (acks n).size⟩ ≤ 0
    omega
  · rfl
  · intro later
    have positive : 0 < s.len - writeAcked v s.len ⟨0, (acks n).size⟩ := by omega
    simp only [positive, true_and, Nat.zero_lt_succ, true_implies, sub_eq_zero_iff]
    by_cases used : v.ioTimeout = spentAfter acks (n + 1)
    · simp [used, errIotimeout]
    · simp [used, Ne.symm used]

/-- A size that is not moderate makes the bytes left more. -/
theorem InStep.grows {s : WriteState} (inStep : InStep v len acks n s) (core : Client)
    (small : len ≤ intMax) (some : 0 < leftAfter v.maxRecvSize.toNat len acks n)
    (excessive : leftAfter v.maxRecvSize.toNat len acks n + 2 ^ 31 < (acks n).size.toNat) :
    s.len < (writeBody v core s (exchangesOf acks n)).len := by
  have left := inStep.left some
  have most := leftAfter_le v.maxRecvSize.toNat len acks n
  have width := (acks n).size.toNat_lt
  have nonzero : (acks n).size ≠ 0 := by
    intro zero
    rw [zero] at excessive
    simp at excessive
  have acked : writeAcked v s.len ⟨0, (acks n).size⟩ = (acks n).size.toNat := by
    rw [inStep.acked small some, if_neg nonzero]
  have body := @writeBody_success v core s (exchangesOf acks n) ⟨0, (acks n).size⟩ rfl rfl
  rw [body, acked]
  change s.len < toInt (s.len - (acks n).size.toNat)
  -- The difference lies below the range and comes back one turn higher.
  have turned : toInt (s.len - (acks n).size.toNat) = s.len - (acks n).size.toNat + 2 ^ 32 := by
    have same : toInt (s.len - (acks n).size.toNat) =
        toInt (s.len - (acks n).size.toNat + 2 ^ 32) := by
      unfold toInt
      simp [Int.bmod_def]
    rw [same]
    unfold intMax at small
    apply toInt_of_range
    · omega
    · unfold intMax
      omega
  omega

end

section
variable {v : Device} {core : Client} {len : ℕ} {acks : ℕ → Ack} {n : ℕ}

/-- Before the first data RPC. -/
theorem inStep_start (v : Device) (len : ℕ) (acks : ℕ → Ack) :
    InStep v len acks 0 (writeStart v len) := by
  constructor <;> simp [writeStart, leftAfter, spentAfter]

/-- An unfinished conversation with moderate sizes is one the loop follows. -/
theorem inStep_after (v : Device) (core : Client) (small : (len : Int) ≤ intMax)
    (moderate : ∀ k < n, Unfinished v len acks k ∧
      (acks k).size.toNat ≤ leftAfter v.maxRecvSize.toNat len acks k + 2 ^ 31) :
    (writeLoop v core).Reaches (writeStart v len) (exchangesOf acks) n ∧
      InStep v len acks n ((writeLoop v core).after (writeStart v len) (exchangesOf acks) n) := by
  induction n with
  | zero => exact ⟨fun k below => absurd below (Nat.not_lt_zero k), inStep_start v len acks⟩
  | succ n ih =>
    obtain ⟨reaches, inStep⟩ := ih fun k below => moderate k (Nat.lt_succ_of_lt below)
    have last := moderate n (Nat.lt_succ_self n)
    have running := (inStep.running_iff core fun k below =>
      (moderate k (Nat.lt_succ_of_lt below)).1).mpr last.1
    constructor
    · intro k below
      rcases Nat.lt_or_eq_of_le (Nat.le_of_lt_succ below) with less | rfl
      · exact reaches k less
      · exact running
    · exact inStep.body core small (last.1 n le_rfl).1 last.2

/-- With moderate sizes the loop makes a pass only while the conversation is unfinished. -/
theorem unfinished_of_reaches (small : (len : Int) ≤ intMax) (moderate : ModerateSizes v len acks)
    (reaches : (writeLoop v core).Reaches (writeStart v len) (exchangesOf acks) n) :
    ∀ k < n, Unfinished v len acks k := by
  induction n with
  | zero => exact fun k below => absurd below (Nat.not_lt_zero k)
  | succ n ih =>
    have earlier := ih fun k below => reaches k (Nat.lt_succ_of_lt below)
    have inStep := (inStep_after v core small fun k below =>
      ⟨earlier k below, moderate k (earlier k below)⟩).2
    have last := (inStep.running_iff core earlier).mp (reaches n (Nat.lt_succ_self n))
    intro k below
    exact last.before (Nat.le_of_lt_succ below)

/-- With moderate sizes the loop stops exactly where the conversation is finished. -/
theorem stops_iff_finished (small : (len : Int) ≤ intMax) (moderate : ModerateSizes v len acks)
    (bound : ℕ) :
    (∃ n ≤ bound, (writeLoop v core).running
        ((writeLoop v core).after (writeStart v len) (exchangesOf acks) n) = false) ↔
      ∃ n ≤ bound, ¬Unfinished v len acks n := by
  have inStep : ∀ n, (∀ k < n, Unfinished v len acks k) →
      InStep v len acks n ((writeLoop v core).after (writeStart v len) (exchangesOf acks) n) :=
    fun n earlier => (inStep_after v core small fun k below =>
      ⟨earlier k below, moderate k (earlier k below)⟩).2
  constructor
  · intro ⟨n, below, stopped⟩
    refine ⟨n, below, fun unfinished => ?_⟩
    have earlier : ∀ k < n, Unfinished v len acks k := fun k less => unfinished.before less.le
    have running := ((inStep n earlier).running_iff core earlier).mpr unfinished
    rw [stopped] at running
    cases running
  · intro ⟨n, below, finished⟩
    have ends : ∃ n, ¬Unfinished v len acks n := ⟨n, finished⟩
    have first := Nat.find_spec ends
    have earlier : ∀ k < Nat.find ends, Unfinished v len acks k := by
      intro k less
      exact not_not.mp (Nat.find_min ends less)
    have least : Nat.find ends ≤ n := Nat.find_min' ends finished
    refine ⟨Nat.find ends, least.trans below, ?_⟩
    rw [← Bool.not_eq_true, (inStep _ earlier).running_iff core earlier]
    exact first

/-- A bound on the data RPCs of a call, however much of the conversation it is given, is a bound
on the passes after which the loop stops. -/
theorem writeCalls_bounded_iff (v : Device) (core : Client) (len bound : ℕ) (acks : ℕ → Ack) :
    (∀ lock unlock n, (writeCalls v core len
        ⟨lock, Loop.firstOf (exchangesOf acks) n, unlock⟩).length ≤ bound) ↔
      ∃ n ≤ bound, (writeLoop v core).running
        ((writeLoop v core).after (writeStart v len) (exchangesOf acks) n) = false := by
  rw [← Loop.rounds_bounded_iff]
  constructor
  · intro bounded n
    have granted : (⟨some 0, Loop.firstOf (exchangesOf acks) n, none⟩ :
        Peer DeviceWriteResp).admits v := fun _ => rfl
    simpa [writeCalls, writeRounds, granted] using bounded (some 0) none n
  · intro bounded lock unlock n
    rw [writeCalls, writeRounds, List.length_map]
    split
    · exact bounded n
    · exact Nat.zero_le bound

/-- A peer with room has taken a message of so many bytes after as many data RPCs. -/
theorem leftAfter_room (room : 0 < v.maxRecvSize.toNat) (len : ℕ) (acks : ℕ → Ack) (n : ℕ) :
    leftAfter v.maxRecvSize.toNat len acks n ≤ len - n := by
  induction n with
  | zero => exact le_rfl
  | succ n ih =>
    rcases Nat.eq_zero_or_pos (leftAfter v.maxRecvSize.toNat len acks n) with none | some
    · rw [leftAfter, none]
      simp
    · have less := leftAfter_lt room some
      omega

/-- Against a peer whose sizes are not moderate the bytes left to send become more. -/
theorem Progresses.moderate (small : (len : Int) ≤ intMax)
    (progresses : Progresses v core len acks) : ModerateSizes v len acks := by
  by_contra excessive
  have reached : ∃ n, Unfinished v len acks n ∧
      leftAfter v.maxRecvSize.toNat len acks n + 2 ^ 31 < (acks n).size.toNat := by
    simpa [ModerateSizes] using excessive
  -- The first excessive size makes the count go up.
  have first := Nat.find_spec reached
  have earlier : ∀ k < Nat.find reached, Unfinished v len acks k ∧
      (acks k).size.toNat ≤ leftAfter v.maxRecvSize.toNat len acks k + 2 ^ 31 := by
    intro k less
    have unfinished := first.1.before less.le
    exact ⟨unfinished, Nat.not_lt.mp fun more => Nat.find_min reached less ⟨unfinished, more⟩⟩
  obtain ⟨reaches, inStep⟩ := inStep_after v core small earlier
  have running := (inStep.running_iff core fun k less => (earlier k less).1).mpr first.1
  have shrinks := progresses.shrinks (Nat.find reached) (by
    intro k below
    rcases Nat.lt_or_eq_of_le (Nat.le_of_lt_succ below) with less | rfl
    · exact reaches k less
    · exact running)
  have grows := inStep.grows core small (first.1 _ le_rfl).1 first.2
  exact absurd shrinks (Int.not_le.mpr grows)

/-- Against a peer whose sizes are moderate they never do. -/
theorem ModerateSizes.shrinks (small : (len : Int) ≤ intMax) (moderate : ModerateSizes v len acks)
    (reaches : (writeLoop v core).Reaches (writeStart v len) (exchangesOf acks) (n + 1)) :
    ((writeLoop v core).after (writeStart v len) (exchangesOf acks) (n + 1)).len ≤
      ((writeLoop v core).after (writeStart v len) (exchangesOf acks) n).len := by
  have unfinished := unfinished_of_reaches small moderate reaches
  have moderate := fun k (below : k < n + 1) =>
    And.intro (unfinished k below) (moderate k (unfinished k below))
  have now := (inStep_after v core small fun k below =>
    moderate k (Nat.lt_succ_of_lt below)).2
  have next := (inStep_after v core small moderate).2
  have some := (unfinished n (Nat.lt_succ_self n) n le_rfl).1
  have fewer : leftAfter v.maxRecvSize.toNat len acks (n + 1) ≤
      leftAfter v.maxRecvSize.toNat len acks n := Nat.sub_le _ _
  rw [now.left some]
  rcases Nat.eq_zero_or_pos (leftAfter v.maxRecvSize.toNat len acks (n + 1)) with all | rest
  · have empty := next.none all
    omega
  · rw [next.left rest]
    exact Int.ofNat_le.mpr fewer

/-- The write loop makes progress against a peer that acknowledges every data RPC exactly when the
sizes are moderate, and the peer has room, or takes the message or uses up the time without. -/
theorem vxi11Write_progresses_iff (v : Device) (core : Client) (len : ℕ)
    (small : (len : Int) ≤ intMax) (acks : ℕ → Ack) :
    Progresses v core len acks ↔ ModerateSizes v len acks ∧
      (0 < v.maxRecvSize ∨ ∃ n ≤ len, ¬Unfinished v len acks n) := by
  have finishes : 0 < v.maxRecvSize → ∃ n ≤ len, ¬Unfinished v len acks n := by
    intro room
    refine ⟨len, le_rfl, fun unfinished => ?_⟩
    have taken := leftAfter_room (UInt64.lt_iff_toNat_lt.mp room) len acks len
    have some := (unfinished len le_rfl).1
    omega
  have second : (0 < v.maxRecvSize ∨ ∃ n ≤ len, ¬Unfinished v len acks n) ↔
      ∃ n ≤ len, ¬Unfinished v len acks n := or_iff_right_of_imp finishes
  rw [second]
  constructor
  · intro progresses
    have moderate := progresses.moderate small
    exact ⟨moderate, (stops_iff_finished small moderate len).mp
      ((writeCalls_bounded_iff v core len len acks).mp progresses.ends)⟩
  · intro ⟨moderate, finished⟩
    constructor
    · exact fun n reaches => moderate.shrinks small reaches
    · exact (writeCalls_bounded_iff v core len len acks).mpr
        ((stops_iff_finished small moderate len).mpr finished)

end

/-- A device that acknowledges so many bytes with every data RPC, at once. -/
def always (size : UInt32) : ℕ → Ack := fun _ => ⟨⟨0, 0⟩, ⟨0, 0⟩, size⟩

/-- A device with room for two bytes that takes one at a time takes a message of three. -/
theorem vxi11Write_progresses_three : Progresses (linked 2) 1 3 (always 1) := by
  have moderate : ModerateSizes (linked 2) 3 (always 1) := by
    intro n _
    change (1 : UInt32).toNat ≤ _
    have one : (1 : UInt32).toNat = 1 := rfl
    omega
  exact (vxi11Write_progresses_iff (linked 2) 1 3 (by decide) (always 1)).mpr
    ⟨moderate, .inl (by decide)⟩

/-- A device that acknowledges all ones makes one byte left into two; a device with room for
nothing that acknowledges nothing is sent three data RPCs for one byte, and no end in sight. -/
theorem vxi11Write_goes_on :
    ¬Progresses (linked 1024) 1 1 (always 0xffffffff) ∧ ¬Progresses (linked 0) 1 1 (always 0) := by
  constructor
  · intro progresses
    have shrinks := progresses.shrinks 0 (by
      intro k below
      have first : k = 0 := by omega
      subst first
      decide)
    exact absurd shrinks (by decide)
  · intro progresses
    exact absurd (progresses.ends none none 2) (by decide)

end GpibUtils.Vxi11
