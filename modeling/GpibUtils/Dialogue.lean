import Mathlib.Data.List.Basic
import Mathlib.Data.Nat.Find
import Mathlib.Order.Basic

/-!
# Loops that exchange with a peer

A request loop repeats one exchange while its state says so: it sends a request computed
from the state, takes what the peer answers, and computes the next state. The peer is the
list of what it answers, in order; a peer that has answered everything in its list stays
silent, and silence ends the loop. So every list describes a run that returns, and every
prefix of an unbounded conversation is the prefix of such a run.

A run is the list of its rounds, each the state in which a request was issued with what the
peer answered. Facts about the requests of a run are facts about its rounds, stated for
every way of splitting them into the rounds before, one round, and the rounds after.
-/

namespace Dialogue

/-- A loop of exchanges over states `σ` and answers `ξ`. -/
structure Loop (σ ξ : Type) where
  /-- The loop condition. -/
  running : σ → Bool
  /-- One pass through the loop body. -/
  next : σ → ξ → σ
  /-- What a request meets when the peer has nothing left to say. -/
  silence : ξ
  /-- A request left unanswered is the last one. -/
  silence_stops : ∀ state, running (next state silence) = false

namespace Loop

variable {σ ξ τ η : Type} (loop : Loop σ ξ)

/-- The rounds of a run, in order. -/
def rounds (state : σ) : List ξ → List (σ × ξ)
  | [] => if loop.running state then [(state, loop.silence)] else []
  | answer :: answers =>
    if loop.running state then (state, answer) :: rounds (loop.next state answer) answers
    else []

/-- The state in which a run ends. -/
def final (state : σ) : List ξ → σ
  | [] => if loop.running state then loop.next state loop.silence else state
  | answer :: answers =>
    if loop.running state then final (loop.next state answer) answers else state

variable {loop} {state : σ} {answers : List ξ}

/-- A loop whose condition fails makes no round. -/
theorem rounds_stopped (stopped : loop.running state = false) :
    loop.rounds state answers = [] := by
  cases answers <;> simp [rounds, stopped]

/-- A loop whose condition fails ends where it starts. -/
theorem final_stopped (stopped : loop.running state = false) :
    loop.final state answers = state := by
  cases answers <;> simp [final, stopped]

/-- A running loop makes a round with the first answer, or with silence. -/
theorem rounds_running (running : loop.running state = true) :
    loop.rounds state answers = (state, answers.headD loop.silence) ::
      loop.rounds (loop.next state (answers.headD loop.silence)) answers.tail := by
  cases answers with
  | nil => simp [rounds, running, loop.silence_stops]
  | cons answer answers => simp [rounds, running]

/-- A running loop ends where its next state ends. -/
theorem final_running (running : loop.running state = true) :
    loop.final state answers =
      loop.final (loop.next state (answers.headD loop.silence)) answers.tail := by
  cases answers with
  | nil => simp [final, running, loop.silence_stops]
  | cons answer answers => simp [final, running]

/-- The condition fails where a run ends. -/
theorem running_final : loop.running (loop.final state answers) = false := by
  induction answers generalizing state with
  | nil =>
    cases running : loop.running state with
    | true => simp [final, running, loop.silence_stops]
    | false => simp [final, running]
  | cons answer answers ih =>
    cases running : loop.running state with
    | true => simpa [final, running] using ih
    | false => simp [final, running]

/-- No round is made exactly when the condition fails at the start. -/
theorem rounds_eq_nil_iff : loop.rounds state answers = [] ↔ loop.running state = false := by
  cases running : loop.running state with
  | true => simp [rounds_running running]
  | false => simp [rounds_stopped running]

/-- An invariant of the history: it relates the rounds made so far to the state they lead to. -/
structure HistoryInvariant (loop : Loop σ ξ) (inv : List (σ × ξ) → σ → Prop) : Prop where
  /-- One pass through the body keeps it. -/
  step : ∀ past state answer, inv past state → loop.running state = true →
    inv (past ++ [(state, answer)]) (loop.next state answer)

/-- A history invariant that holds before the loop holds of all its rounds at its end. -/
theorem HistoryInvariant.final {inv : List (σ × ξ) → σ → Prop} (keeps : HistoryInvariant loop inv)
    {past : List (σ × ξ)} (start : inv past state) (answers : List ξ) :
    inv (past ++ loop.rounds state answers) (loop.final state answers) := by
  induction answers generalizing past state with
  | nil =>
    cases running : loop.running state with
    | true => simpa [rounds, Loop.final, running] using keeps.step _ _ _ start running
    | false => simpa [rounds, Loop.final, running] using start
  | cons answer answers ih =>
    cases running : loop.running state with
    | true =>
      simpa [rounds, Loop.final, running] using ih (keeps.step _ _ answer start running)
    | false => simpa [rounds, Loop.final, running] using start

/-- Each round of a run is issued from a running state, and the rounds after it are those of
the run from its next state. -/
theorem rounds_split {before after : List (σ × ξ)} {round : σ × ξ}
    (split : loop.rounds state answers = before ++ round :: after) :
    loop.running round.1 = true ∧ ∃ later,
      after = loop.rounds (loop.next round.1 round.2) later ∧
      loop.final state answers = loop.final (loop.next round.1 round.2) later := by
  induction before generalizing state answers with
  | nil =>
    cases running : loop.running state with
    | true =>
      rw [rounds_running running, List.nil_append, List.cons.injEq] at split
      obtain ⟨rfl, rfl⟩ := split
      exact ⟨running, _, rfl, final_running running⟩
    | false => simp [rounds_stopped running] at split
  | cons first before ih =>
    cases running : loop.running state with
    | true =>
      rw [rounds_running running, List.cons_append, List.cons.injEq] at split
      rw [final_running running]
      exact ih split.2
    | false => simp [rounds_stopped running] at split

/-- A round is the last one exactly when the loop condition fails after it. -/
theorem rounds_split_last {before after : List (σ × ξ)} {round : σ × ξ}
    (split : loop.rounds state answers = before ++ round :: after) :
    after = [] ↔ loop.running (loop.next round.1 round.2) = false := by
  obtain ⟨_, later, rfl, _⟩ := rounds_split split
  exact rounds_eq_nil_iff

/-- A history invariant holds at every round, of the rounds before it. -/
theorem HistoryInvariant.round {inv : List (σ × ξ) → σ → Prop}
    (keeps : HistoryInvariant loop inv) {past : List (σ × ξ)} (start : inv past state)
    {before after : List (σ × ξ)} {round : σ × ξ}
    (split : loop.rounds state answers = before ++ round :: after) :
    inv (past ++ before) round.1 := by
  induction before generalizing past state answers with
  | nil =>
    cases running : loop.running state with
    | true =>
      rw [rounds_running running, List.nil_append, List.cons.injEq] at split
      obtain ⟨rfl, rfl⟩ := split
      simpa using start
    | false => simp [rounds_stopped running] at split
  | cons first before ih =>
    cases running : loop.running state with
    | true =>
      rw [rounds_running running, List.cons_append, List.cons.injEq] at split
      obtain ⟨rfl, rest⟩ := split
      simpa using ih (keeps.step _ _ _ start running) rest
    | false => simp [rounds_stopped running] at split

/-- A projection of one loop onto another: states map to states and each round's answer to
an answer, so that the two loops stop together and step together. -/
structure Projection (loop : Loop σ ξ) (onto : Loop τ ξ) where
  /-- The state kept. -/
  state : σ → τ
  /-- Both conditions agree. -/
  running : ∀ s, onto.running (state s) = loop.running s
  /-- Both bodies agree where they run. -/
  next : ∀ s x, loop.running s = true → onto.next (state s) x = state (loop.next s x)
  /-- Both peers fall silent the same way. -/
  silence : onto.silence = loop.silence

/-- A projected loop makes the projected rounds. -/
theorem Projection.rounds {onto : Loop τ ξ} (proj : Projection loop onto) (state : σ)
    (answers : List ξ) :
    onto.rounds (proj.state state) answers =
      (loop.rounds state answers).map fun round => (proj.state round.1, round.2) := by
  induction answers generalizing state with
  | nil => simp [Loop.rounds, proj.running, proj.silence, apply_ite (List.map _)]
  | cons answer answers ih =>
    cases running : loop.running state with
    | true => simp [Loop.rounds, proj.running, running, proj.next state answer running, ih]
    | false => simp [Loop.rounds, proj.running, running]

/-- A projected loop ends in the projected state. -/
theorem Projection.final {onto : Loop τ ξ} (proj : Projection loop onto) (state : σ)
    (answers : List ξ) :
    onto.final (proj.state state) answers = proj.state (loop.final state answers) := by
  induction answers generalizing state with
  | nil =>
    cases running : loop.running state with
    | true => simp [Loop.final, proj.running, running, proj.silence, proj.next state _ running]
    | false => simp [Loop.final, proj.running, running]
  | cons answer answers ih =>
    cases running : loop.running state with
    | true => simp [Loop.final, proj.running, running, proj.next state answer running, ih]
    | false => simp [Loop.final, proj.running, running]

/-! ## Errors -/

/-- The first error in a list, zero when there is none. -/
def firstError {ε : Type} [Zero ε] [DecidableEq ε] (errors : List ε) : ε :=
  (errors.find? fun error => decide (error ≠ 0)).getD 0

section
variable {ε : Type} [Zero ε] [DecidableEq ε]

@[simp] theorem firstError_nil : firstError ([] : List ε) = 0 := rfl

@[simp] theorem firstError_cons (error : ε) (later : List ε) :
    firstError (error :: later) = if error = 0 then firstError later else error := by
  by_cases zero : error = 0 <;> simp [firstError, zero]

/-- Errors after the first one do not count. -/
theorem firstError_append (earlier later : List ε) :
    firstError (earlier ++ later) =
      if firstError earlier = 0 then firstError later else firstError earlier := by
  induction earlier with
  | nil => simp
  | cons error earlier ih =>
    by_cases zero : error = 0
    · simp [zero, ih]
    · simp [zero]

/-- Errors that come in groups are told by the first error of each group. -/
theorem firstError_flatMap {α : Type} {group : α → List ε} {error : α → ε}
    (tells : ∀ item, firstError (group item) = error item) (items : List α) :
    firstError (items.flatMap group) = firstError (items.map error) := by
  induction items with
  | nil => rfl
  | cons item items ih =>
    rw [List.flatMap_cons, firstError_append, tells, List.map_cons, firstError_cons, ih]

end

/-- A loop that keeps an error in its state and runs only without one. -/
structure StopsOnError {ε : Type} [Zero ε] (loop : Loop σ ξ) (error : σ → ε)
    (fault : σ × ξ → ε) : Prop where
  /-- A running loop has met no error. -/
  running : ∀ state, loop.running state = true → error state = 0
  /-- A round leaves its own error. -/
  next : ∀ state answer, loop.running state = true →
    error (loop.next state answer) = fault (state, answer)

/-- Such a loop ends with the first error of its rounds. -/
theorem StopsOnError.final {ε : Type} [Zero ε] [DecidableEq ε] {error : σ → ε}
    {fault : σ × ξ → ε} (stops : StopsOnError loop error fault) (good : error state = 0)
    (answers : List ξ) :
    error (loop.final state answers) = firstError ((loop.rounds state answers).map fault) := by
  have keeps : loop.HistoryInvariant fun past state =>
      error state = firstError (past.map fault) := {
    step := by
      intro past state answer held running
      have earlier : firstError (past.map fault) = 0 := held ▸ stops.running state running
      rw [stops.next state answer running, List.map_append, List.map_singleton,
        firstError_append, if_pos earlier, firstError_cons, firstError_nil]
      split
      · assumption
      · rfl }
  have start : error state = firstError (([] : List (σ × ξ)).map fault) := by
    simpa [firstError] using good
  simpa using keeps.final start answers

/-! ## Unbounded conversations -/

/-- The state after some passes through the body, whatever the condition says on the way. -/
def after (loop : Loop σ ξ) (state : σ) (stream : ℕ → ξ) : ℕ → σ
  | 0 => state
  | n + 1 => loop.next (after loop state stream n) (stream n)

/-- The condition holds before each of the first passes. -/
def Reaches (loop : Loop σ ξ) (state : σ) (stream : ℕ → ξ) (n : ℕ) : Prop :=
  ∀ k < n, loop.running (loop.after state stream k) = true

/-- The conversation with the first answers of a stream. -/
def firstOf (stream : ℕ → ξ) (n : ℕ) : List ξ := (List.range n).map stream

/-- The first pass of a stream leads to the passes of the rest of the stream. -/
theorem after_succ (state : σ) (stream : ℕ → ξ) (n : ℕ) :
    loop.after state stream (n + 1) =
      loop.after (loop.next state (stream 0)) (fun k => stream (k + 1)) n := by
  induction n with
  | zero => rfl
  | succ n ih => rw [after, ih, after]

/-- The first answer of a stream comes before the first answers of its rest. -/
theorem firstOf_cons (stream : ℕ → ξ) (n : ℕ) :
    firstOf stream (n + 1) = stream 0 :: firstOf (fun k => stream (k + 1)) n := by
  simp [firstOf, List.range_succ_eq_map]

/-- A loop whose condition holds before each of the first passes makes a round in each, and one
more, unanswered, if it holds after them. -/
theorem length_rounds_reaches {stream : ℕ → ξ} {n : ℕ} (reaches : loop.Reaches state stream n) :
    (loop.rounds state (firstOf stream n)).length =
      if loop.running (loop.after state stream n) then n + 1 else n := by
  induction n generalizing state stream with
  | zero =>
    rw [firstOf, List.range_zero, List.map_nil, rounds, after]
    split <;> rfl
  | succ n ih =>
    have first : loop.running state = true := reaches 0 (Nat.zero_lt_succ n)
    have later : loop.Reaches (loop.next state (stream 0)) (fun k => stream (k + 1)) n := by
      intro k below
      rw [← after_succ]
      exact reaches (k + 1) (Nat.succ_lt_succ below)
    rw [firstOf_cons, rounds, if_pos first, List.length_cons, ih later, after_succ]
    split <;> rfl

/-- A loop that stops after some passes makes no round with later answers. -/
theorem rounds_stopped_stream {stream : ℕ → ξ} {n k : ℕ}
    (stopped : loop.running (loop.after state stream n) = false) (more : n ≤ k) :
    loop.rounds state (firstOf stream k) = loop.rounds state (firstOf stream n) := by
  induction n generalizing state stream k with
  | zero =>
    change loop.running state = false at stopped
    rw [rounds_stopped stopped, rounds_stopped stopped]
  | succ n ih =>
    cases k with
    | zero => exact absurd more (Nat.not_succ_le_zero n)
    | succ k =>
      rw [after_succ] at stopped
      rw [firstOf_cons, firstOf_cons, rounds, rounds, ih stopped (Nat.le_of_succ_le_succ more)]

/-- A loop makes a bounded number of rounds, however long the conversation, exactly when its
condition fails within so many passes. -/
theorem rounds_bounded_iff {stream : ℕ → ξ} {bound : ℕ} :
    (∀ n, (loop.rounds state (firstOf stream n)).length ≤ bound) ↔
      ∃ n ≤ bound, loop.running (loop.after state stream n) = false := by
  constructor
  · intro bounded
    by_contra goesOn
    have running : ∀ n ≤ bound, loop.running (loop.after state stream n) = true := by
      intro n small
      by_contra stopped
      exact goesOn ⟨n, small, by simpa using stopped⟩
    have reaches : loop.Reaches state stream bound := fun k below => running k below.le
    have rounds := bounded bound
    rw [length_rounds_reaches reaches, if_pos (running bound le_rfl)] at rounds
    omega
  · intro ⟨last, small, stopped⟩ n
    have ends : ∃ n, loop.running (loop.after state stream n) = false := ⟨last, stopped⟩
    -- The first pass after which the condition fails bounds every conversation.
    have first := Nat.find_spec ends
    have least : Nat.find ends ≤ last := Nat.find_min' ends stopped
    have before : ∀ k < Nat.find ends, loop.running (loop.after state stream k) = true := by
      intro k below
      simpa using Nat.find_min ends below
    rcases Nat.lt_or_ge n (Nat.find ends) with short | long
    · have reaches : loop.Reaches state stream n := fun k below => before k (below.trans short)
      rw [length_rounds_reaches reaches, if_pos (before n short)]
      omega
    · have reaches : loop.Reaches state stream (Nat.find ends) := before
      rw [rounds_stopped_stream first long, length_rounds_reaches reaches, first]
      simp only [Bool.false_eq_true, ↓reduceIte]
      omega

end Loop

/-- A fact about every split of a nonempty list: about its head, and about every split of its
tail with the head put back in front. -/
theorem forall_split_cons {α : Type} {head : α} {tail : List α}
    {fact : List α → α → List α → Prop} :
    (∀ before item after, head :: tail = before ++ item :: after → fact before item after) ↔
      fact [] head tail ∧
      ∀ before item after, tail = before ++ item :: after → fact (head :: before) item after := by
  constructor
  · intro all
    exact ⟨all [] head tail rfl,
      fun before item after split => all (head :: before) item after (by rw [split]; rfl)⟩
  · rintro ⟨first, rest⟩ before item after split
    cases before with
    | nil =>
      rw [List.nil_append, List.cons.injEq] at split
      obtain ⟨rfl, rfl⟩ := split
      exact first
    | cons other before =>
      rw [List.cons_append, List.cons.injEq] at split
      obtain ⟨rfl, split⟩ := split
      exact rest before item after split

end Dialogue
