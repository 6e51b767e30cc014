import GpibUtils.Interaction
import GpibUtils.Runs
import Mathlib.Data.List.Basic

/-!
# Operations and serial polls

The operations of `inst.c` do their input and output and then poll the instrument: while it has
more status bytes, or the application's callback asks for another try, the callback is handed
the next status byte. The callback may itself call operations of the same instrument, which poll
in turn; a counter in the instrument keeps that from calling the callback again
(`instOp_polls`).

What the instrument answers may depend on all that has happened, and so may what the callback
does; the events of a run are kept in a trace.
-/

namespace GpibUtils.Inst

open Interaction Runs

/-! ## The code -/

/-- `contype_t` -/
inductive Contype where
  | gpib
  | vxi11
  | serial
  | socket
  deriving DecidableEq

/-- One exchange with an instrument. -/
inductive IoStep where
  | read (len : Int)
  | write (bytes : List UInt8)
  | loc
  | clr
  | trg
  /-- A pause, of so many microseconds. -/
  | usleep (usec : Nat)
  deriving DecidableEq

/-- A call of an operation, as far as its exchanges go. `inst_qrystr` and `inst_qryint` are calls
of `inst_qry`. -/
inductive InstOp where
  | rd (len : Int)
  | rdstr (len : Int)
  | rdf
  | wrt (buf : List UInt8)
  | wrtstr (str : List UInt8)
  | wrtf (str : List UInt8)
  | qry (str : List UInt8) (len : Int)
  | loc
  | clr (usec : Nat)
  | trg
  | rsp
  deriving DecidableEq

/-- What an operation gives its caller: bytes that were read, or a status byte and whether there
are more. -/
inductive Answer where
  | bytes (data : List UInt8)
  | status (sb : UInt8) (more : Bool)
  deriving DecidableEq

/-- The exchanges of an operation. -/
def InstOp.steps : InstOp → List IoStep
  | .rd len => [.read len]
  | .rdstr len => [.read (len - 1)]
  | .rdf => [.read 1023]
  | .wrt buf => [.write buf]
  | .wrtstr str => [.write str]
  | .wrtf str => [.write str]
  | .qry str len => [.write str, .read len]
  | .loc => [.loc]
  | .clr usec => [.clr, .usleep usec]
  | .trg => [.trg]
  | .rsp => []

/-- The name an operation gives the poll that follows it; `inst_rsp` does not poll. -/
def InstOp.label : InstOp → Option String
  | .rd _ => some "gpib_rd"
  | .rdstr _ => some "gpib_rdstr"
  | .rdf => some "gpib_rdf"
  | .wrt _ => some "gpib_wrt"
  | .wrtstr _ => some "gpib_wrtstr"
  | .wrtf _ => some "gpib_wrtf"
  | .qry _ _ => some "gpib_qry"
  | .loc => some "gpib_loc"
  | .clr _ => some "gpib_clr"
  | .trg => some "gpib_trg"
  | .rsp => none

/-- Something that happens in a run. -/
inductive Event where
  /-- An exchange that went well, or one that did not. -/
  | io (step : IoStep) (ok : Bool)
  /-- A pause. -/
  | slept (usec : Nat)
  /-- `inst_rsp` returns. -/
  | rsp (sb : UInt8) (more : Bool)
  /-- `inst_rsp` fails. -/
  | rspFailed
  /-- The callback is called. -/
  | call (sb : UInt8) (str : String)
  /-- The callback returns. -/
  | back (err : Int)
  /-- `inst_fini` -/
  | fini
  deriving DecidableEq

/-- An instrument in use: `sf_level`, and what has happened. -/
structure Machine where
  level : Int
  trace : List Event

/-- Something happens. -/
def Machine.log (m : Machine) (events : List Event) : Machine :=
  { m with trace := m.trace ++ events }

/-- What the instrument answers, after what has happened: to an exchange, and to a serial poll;
`none` is a failure. -/
structure Surface where
  io : List Event → IoStep → Option (List UInt8)
  rsp : List Event → Option (UInt8 × Bool)

/-- `spollfun_t`: what the callback does, after what has happened, for a status byte and the name
of the operation. -/
abbrev Spollfun := List Event → UInt8 → String → Program InstOp (fun _ => Answer) Int

/-- The fields of an instrument that its operations read. -/
structure Instrument where
  contype : Contype
  sfFun : Option Spollfun
  sfRetry : Nat

/-- An exchange that a transport does not have. -/
def IoStep.absent : Contype → IoStep → Bool
  | .serial, .loc | .serial, .clr | .serial, .trg => true
  | .socket, .loc | .socket, .clr | .socket, .trg => true
  | _, _ => false

/-- A failed exchange is followed by `inst_fini`, except in two places. -/
def IoStep.finalises : Contype → IoStep → Bool
  | .vxi11, .loc | .vxi11, .clr => false
  | _, _ => true

/-- One exchange. -/
def ioStep (gd : Instrument) (surface : Surface) (step : IoStep) (m : Machine) :
    Outcome Machine (List UInt8) :=
  match step with
  | .usleep usec => .done [] (m.log [.slept usec])
  | step =>
    if step.absent gd.contype then .done [] m
    else
      match surface.io m.trace step with
      | none =>
        .exited 1 (m.log (.io step false :: if step.finalises gd.contype then [.fini] else []))
      | some bytes => .done bytes (m.log [.io step true])

/-- Some exchanges in order; the bytes are those of the last. -/
def ioSteps (gd : Instrument) (surface : Surface) :
    List IoStep → List UInt8 → Machine → Outcome Machine (List UInt8)
  | [], bytes, m => .done bytes m
  | step :: later, _, m =>
    (ioStep gd surface step m).bind fun bytes m => ioSteps gd surface later bytes m

/-- `inst_rsp`. Only a GPIB driver says that there are more status bytes. -/
def instRsp (gd : Instrument) (surface : Surface) (m : Machine) :
    Outcome Machine (UInt8 × Bool) :=
  match gd.contype with
  | .gpib =>
    match surface.rsp m.trace with
    | none => .exited 1 (m.log [.rspFailed, .fini])
    | some (sb, more) => .done (sb, more) (m.log [.rsp sb more])
  | .vxi11 =>
    match surface.rsp m.trace with
    | none => .exited 1 (m.log [.rspFailed])
    | some (sb, _) => .done (sb, false) (m.log [.rsp sb false])
  | _ => .done (0, false) (m.log [.rsp 0 false])

/-- What `_serial_poll` makes of the callback's result: `again` is another round, after so many that
asked for a pause. -/
def afterCallback (gd : Instrument) (again : (loops : Nat) → Machine → Outcome Machine Unit)
    (loops : Nat) (more : Bool) (err : Int) (m : Machine) : Outcome Machine Unit :=
  let m := m.log [.back err]
  if err = -1 then again (loops + 1) (m.log [.slept ((loops + 1) * gd.sfRetry)])
  else if err = 0 then if more then again loops m else .done () m
  else .exited err (m.log [.fini])

/-- The loop of `_serial_poll`, for at most so many rounds; `perform` is what the callback's
operations do. -/
def pollLoop (gd : Instrument) (surface : Surface)
    (perform : InstOp → Machine → Outcome Machine Answer) (sfFun : Spollfun) (str : String) :
    (rounds : Nat) → (loops : Nat) → Machine → Outcome Machine Unit
  | 0, _, m => .unfinished m
  | rounds + 1, loops, m =>
    (instRsp gd surface m).bind fun (sb, more) m =>
      ((sfFun m.trace sb str).run perform (m.log [.call sb str])).bind
        (afterCallback gd (pollLoop gd surface perform sfFun str rounds) loops more)

/-- `_serial_poll` -/
def serialPoll (gd : Instrument) (surface : Surface)
    (perform : InstOp → Machine → Outcome Machine Answer) (rounds : Nat) (str : String)
    (m : Machine) : Outcome Machine Unit :=
  let m := { m with level := m.level + 1 }
  let polled : Outcome Machine Unit :=
    match gd.sfFun with
    | some sfFun =>
      if m.level = 1 then pollLoop gd surface perform sfFun str rounds 0 m else .done () m
    | none => .done () m
  polled.bind fun _ m => .done () { m with level := m.level - 1 }

/-- An operation, where calls may nest so deep and each poll goes on for at most so many
rounds. -/
def instOp (gd : Instrument) (surface : Surface) (rounds : Nat) :
    (depth : Nat) → InstOp → Machine → Outcome Machine Answer
  | 0, _, m => .unfinished m
  | depth + 1, op, m =>
    match op.label with
    | none => (instRsp gd surface m).bind fun (sb, more) m => .done (.status sb more) m
    | some str =>
      (ioSteps gd surface op.steps [] m).bind fun bytes m =>
        (serialPoll gd surface (instOp gd surface rounds depth) rounds str m).bind fun _ m =>
          .done (.bytes bytes) m

/-! ## Nested operations -/

/-- None of these events is a call of the callback or its return. -/
def Quiet (events : List Event) : Prop :=
  ∀ event ∈ events, (∀ sb str, event ≠ .call sb str) ∧ ∀ err, event ≠ .back err

/-- A machine goes on to another without a call of the callback. -/
def Extends (m n : Machine) : Prop := ∃ events, Quiet events ∧ n.trace = m.trace ++ events

/-- A machine goes on to another without a call of the callback, and with the same level. -/
def Continues (m n : Machine) : Prop := n.level = m.level ∧ Extends m n

/-- Two quiet stretches are a quiet one. -/
theorem Quiet.append {first later : List Event} (quiet : Quiet first) (rest : Quiet later) :
    Quiet (first ++ later) := by
  intro event member
  rcases List.mem_append.mp member with early | late
  · exact quiet event early
  · exact rest event late

/-- A machine goes on to itself. -/
theorem Continues.refl (m : Machine) : Continues m m :=
  ⟨rfl, [], fun _ member => absurd member List.not_mem_nil, (List.append_nil _).symm⟩

/-- What goes on twice goes on. -/
theorem Extends.trans {l m n : Machine} (first : Extends l m) (later : Extends m n) :
    Extends l n := by
  obtain ⟨events, quiet, trace⟩ := first
  obtain ⟨more, rest, trace'⟩ := later
  exact ⟨events ++ more, quiet.append rest, by rw [trace', trace, List.append_assoc]⟩

/-- So it does with the level kept. -/
theorem Continues.trans {l m n : Machine} (first : Continues l m) (later : Continues m n) :
    Continues l n := ⟨later.1.trans first.1, first.2.trans later.2⟩

/-- Events other than those of the callback go on quietly. -/
theorem continues_log (m : Machine) {events : List Event} (quiet : Quiet events) :
    Continues m (m.log events) := ⟨rfl, events, quiet, rfl⟩

/-- What a call that has nothing to do with the callback comes to: it returns with the level kept,
or it ends the process. -/
def Settles {α : Type} (m : Machine) (outcome : Outcome Machine α) : Prop :=
  outcome.Meets (fun _ n => Continues m n) (fun _ n => Extends m n) fun _ => False

/-- Two such calls one after the other. -/
theorem Settles.bind {α β : Type} {m : Machine} {first : Outcome Machine α}
    {next : α → Machine → Outcome Machine β} (settles : Settles m first)
    (rest : ∀ value n, Settles n (next value n)) : Settles m (first.bind next) := by
  apply Outcome.Meets.bind settles
  intro value n between
  apply (rest value n).mono
  · exact fun _ _ => between.trans
  · exact fun _ _ => between.2.trans
  · exact fun _ => id

section
variable {gd : Instrument} {surface : Surface} {rounds depth : Nat} {m : Machine}

/-- An exchange has nothing to do with the callback. -/
theorem ioStep_settles (step : IoStep) (m : Machine) : Settles m (ioStep gd surface step m) := by
  have absent : Settles m (if step.absent gd.contype then (.done [] m : Outcome Machine _)
      else match surface.io m.trace step with
        | none =>
          .exited 1 (m.log (.io step false :: if step.finalises gd.contype then [.fini] else []))
        | some bytes => .done bytes (m.log [.io step true])) := by
    split
    · exact Continues.refl m
    · split
      · apply (continues_log m ?_).2
        split <;> simp [Quiet]
      · exact continues_log m (by simp [Quiet])
  cases step with
  | usleep usec => exact continues_log m (by simp [Quiet])
  | read len => exact absent
  | write bytes => exact absent
  | loc => exact absent
  | clr => exact absent
  | trg => exact absent

/-- Nor have several. -/
theorem ioSteps_settles (steps : List IoStep) (bytes : List UInt8) (m : Machine) :
    Settles m (ioSteps gd surface steps bytes m) := by
  induction steps generalizing bytes m with
  | nil => exact Continues.refl m
  | cons step later ih => exact (ioStep_settles step m).bind fun bytes n => ih bytes n

/-- What a serial poll of the instrument returns is in the trace. -/
theorem instRsp_meets (gd : Instrument) (surface : Surface) (m : Machine) :
    (instRsp gd surface m).Meets (fun answer n => n = m.log [.rsp answer.1 answer.2])
      (fun _ n => Extends m n) fun _ => False := by
  unfold instRsp
  split
  · split
    · exact (continues_log m (by simp [Quiet])).2
    · rfl
  · split
    · exact (continues_log m (by simp [Quiet])).2
    · rfl
  · rfl

/-- A serial poll of the instrument has nothing to do with the callback. -/
theorem instRsp_settles (m : Machine) : Settles m (instRsp gd surface m) := by
  apply (instRsp_meets gd surface m).mono
  · intro answer n logged
    rw [logged]
    exact continues_log m (by simp [Quiet])
  · exact fun _ _ => id
  · exact fun _ => id

/-- A poll in a place other than the outermost, or without a callback, does nothing. -/
theorem serialPoll_nested {perform : InstOp → Machine → Outcome Machine Answer} {str : String}
    (nested : m.level ≠ 0 ∨ gd.sfFun = none) :
    serialPoll gd surface perform rounds str m = .done () m := by
  unfold serialPoll
  cases callback : gd.sfFun with
  | none => simp [Outcome.bind]
  | some sfFun =>
    have inner : ¬m.level + 1 = 1 := by
      have nonzero := nested.resolve_right (by simp [callback])
      omega
    simp [Outcome.bind, inner]

/-- An operation in a place other than the outermost, or without a callback, calls nothing, keeps
the level, and nests no further. -/
theorem instOp_nested (op : InstOp) (nested : m.level ≠ 0 ∨ gd.sfFun = none) :
    Settles m (instOp gd surface rounds (depth + 1) op m) := by
  unfold instOp
  split
  · exact (instRsp_settles m).bind fun answer n => Continues.refl n
  · rename_i str label
    apply Outcome.Meets.bind (ioSteps_settles op.steps [] m)
    intro bytes n between
    have still : n.level ≠ 0 ∨ gd.sfFun = none := by rwa [between.1]
    rw [serialPoll_nested still]
    exact between

/-- A program run in a place other than the outermost calls no callback and keeps the level. -/
theorem program_nested (program : Program InstOp (fun _ => Answer) Int) (nested : m.level ≠ 0) :
    Settles m (program.run (instOp gd surface rounds (depth + 1)) m) := by
  have each : ∀ op n, Continues m n → Settles m (instOp gd surface rounds (depth + 1) op n) := by
    intro op n between
    have inside : n.level ≠ 0 := by rwa [between.1]
    apply (instOp_nested op (.inl inside)).mono
    · exact fun _ _ => between.trans
    · exact fun _ _ => between.2.trans
    · exact fun _ => id
  exact program.run_keeps each (Continues.refl m)

end

/-! ## Polls -/

/-- One round of a poll: the status byte, whether there are more, what happens while the callback
runs, its result, and what happens after it. -/
structure Round where
  sb : UInt8
  more : Bool
  inner : List Event
  err : Int
  pause : List Event
  /-- The callback is not called while it runs. -/
  quietInner : Quiet inner
  /-- Nor after it returns. -/
  quietPause : Quiet pause

/-- The events of a round: `inst_rsp` returns a byte, the callback is called with it, and
returns. -/
def Round.events (str : String) (round : Round) : List Event :=
  .rsp round.sb round.more :: .call round.sb str :: round.inner ++ .back round.err :: round.pause

/-- There are more status bytes, or the callback asks for another try. -/
def Round.Again (round : Round) : Prop := round.more = true ∨ round.err = -1

/-- The callback finds no fault. -/
def Round.Fine (round : Round) : Prop := round.err = 0 ∨ round.err = -1

/-- What a poll works with: the instrument and its answers, what the callback's operations do, the
callback, the name of the operation, and the level while it polls. -/
structure Poller where
  gd : Instrument
  surface : Surface
  perform : InstOp → Machine → Outcome Machine Answer
  sfFun : Spollfun
  str : String
  level : Int

/-- `inst_rsp` has returned a status byte, and whether there are more, after some events. -/
def Poller.Answered (p : Poller) (before : List Event) (sb : UInt8) (more : Bool) : Prop :=
  instRsp p.gd p.surface ⟨p.level, before⟩ =
    .done (sb, more) ⟨p.level, before ++ [.rsp sb more]⟩

/-- What the callback comes to when it is called with a status byte after some events. -/
def Poller.called (p : Poller) (before : List Event) (sb : UInt8) (more : Bool) :
    Outcome Machine Int :=
  (p.sfFun (before ++ [.rsp sb more]) sb p.str).run p.perform
    ⟨p.level, before ++ [.rsp sb more] ++ [.call sb p.str]⟩

/-- A round is what has happened after some events: its status byte is what `inst_rsp` has returned,
and its result is what the callback has come to. -/
structure Poller.Told (p : Poller) (before : List Event) (round : Round) : Prop where
  answered : p.Answered before round.sb round.more
  result : ∃ m, p.called before round.sb round.more = .done round.err m ∧
    m.trace = before ++ .rsp round.sb round.more :: .call round.sb p.str :: round.inner

/-- How an operation that polls ends, after some rounds that went well and were each followed by
another. -/
inductive PollEnds {α : Type} (p : Poller) (level : Int) (before : List Event) :
    Outcome Machine α → Prop
  /-- It returns after a last round, with the level it began with. -/
  | returns (value : α) (m : Machine) (last : Round) (told : p.Told before last) (fine : last.Fine)
      (stops : ¬last.Again) (trace : m.trace = before ++ last.events p.str)
      (kept : m.level = level) : PollEnds p level before (.done value m)
  /-- The callback finds a fault, and its result is the status the program ends with. -/
  | fault (m : Machine) (last : Round) (told : p.Told before last) (bad : ¬last.Fine)
      (trace : m.trace = before ++ last.events p.str ++ [.fini]) :
      PollEnds p level before (.exited last.err m)
  /-- An operation of the callback ends the program. -/
  | inside (code : Int) (m : Machine) (sb : UInt8) (more : Bool) (inner : List Event)
      (answered : p.Answered before sb more) (ended : p.called before sb more = .exited code m)
      (quiet : Quiet inner)
      (trace : m.trace = before ++ .rsp sb more :: .call sb p.str :: inner) :
      PollEnds p level before (.exited code m)
  /-- An exchange or a serial poll fails and ends the program. -/
  | failed (code : Int) (m : Machine) (last : List Event) (quiet : Quiet last)
      (trace : m.trace = before ++ last) : PollEnds p level before (.exited code m)
  /-- It is still polling. -/
  | polling (m : Machine) (trace : m.trace = before) :
      PollEnds p level before (.unfinished m)

/-- An operation that polls: some rounds, at most so many, each of which went well and is followed
by another, and then its end; it is still polling only when the rounds allowed are used up. -/
def PollRuns {α : Type} (p : Poller) (level : Int) (start : List Event) (bound : Nat)
    (outcome : Outcome Machine α) : Prop :=
  ∃ rounds : List Round, (∀ round ∈ rounds, round.Again ∧ round.Fine) ∧
    Along (fun before round => before ++ round.events p.str) p.Told start rounds ∧
    PollEnds p level (start ++ rounds.flatMap (Round.events p.str)) outcome ∧
    rounds.length ≤ bound ∧ ∀ m, outcome = .unfinished m → rounds.length = bound

/-- A poll that ends without another round. -/
theorem PollEnds.runs {α : Type} {p : Poller} {level : Int} {start : List Event} {bound : Nat}
    {outcome : Outcome Machine α} (ends : PollEnds p level start outcome)
    (bounded : ∀ m, outcome = .unfinished m → bound = 0) :
    PollRuns p level start bound outcome :=
  ⟨[], fun _ member => absurd member List.not_mem_nil, trivial, by simpa using ends, Nat.zero_le _,
    fun m still => (bounded m still).symm⟩

/-- A round that is followed by others. -/
theorem PollRuns.cons {α : Type} {p : Poller} {level : Int} {start : List Event} {bound : Nat}
    {outcome : Outcome Machine α} (round : Round) (told : p.Told start round)
    (again : round.Again) (fine : round.Fine)
    (runs : PollRuns p level (start ++ round.events p.str) bound outcome) :
    PollRuns p level start (bound + 1) outcome := by
  obtain ⟨rounds, each, all, ends, within, still⟩ := runs
  refine ⟨round :: rounds, ?_, ⟨told, all⟩, ?_, ?_, ?_⟩
  · intro other member
    rcases List.mem_cons.mp member with rfl | later
    · exact ⟨again, fine⟩
    · exact each other later
  · rwa [List.flatMap_cons, ← List.append_assoc]
  · exact Nat.succ_le_succ within
  · intro m unfinished
    rw [List.length_cons, still m unfinished]

section
variable {gd : Instrument} {surface : Surface} {depth total : Nat} {m : Machine}

/-- A round in which the callback has returned, before others. -/
theorem afterCallback_runs {p : Poller} {again : Nat → Machine → Outcome Machine Unit}
    {start : List Event} {bound : Nat}
    (rest : ∀ loops n, n.level = m.level → PollRuns p m.level n.trace bound (again loops n))
    (loops : Nat) {sb : UInt8} {more : Bool} {inner : List Event} (quiet : Quiet inner) (err : Int)
    (answered : p.Answered start sb more) (result : p.called start sb more = .done err m)
    (told : m.trace = start ++ .rsp sb more :: .call sb p.str :: inner) :
    PollRuns p m.level start (bound + 1) (afterCallback p.gd again loops more err m) := by
  have none : Quiet [] := fun _ member => absurd member List.not_mem_nil
  let round : Round := ⟨sb, more, inner, err, [], quiet, none⟩
  have happened : p.Told start round := ⟨answered, m, result, told⟩
  have next : (m.log [.back err]).trace = start ++ round.events p.str := by
    simp [Machine.log, told, Round.events, round]
  unfold afterCallback
  split
  · rename_i retry
    -- The callback asks for another try, after a pause.
    let pause := [Event.slept ((loops + 1) * p.gd.sfRetry)]
    let paused : Round := ⟨sb, more, inner, err, pause, quiet, by simp [pause, Quiet]⟩
    have next : ((m.log [.back err]).log pause).trace = start ++ paused.events p.str := by
      simp [Machine.log, told, Round.events, paused]
    have later := rest (loops + 1) ((m.log [.back err]).log pause) rfl
    rw [next] at later
    exact later.cons paused ⟨answered, m, result, told⟩ (.inr retry) (.inr retry)
  · rename_i noRetry
    split
    · rename_i good
      cases left : more with
      | true =>
        -- There are more status bytes.
        have later := rest loops (m.log [.back err]) rfl
        rw [next] at later
        exact later.cons round happened (.inl left) (.inl good)
      | false =>
        have stops : ¬round.Again := by simp [Round.Again, round, left, noRetry]
        exact (PollEnds.returns () _ round happened (.inl good) stops next rfl).runs
          fun _ still => by cases still
    · rename_i bad
      have unfit : ¬round.Fine := by simp [Round.Fine, round, bad, noRetry]
      have last : ((m.log [.back err]).log [.fini]).trace =
          start ++ round.events p.str ++ [.fini] := by
        rw [← next]
        rfl
      exact (PollEnds.fault _ round happened unfit last).runs fun _ still => by cases still

/-- The loop of a poll. -/
theorem pollLoop_runs (sfFun : Spollfun) (str : String) (rounds loops : Nat)
    (nested : m.level ≠ 0) :
    PollRuns ⟨gd, surface, instOp gd surface total (depth + 1), sfFun, str, m.level⟩ m.level
      m.trace rounds
      (pollLoop gd surface (instOp gd surface total (depth + 1)) sfFun str rounds loops m) := by
  induction rounds generalizing loops m with
  | zero => exact (PollEnds.polling m rfl).runs fun _ _ => rfl
  | succ rounds ih =>
    rw [pollLoop]
    have answered := instRsp_meets gd surface m
    cases asked : instRsp gd surface m with
    | unfinished n => simp [asked, Outcome.Meets] at answered
    | exited code n =>
      simp only [asked, Outcome.Meets] at answered
      obtain ⟨last, quiet, trace⟩ := answered
      exact (PollEnds.failed code n last quiet trace).runs fun _ still => by cases still
    | done answer n =>
      simp only [asked, Outcome.Meets] at answered
      subst answered
      obtain ⟨sb, more⟩ := answer
      let p : Poller := ⟨gd, surface, instOp gd surface total (depth + 1), sfFun, str, m.level⟩
      have polled : p.Answered m.trace sb more := asked
      have inside : ((m.log [.rsp sb more]).log [.call sb str]).level ≠ 0 := nested
      have settles : Settles ((m.log [.rsp sb more]).log [.call sb str])
          (p.called m.trace sb more) := program_nested _ inside
      rw [Outcome.bind_done]
      change PollRuns p m.level m.trace (rounds + 1) ((p.called m.trace sb more).bind _)
      cases ran : p.called m.trace sb more with
      | unfinished n => simp [ran, Settles, Outcome.Meets] at settles
      | exited code n =>
        simp only [ran, Settles, Outcome.Meets] at settles
        obtain ⟨inner, quiet, trace⟩ := settles
        have told : n.trace = m.trace ++ .rsp sb more :: .call sb str :: inner := by
          simpa [Machine.log] using trace
        exact (PollEnds.inside code n sb more inner polled ran quiet told).runs
          fun _ still => by cases still
      | done err n =>
        simp only [ran, Settles, Outcome.Meets] at settles
        obtain ⟨level, inner, quiet, trace⟩ := settles
        have kept : n.level = m.level := level
        have told : n.trace = m.trace ++ .rsp sb more :: .call sb str :: inner := by
          simpa [Machine.log] using trace
        rw [Outcome.bind_done, ← kept]
        refine afterCallback_runs ?_ loops quiet err polled ran told
        intro loops l same
        have there : l.level ≠ 0 := by rwa [same, kept]
        have later := @ih l loops there
        rw [same, kept] at later
        rwa [kept]

/-- A step at the end that leaves the trace alone. -/
theorem PollRuns.bind {α β : Type} {p : Poller} {level kept : Int} {start : List Event}
    {bound : Nat} {outcome : Outcome Machine α} (runs : PollRuns p level start bound outcome)
    (value : α → β) (next : Machine → Machine) (trace : ∀ n, (next n).trace = n.trace)
    (levels : ∀ n, n.level = level → (next n).level = kept) :
    PollRuns p kept start bound (outcome.bind fun a n => .done (value a) (next n)) := by
  obtain ⟨rounds, each, all, ends, within, still⟩ := runs
  refine ⟨rounds, each, all, ?_, within, ?_⟩
  · cases ends with
    | returns a n last told fine stops logged same =>
      exact .returns (value a) (next n) last told fine stops ((trace n).trans logged)
        (levels n same)
    | fault n last told bad logged => exact .fault n last told bad logged
    | inside code n sb more inner answered ended quiet logged =>
      exact .inside code n sb more inner answered ended quiet logged
    | failed code n last quiet logged => exact .failed code n last quiet logged
    | polling n logged => exact .polling n logged
  · intro n unfinished
    cases outcome with
    | done a l => cases unfinished
    | exited code l => cases unfinished
    | unfinished l => exact still l rfl

/-- The outermost poll. -/
theorem serialPoll_runs {sfFun : Spollfun} (installed : gd.sfFun = some sfFun)
    (outermost : m.level = 0) (rounds : Nat) (str : String) :
    PollRuns ⟨gd, surface, instOp gd surface total (depth + 1), sfFun, str, 1⟩ 0 m.trace rounds
      (serialPoll gd surface (instOp gd surface total (depth + 1)) rounds str m) := by
  have inner : m.level + 1 = 1 := by omega
  have loop := @pollLoop_runs gd surface depth total { m with level := m.level + 1 } sfFun str
    rounds 0 (by simp [outermost])
  simp only [inner] at loop
  simp only [serialPoll, installed, inner, if_true]
  apply loop.bind (fun _ => ()) (fun n => { n with level := n.level - 1 })
  · exact fun n => rfl
  · intro n same
    simp only [same]
    omega

end

/-- Serial polls are not reentrant and leave no status byte out. An operation called by the
callback, or on an instrument without one, calls nothing and keeps the level. An outermost one
does its exchanges and then polls in rounds: in each `inst_rsp` returns a byte, which is what the
instrument answers then, and the callback is called with it once, and nothing it does calls it
again; its result is what it comes to then. There is a next round exactly when the last one asks for
it, and the operation returns only after results 0 and -1, with the level it began with. -/
theorem instOp_polls (gd : Instrument) (surface : Surface) (rounds depth : Nat) (op : InstOp)
    (m : Machine) :
    (m.level ≠ 0 ∨ gd.sfFun = none ∨ op.label = none →
      Settles m (instOp gd surface rounds (depth + 2) op m)) ∧
    ∀ str sfFun, m.level = 0 → gd.sfFun = some sfFun → op.label = some str →
      ∃ front, Quiet front ∧
        PollRuns ⟨gd, surface, instOp gd surface rounds (depth + 1), sfFun, str, 1⟩ m.level
          (m.trace ++ front) rounds (instOp gd surface rounds (depth + 2) op m) := by
  constructor
  · intro nothing
    rcases nothing with nested | none | unnamed
    · exact instOp_nested op (.inl nested)
    · exact instOp_nested op (.inr none)
    · rw [instOp, unnamed]
      exact (instRsp_settles m).bind fun answer n => Continues.refl n
  · intro str sfFun outermost installed label
    have exchanged : Settles m (ioSteps gd surface op.steps [] m) := ioSteps_settles op.steps [] m
    rw [instOp, label]
    cases went : ioSteps gd surface op.steps [] m with
    | unfinished n => simp [went, Settles, Outcome.Meets] at exchanged
    | exited code n =>
      simp only [went, Settles, Outcome.Meets] at exchanged
      obtain ⟨last, quiet, trace⟩ := exchanged
      refine ⟨[], fun _ member => absurd member List.not_mem_nil, ?_⟩
      rw [List.append_nil]
      exact (PollEnds.failed code n last quiet trace).runs fun _ still => by cases still
    | done bytes n =>
      simp only [went, Settles, Outcome.Meets] at exchanged
      obtain ⟨level, front, quiet, trace⟩ := exchanged
      have polls := @serialPoll_runs gd surface depth rounds n sfFun installed
        (level.trans outermost) rounds str
      refine ⟨front, quiet, ?_⟩
      rw [← trace, outermost]
      exact polls.bind (fun _ => Answer.bytes bytes) id (fun _ => rfl) fun _ same => same

/-- A callback that writes to the instrument, and asks for one more try. -/
def writesAndRetries : Spollfun := fun trace _ _ =>
  .call (.wrt [65]) fun _ => .result (if .back (-1) ∈ trace then 0 else -1)

/-- A trigger polled with that callback calls it twice, one call after the other. -/
theorem instOp_polls_twice :
    let gd : Instrument := ⟨.gpib, some writesAndRetries, 10⟩
    let surface : Surface := ⟨fun _ _ => some [], fun _ => some (64, false)⟩
    let run := instOp gd surface 5 2 .trg ⟨0, []⟩
    (∃ front, Quiet front ∧
      PollRuns ⟨gd, surface, instOp gd surface 5 1, writesAndRetries, "gpib_trg", 1⟩ 0
        ([] ++ front) 5 run) ∧
      run = .done (.bytes []) ⟨0, [.io .trg true,
        .rsp 64 false, .call 64 "gpib_trg", .io (.write [65]) true, .back (-1), .slept 10,
        .rsp 64 false, .call 64 "gpib_trg", .io (.write [65]) true, .back 0]⟩ := by
  constructor
  · exact (instOp_polls ⟨.gpib, some writesAndRetries, 10⟩
      ⟨fun _ _ => some [], fun _ => some (64, false)⟩ 5 0 .trg ⟨0, []⟩).2 "gpib_trg" _ rfl rfl rfl
  · rfl

end GpibUtils.Inst
