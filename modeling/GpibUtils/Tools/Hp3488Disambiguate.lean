import GpibUtils.Tools.Hp3488
import GpibUtils.Tools.Hp3488Config

/-!
# Telling the cards of hp3488 apart

Three cards answer `CTYPE` alike. `_disambiguate_ctype` closes a relay that two of them have and one
that only one of them has, and learns from the errors which card it is. A logic error is tolerated
once for each of the two commands: `lerr_flag` is cleared before the command, and the callback that
polls the instrument sets it again when it meets the error. The card is the one installed, whatever
status bytes come before the instrument is ready, and its relays are open in the end
(`disambiguateCtype_identifies`).
-/

namespace GpibUtils.Hp3488

open CSem Inst Interaction

/-! ## The code -/

/-- The cards that are reported as 44471 by the command `CTYPE`. -/
abbrev Lookalike := { model : Int // model = 44471 ∨ model = 44476 ∨ model = 44477 }

/-- The program while it probes: the instrument, `lerr_flag`, and the operations so far, each with
what was polled for it. -/
structure Probe where
  machine : Machine
  lerrFlag : Int
  given : List (InstOp × List Polled)

/-- The program after an operation. -/
def Probe.after (p : Probe) (op : InstOp) (s : Session Vars) : Probe :=
  ⟨s.machine, s.vars.lerrFlag, p.given ++ [(op, s.vars.polled)]⟩

/-- A number in a command. -/
def slotBytes (slot : Nat) : List UInt8 := (Nat.toDigits 10 slot).map Char.toUInt8

/-- "CLOSE %d04" and "CLOSE %d09", for the end of the format. -/
def closeCommand (slot : Nat) (chan : String) : List UInt8 :=
  bytesOf "CLOSE " ++ slotBytes slot ++ bytesOf chan

/-- "CRESET %d" -/
def cresetCommand (slot : Nat) : List UInt8 := bytesOf "CRESET " ++ slotBytes slot

/-- The tests of `_disambiguate_ctype`; without a result "_disambiguate_ctype failed". -/
def lookalikeOf (err4 err9 : Int) : Option Lookalike :=
  if err4 ≠ 0 ∧ err9 ≠ 0 then some ⟨44476, by decide⟩
  else if err4 = 0 ∧ err9 ≠ 0 then some ⟨44477, by decide⟩
  else if err4 = 0 ∧ err9 = 0 then some ⟨44471, by decide⟩
  else none

section
variable (gd : Instrument) (surface : Surface) (rounds depth : Nat)

/-- An operation of the program. -/
def Probe.perform (op : InstOp) (p : Probe) : Outcome Probe Answer :=
  (hp3488Op gd surface rounds depth op p.machine p.lerrFlag).through (p.after op)

/-- `inst_wrtf` -/
def Probe.wrtf (command : List UInt8) (p : Probe) : Outcome Probe Answer :=
  p.perform gd surface rounds depth (.wrtf command)

/-- `_disambiguate_ctype` -/
def disambiguateCtype (slot : Nat) (p : Probe) : Outcome Probe Lookalike :=
  (p.wrtf gd surface rounds depth (bytesOf "DOFF")).bind fun _ p =>
    let p := { p with lerrFlag := 0 }
    (p.wrtf gd surface rounds depth (closeCommand slot "04")).bind fun _ p =>
      let err4 := p.lerrFlag
      let p := { p with lerrFlag := 0 }
      (p.wrtf gd surface rounds depth (closeCommand slot "09")).bind fun _ p =>
        let err9 := p.lerrFlag
        let p := { p with lerrFlag := 1 }
        match lookalikeOf err4 err9 with
        | none => .exited 1 p
        | some model =>
          (p.wrtf gd surface rounds depth (cresetCommand slot)).bind fun _ p =>
            (p.wrtf gd surface rounds depth (bytesOf "DON")).bind fun _ p => .done model p

end

/-! ## The instrument -/

/-- What an instrument knows of a slot: which relays are closed, whether there is an error that has
not been read, and whether the error register was asked for. -/
structure SlotState where
  closed : List Nat
  error : Bool
  asked : Bool
  deriving DecidableEq

/-- The channel of a slot that a command closes. -/
def channelOf (slot : Nat) (command : List UInt8) : Option Nat :=
  let front := bytesOf "CLOSE " ++ slotBytes slot
  if front <+: command ∧ command.length = front.length + 2 then
    some (digitsValue ((command.drop front.length).map charOf))
  else none

section
variable (slot : Nat) (card : Lookalike)

/-- What a command does: CLOSE closes a relay of the card, or is an error when the card has no such
channel, and CRESET opens all relays. -/
def SlotState.obey (state : SlotState) (command : List UInt8) : SlotState :=
  match channelOf slot command with
  | some chan =>
    if chan ∈ channels card then ⟨chan :: state.closed, state.error, false⟩
    else ⟨state.closed, true, false⟩
  | none =>
    if command = cresetCommand slot then ⟨[], state.error, false⟩
    else ⟨state.closed, state.error, command = bytesOf "ERROR"⟩

/-- What an event does: a command is obeyed, and reading the error register clears it. -/
def SlotState.next (state : SlotState) : Event → SlotState
  | .io (.write command) true => state.obey slot card command
  | .io (.read _) true => if state.asked then ⟨state.closed, false, false⟩ else state
  | _ => state

/-- The slot after what has happened. -/
def slotState (trace : List Event) : SlotState :=
  trace.foldl (SlotState.next slot card) ⟨[], false, false⟩

end

/-- The status byte that `inst_rsp` gives, and whether there are more. -/
def statusOf (gd : Instrument) (surface : Surface) (trace : List Event) : Option (UInt8 × Bool) :=
  match gd.contype with
  | .gpib => surface.rsp trace
  | .vxi11 => (surface.rsp trace).map fun (sb, _) => (sb, false)
  | _ => some (0, false)

/-- What may happen between a status byte and the next one of the same poll: an error is looked
at, and time passes. -/
def Between (sb : UInt8) : Event → Prop
  | .call _ _ | .back _ | .slept _ => True
  | .io (.write command) _ => sb &&& statusError ≠ 0 ∧ command = bytesOf "ERROR"
  | .io (.read _) _ => sb &&& statusError ≠ 0
  | _ => False

/-- A status byte is not the last of its poll, and the next one is polled later. -/
def Waits (gd : Instrument) (surface : Surface) (later earlier : List Event) : Prop :=
  ∃ sb more events, statusOf gd surface earlier = some (sb, more) ∧
    (more = true ∨ sb &&& statusReady = 0) ∧ (∀ event ∈ events, Between sb event) ∧
      later = earlier ++ .rsp sb more :: events

/-- The register shows a logic error and nothing else. -/
structure LogicOnly (register : UInt8) : Prop where
  syn : register &&& errorSyntax = 0
  exec : register &&& errorExec = 0
  toofast : register &&& errorToofast = 0
  power : register &&& errorPower = 0
  logic : register &&& errorLogic ≠ 0

/-- An instrument has a card in a slot: it takes commands, its status byte shows ERROR as long as
there is an error that has not been read and asks for no service, the register then reads as a logic
error, and there is no endless run of status bytes that are not the last of their poll. -/
structure Installed (gd : Instrument) (surface : Surface) (slot : Nat) (card : Lookalike) :
    Prop where
  writes : ∀ trace command, ∃ bytes, surface.io trace (.write command) = some bytes
  status : ∀ trace, ∃ sb more, statusOf gd surface trace = some (sb, more) ∧
    sb &&& statusSrqButton = 0 ∧ sb &&& statusRqs = 0 ∧
      (sb &&& statusError ≠ 0 ↔ (slotState slot card trace).error = true)
  register : ∀ trace len, (slotState slot card trace).asked = true →
    (slotState slot card trace).error = true →
      ∃ text, surface.io trace (.read len) = some text ∧ LogicOnly (registerOf (.bytes text))
  settles : WellFounded (Waits gd surface)

/-- What was polled for an operation shows no error but so many logic errors, and the register was
read for each status byte that shows ERROR. -/
structure Tolerated (logic : Nat) (polled : List Polled) : Prop where
  asked : ∀ p ∈ polled, p.sb &&& statusError ≠ 0 → p.register.isSome = true
  register : ∀ p ∈ polled, ∀ register ∈ p.register, register &&& errorSyntax = 0 ∧
    register &&& errorExec = 0 ∧ register &&& errorToofast = 0 ∧ register &&& errorPower = 0
  logic : polled.countP Polled.logic ≤ logic

/-- One logic error is tolerated for each of the two CLOSE commands, and no other error at all. -/
def OnlyTolerated (slot : Nat) (given : List (InstOp × List Polled)) : Prop :=
  ∀ entry ∈ given, Tolerated
    (if entry.1 = .wrtf (closeCommand slot "04") ∨ entry.1 = .wrtf (closeCommand slot "09") then 1
      else 0) entry.2

/-! ## Polls -/

section
variable {slot : Nat} {card : Lookalike}

/-- The slot after some more events. -/
theorem slotState_append (trace events : List Event) :
    slotState slot card (trace ++ events) =
      events.foldl (SlotState.next slot card) (slotState slot card trace) := by
  rw [slotState, List.foldl_append, slotState]

/-- The error register is asked for, and the rest of the slot stays as it is. -/
theorem obey_error (state : SlotState) :
    state.obey slot card (bytesOf "ERROR") = ⟨state.closed, state.error, true⟩ := by
  have noClose : ¬bytesOf "CLOSE " ++ slotBytes slot <+: bytesOf "ERROR" := by
    intro begins
    have front := (List.prefix_append _ _).trans begins
    exact absurd front (by decide)
  have noReset : bytesOf "ERROR" ≠ cresetCommand slot := by
    intro same
    have front : bytesOf "CRESET " <+: bytesOf "ERROR" := same ▸ List.prefix_append _ _
    exact absurd front (by decide)
  simp [SlotState.obey, channelOf, noClose, noReset]

/-- What the callback exchanges with the instrument for a status byte. -/
def queries (sb : UInt8) : List Event :=
  if sb &&& statusError = 0 then []
  else [.io (.write (bytesOf "ERROR")) true, .io (.read 63) true]

/-- What happens from a status byte, in which the callback finds no fault, to the next one. -/
def roundEvents (retry : Nat) (sb : UInt8) (str : String) : List Event :=
  .call sb str :: queries sb ++ .back (retryUnready sb 0) ::
    if sb &&& statusReady = 0 then [.slept retry] else []

/-- It may happen there. -/
theorem roundEvents_between (retry : Nat) (sb : UInt8) (str : String) :
    ∀ event ∈ roundEvents retry sb str, Between sb event := by
  have asked : ∀ event ∈ queries sb, Between sb event := by
    unfold queries
    split
    · simp
    · rename_i error
      intro event member
      rcases List.mem_pair.mp member with rfl | rfl
      · exact ⟨error, rfl⟩
      · exact error
  intro event member
  simp only [roundEvents, List.cons_append, List.mem_cons, List.mem_append] at member
  rcases member with rfl | query | rfl | slept
  · trivial
  · exact asked event query
  · trivial
  · split at slept
    · rw [List.mem_singleton.mp slept]
      trivial
    · cases slept

/-- After it there is no error that has not been read, and the relays are as before. -/
theorem roundEvents_state {sb : UInt8} {trace : List Event}
    (shown : sb &&& statusError ≠ 0 ↔ (slotState slot card trace).error = true) (retry : Nat)
    (more : Bool) (str : String) :
    let state := slotState slot card (trace ++ .rsp sb more :: roundEvents retry sb str)
    state.closed = (slotState slot card trace).closed ∧ state.error = false := by
  intro state
  have idle : state =
      (queries sb).foldl (SlotState.next slot card) (slotState slot card trace) := by
    rw [show state = _ from slotState_append _ _, roundEvents, List.foldl_cons, List.cons_append,
      List.foldl_cons, List.foldl_append, List.foldl_cons]
    split <;> rfl
  rw [idle]
  by_cases error : sb &&& statusError = 0
  · have quiet : (slotState slot card trace).error = false := by simpa [error] using shown
    simp [queries, error, quiet]
  · simp [queries, error, SlotState.next, obey_error]

end

section
variable {gd : Instrument} {surface : Surface} {slot : Nat} {card : Lookalike}

/-- A logic error and nothing else is tolerated while `lerr_flag` is zero, which it then sets. -/
theorem checkRegister_logic {register : UInt8} (only : LogicOnly register) :
    checkRegister 0 register = (0, 1) := by
  unfold checkRegister
  simp [only.syn, only.exec, only.toofast, only.power, only.logic]

/-- `inst_rsp`, for an instrument that answers it. -/
theorem instRsp_statusOf {m : Machine} {sb : UInt8} {more : Bool}
    (status : statusOf gd surface m.trace = some (sb, more)) :
    instRsp gd surface m = .done (sb, more) (m.log [.rsp sb more]) := by
  cases transport : gd.contype with
  | gpib =>
    simp only [statusOf, transport] at status
    simp [instRsp, transport, status]
  | vxi11 =>
    cases answer : surface.rsp m.trace with
    | none => simp [statusOf, transport, answer] at status
    | some pair =>
      simp only [statusOf, transport, answer, Option.map_some, Option.some.injEq,
        Prod.mk.injEq] at status
      simp [instRsp, transport, answer, status]
  | serial =>
    simp only [statusOf, transport, Option.some.injEq, Prod.mk.injEq] at status
    simp [instRsp, transport, ← status.1, ← status.2]
  | socket =>
    simp only [statusOf, transport, Option.some.injEq, Prod.mk.injEq] at status
    simp [instRsp, transport, ← status.1, ← status.2]

/-- Every transport has writes. -/
theorem present_write (contype : Contype) (bytes : List UInt8) :
    (IoStep.write bytes).absent contype = false := by
  cases contype <;> rfl

/-- Every transport has reads. -/
theorem present_read (contype : Contype) (len : Int) :
    (IoStep.read len).absent contype = false := by
  cases contype <;> rfl

/-- An exchange that goes well. -/
theorem ioStep_answered {step : IoStep} (present : step.absent gd.contype = false)
    (timeless : ∀ usec, step ≠ .usleep usec) {m : Machine} {bytes : List UInt8}
    (answer : surface.io m.trace step = some bytes) :
    ioStep gd surface step m = .done bytes (m.log [.io step true]) := by
  unfold ioStep
  split
  · exact absurd rfl (timeless _)
  · simp [present, answer]

/-- An operation of the callback that is one exchange that goes well. -/
theorem perform_inner {σ : Type} {callback : Callback σ} (rounds depth : Nat) {op : InstOp}
    {str : String} (label : op.label = some str) {step : IoStep} (only : op.steps = [step])
    (present : step.absent gd.contype = false) (timeless : ∀ usec, step ≠ .usleep usec)
    {s : Session σ} (nested : s.machine.level ≠ 0) {bytes : List UInt8}
    (answer : surface.io s.machine.trace step = some bytes) :
    sessionOp gd surface callback rounds (depth + 1) op s =
      .done (.bytes bytes) (s.log [.io step true]) := by
  rw [sessionOp_inner rounds depth label nested, only, ioSteps,
    ioStep_answered present timeless answer]
  rfl

/-- The callback, for a status byte of the instrument: it finds no fault, and when there is an error
`lerr_flag` is one afterwards. -/
theorem callback_installed (installed : Installed gd surface slot card) (depth : Nat)
    (str : String) {m : Machine} {vars : Vars} (nested : m.level ≠ 0) {sb : UInt8}
    (button : sb &&& statusSrqButton = 0) (rqs : sb &&& statusRqs = 0)
    (shown : sb &&& statusError ≠ 0 ↔ (slotState slot card m.trace).error = true)
    (armed : (slotState slot card m.trace).error = true → vars.lerrFlag = 0) (more : Bool) :
    ∃ polled, ∀ below, (interpretStatus vars sb str).run
        (sessionOp gd surface interpretStatus below (depth + 1))
        ⟨m.log [.rsp sb more, .call sb str], vars⟩ =
      .done (retryUnready sb 0,
          ⟨if (slotState slot card m.trace).error = true then 1 else vars.lerrFlag, polled⟩)
        ⟨m.log ([.rsp sb more, .call sb str] ++ queries sb), vars⟩ := by
  by_cases error : sb &&& statusError = 0
  · have quiet : ¬(slotState slot card m.trace).error = true := by simpa [error] using shown
    refine ⟨vars.polled ++ [⟨sb, vars.lerrFlag, none⟩], fun below => ?_⟩
    rw [interpretStatus_unasked vars error str, requested_eq_zero.mpr ⟨button, rqs⟩, if_neg quiet,
      queries, if_pos error]
    rfl
  · have pending := shown.mp error
    let n := m.log [.rsp sb more, .call sb str]
    have same : slotState slot card n.trace = slotState slot card m.trace :=
      slotState_append m.trace _
    obtain ⟨bytes, wrote⟩ := installed.writes n.trace (bytesOf "ERROR")
    let asked := n.log [.io (.write (bytesOf "ERROR")) true]
    have query : slotState slot card asked.trace =
        ⟨(slotState slot card m.trace).closed, true, true⟩ := by
      rw [show asked.trace = n.trace ++ [.io (.write (bytesOf "ERROR")) true] from rfl,
        slotState_append, same, List.foldl_cons, List.foldl_nil, SlotState.next, obey_error,
        pending]
    obtain ⟨text, read, only⟩ := installed.register asked.trace 63 (by rw [query]) (by rw [query])
    have written : ∀ below, sessionOp gd surface interpretStatus below (depth + 1)
        (.wrtstr (bytesOf "ERROR")) ⟨n, vars⟩ = .done (.bytes bytes) ⟨asked, vars⟩ :=
      fun below => perform_inner below depth rfl rfl (present_write _ _) (by simp) nested wrote
    have answered : ∀ below, sessionOp gd surface interpretStatus below (depth + 1) (.rdstr 64)
        ⟨asked, vars⟩ = .done (.bytes text) ⟨asked.log [.io (.read 63) true], vars⟩ :=
      fun below => perform_inner below depth rfl rfl (present_read _ _) (by simp) nested read
    refine ⟨vars.polled ++ [⟨sb, vars.lerrFlag, some (registerOf (.bytes text))⟩], fun below => ?_⟩
    rw [interpretStatus_asked vars error str, Program.run, written, Outcome.bind_done, Program.run,
      answered, Outcome.bind_done, Program.run, armed pending, checkRegister_logic only,
      if_pos pending, queries, if_neg error]
    simp [Machine.log, n, asked]

/-- One round of a poll: unless the status byte is the last, there is another round. -/
theorem round_installed (installed : Installed gd surface slot card) (depth : Nat) (str : String)
    (loops : Nat) {level : Int} {trace : List Event} {vars : Vars} (nested : level ≠ 0)
    (armed : (slotState slot card trace).error = true → vars.lerrFlag = 0) {sb : UInt8}
    {more : Bool} (status : statusOf gd surface trace = some (sb, more))
    (button : sb &&& statusSrqButton = 0) (rqs : sb &&& statusRqs = 0)
    (shown : sb &&& statusError ≠ 0 ↔ (slotState slot card trace).error = true) :
    ∃ polled, ∀ below rounds,
      let loop := sessionLoop gd surface (sessionOp gd surface interpretStatus below (depth + 1))
        interpretStatus str
      let later : Session Vars :=
        ⟨⟨level, trace ++ .rsp sb more :: roundEvents ((loops + 1) * gd.sfRetry) sb str⟩,
          ⟨if (slotState slot card trace).error = true then 1 else vars.lerrFlag, polled⟩⟩
      loop (rounds + 1) loops ⟨⟨level, trace⟩, vars⟩ =
        if more = true ∨ sb &&& statusReady = 0 then
          loop rounds (if sb &&& statusReady = 0 then loops + 1 else loops) later
        else .done () later := by
  obtain ⟨polled, called⟩ := @callback_installed gd surface slot card installed depth str
    ⟨level, trace⟩ vars nested sb button rqs shown armed more
  refine ⟨polled, fun below rounds => ?_⟩
  intro loop later
  have answered : Session.keep ⟨⟨level, trace⟩, vars⟩ (instRsp gd surface ⟨level, trace⟩) =
      .done (sb, more) ⟨Machine.log ⟨level, trace⟩ [.rsp sb more], vars⟩ := by
    rw [instRsp_statusOf status]
    rfl
  have shift : Machine.log (Machine.log ⟨level, trace⟩ [.rsp sb more]) [.call sb str] =
      Machine.log ⟨level, trace⟩ [.rsp sb more, .call sb str] := by simp [Machine.log]
  show sessionLoop gd surface _ interpretStatus str (rounds + 1) loops ⟨⟨level, trace⟩, vars⟩ = _
  rw [sessionLoop, answered, Outcome.bind_done]
  dsimp only
  rw [Session.log_mk, shift, called below, Outcome.bind_done]
  dsimp only [later]
  by_cases unready : sb &&& statusReady = 0
  · have again : retryUnready sb 0 = -1 := if_pos ⟨rfl, unready⟩
    simp [afterResult, unready, again, roundEvents, Machine.log, loop]
  · have fine : retryUnready sb 0 = 0 := if_neg fun both => unready both.2
    simp [afterResult, unready, fine, roundEvents, Machine.log, loop]

/-- A poll comes to an end, with every error read and the relays as they were. -/
theorem loop_installed (installed : Installed gd surface slot card) (depth : Nat) (str : String)
    (loops : Nat) {level : Int} {trace : List Event} {vars : Vars} (nested : level ≠ 0)
    (armed : (slotState slot card trace).error = true → vars.lerrFlag = 0) :
    ∃ n : Session Vars, n.machine.level = level ∧
      (slotState slot card n.machine.trace).closed = (slotState slot card trace).closed ∧
      (slotState slot card n.machine.trace).error = false ∧
      n.vars.lerrFlag = (if (slotState slot card trace).error = true then 1 else vars.lerrFlag) ∧
      ∃ enough, ∀ below, ∀ rounds ≥ enough,
        sessionLoop gd surface (sessionOp gd surface interpretStatus below (depth + 1))
          interpretStatus str rounds loops ⟨⟨level, trace⟩, vars⟩ = .done () n := by
  induction trace using installed.settles.induction generalizing vars loops with
  | _ trace ih =>
  obtain ⟨sb, more, status, button, rqs, shown⟩ := installed.status trace
  obtain ⟨polled, round⟩ := round_installed installed depth str loops nested armed status button
    rqs shown
  let events := roundEvents ((loops + 1) * gd.sfRetry) sb str
  have between : ∀ event ∈ events, Between sb event := roundEvents_between _ sb str
  have closed : (slotState slot card (trace ++ .rsp sb more :: events)).closed =
      (slotState slot card trace).closed := (roundEvents_state shown _ more str).1
  have error : (slotState slot card (trace ++ .rsp sb more :: events)).error = false :=
    (roundEvents_state shown _ more str).2
  let flag := if (slotState slot card trace).error = true then 1 else vars.lerrFlag
  by_cases goesOn : more = true ∨ sb &&& statusReady = 0
  · obtain ⟨n, level', closed', error', flag', enough, returned⟩ :=
      @ih _ ⟨sb, more, events, status, goesOn, between, rfl⟩ _ ⟨flag, polled⟩
        fun pending => by simp [error] at pending
    refine ⟨n, level', closed'.trans closed, error', by simpa [error] using flag', enough + 1,
      fun below rounds large => ?_⟩
    obtain ⟨fewer, rfl⟩ : ∃ fewer, rounds = fewer + 1 := ⟨rounds - 1, by omega⟩
    rw [round below fewer, if_pos goesOn]
    exact returned below fewer (by omega)
  · let n : Session Vars := ⟨⟨level, trace ++ .rsp sb more :: events⟩, ⟨flag, polled⟩⟩
    refine ⟨n, rfl, closed, error, rfl, 1, fun below rounds large => ?_⟩
    obtain ⟨fewer, rfl⟩ : ∃ fewer, rounds = fewer + 1 := ⟨rounds - 1, by omega⟩
    rw [round below fewer, if_neg goesOn]

/-- What a command comes to: it was obeyed, every error was read, and `lerr_flag` tells whether
there was one. -/
structure Obeyed (slot : Nat) (card : Lookalike) (p : Probe) (command : List UInt8) (q : Probe) :
    Prop where
  level : q.machine.level = 0
  closed : (slotState slot card q.machine.trace).closed =
    ((slotState slot card p.machine.trace).obey slot card command).closed
  error : (slotState slot card q.machine.trace).error = false
  flag : q.lerrFlag =
    if ((slotState slot card p.machine.trace).obey slot card command).error = true then 1
    else p.lerrFlag
  given : q.given.map Prod.fst = p.given.map Prod.fst ++ [.wrtf command]

/-- A command whose error, if it is one, is tolerated, returns. -/
theorem wrtf_returns (installed : Installed gd surface slot card) (depth : Nat)
    (command : List UInt8) {p : Probe} (outermost : p.machine.level = 0)
    (armed : ((slotState slot card p.machine.trace).obey slot card command).error = true →
      p.lerrFlag = 0) :
    Outcome.Returns (fun rounds => p.wrtf gd surface rounds (depth + 2) command)
      fun _ q => Obeyed slot card p command q := by
  apply Outcome.Returns.through
  obtain ⟨bytes, wrote⟩ := installed.writes p.machine.trace command
  let trace := p.machine.trace ++ [.io (.write command) true]
  have state : slotState slot card trace =
      (slotState slot card p.machine.trace).obey slot card command := slotState_append _ _
  have exchanged : ioStep gd surface (.write command) p.machine = .done bytes ⟨0, trace⟩ := by
    rw [ioStep_answered (present_write _ _) (by simp) wrote, Machine.log, outermost]
  obtain ⟨n, level, closed, error, flag, enough, returned⟩ :=
    @loop_installed gd surface slot card installed depth "gpib_wrtf" 0 1 trace ⟨p.lerrFlag, []⟩
      (by decide) (state ▸ armed)
  refine ⟨.bytes bytes, ⟨⟨0, n.machine.trace⟩, n.vars⟩, ?_, enough, fun rounds large => ?_⟩
  · exact ⟨rfl, closed.trans (congrArg SlotState.closed state), error, state ▸ flag, by
      simp [Probe.after]⟩
  · show hp3488Op gd surface rounds (depth + 2) (.wrtf command) p.machine p.lerrFlag = _
    rw [hp3488Op, sessionOp]
    simp [InstOp.label, InstOp.steps, ioSteps, exchanged, Session.keep, sessionPoll,
      returned rounds rounds large, level]

end

/-! ## The cards -/

section
variable {slot : Nat} {card : Lookalike}

/-- A command that closes a channel. -/
theorem channelOf_close {chan : String} (two : (bytesOf chan).length = 2) :
    channelOf slot (closeCommand slot chan) =
      some (digitsValue ((bytesOf chan).map charOf)) := by
  simp [channelOf, closeCommand, two, Nat.add_assoc]

/-- A command that does not begin like one closes nothing. -/
theorem channelOf_none {command : List UInt8} (other : ¬bytesOf "CLOSE " <+: command) :
    channelOf slot command = none := by
  rw [channelOf, if_neg]
  exact fun both => other ((List.prefix_append _ _).trans both.1)

/-- Closing a channel that the card has is no error, and closing one that it lacks is. -/
theorem obey_close (state : SlotState) {chan : String} (two : (bytesOf chan).length = 2) :
    (state.obey slot card (closeCommand slot chan)).error =
      if digitsValue ((bytesOf chan).map charOf) ∈ channels card then state.error else true := by
  rw [SlotState.obey, channelOf_close two]
  dsimp only
  split <;> rfl

/-- CRESET opens the relays, and is no error. -/
theorem obey_creset (state : SlotState) :
    state.obey slot card (cresetCommand slot) = ⟨[], state.error, false⟩ := by
  have other : ¬bytesOf "CLOSE " <+: cresetCommand slot := by
    intro begins
    have front : bytesOf "CLOSE " <+: bytesOf "CRESET " :=
      List.prefix_of_prefix_length_le begins (List.prefix_append _ _) (by decide)
    exact absurd front (by decide)
  rw [SlotState.obey, channelOf_none other]
  exact if_pos rfl

/-- Any other command is no error, and leaves the relays as they are or opens them. -/
theorem obey_other (state : SlotState) {command : List UInt8}
    (other : ¬bytesOf "CLOSE " <+: command) :
    (state.obey slot card command).error = state.error ∧
      (state.closed = [] → (state.obey slot card command).closed = []) := by
  rw [SlotState.obey, channelOf_none other]
  dsimp only
  split
  · exact ⟨rfl, fun _ => rfl⟩
  · exact ⟨rfl, id⟩

/-- The card is known by which of the two channels it lacks. -/
theorem lookalikeOf_card (card : Lookalike) :
    lookalikeOf (if 4 ∈ channels card then 0 else 1) (if 9 ∈ channels card then 0 else 1) =
      some card := by
  obtain ⟨model, rfl | rfl | rfl⟩ := card <;> decide

end

/-- The commands of `_disambiguate_ctype`, in order. -/
def probeCommands (slot : Nat) : List InstOp :=
  [.wrtf (bytesOf "DOFF"), .wrtf (closeCommand slot "04"), .wrtf (closeCommand slot "09"),
    .wrtf (cresetCommand slot), .wrtf (bytesOf "DON")]

section
variable {gd : Instrument} {surface : Surface} {slot : Nat} {card : Lookalike}

/-- For an installed card that has no unread error, `_disambiguate_ctype` returns that card. -/
theorem disambiguateCtype_installed (installed : Installed gd surface slot card) (depth : Nat)
    {p : Probe} (outermost : p.machine.level = 0)
    (quiet : (slotState slot card p.machine.trace).error = false) :
    Outcome.Returns (fun rounds => disambiguateCtype gd surface rounds (depth + 2) slot p)
      fun model q => model = card ∧ (slotState slot card q.machine.trace).closed = [] ∧
        q.lerrFlag = 1 ∧ q.given.map Prod.fst = p.given.map Prod.fst ++ probeCommands slot := by
  unfold disambiguateCtype
  have doff := (@obey_other slot card (slotState slot card p.machine.trace) (bytesOf "DOFF")
    (by decide)).1
  apply Outcome.Returns.bind (wrtf_returns installed depth (bytesOf "DOFF") outermost
    fun error => by simp [doff, quiet] at error)
  intro _ p₁ first
  have close4 := @obey_close slot card (slotState slot card p₁.machine.trace) "04" rfl
  apply Outcome.Returns.bind (@wrtf_returns gd surface slot card installed depth
    (closeCommand slot "04") { p₁ with lerrFlag := 0 } first.level fun _ => rfl)
  intro _ p₂ second
  have close9 := @obey_close slot card (slotState slot card p₂.machine.trace) "09" rfl
  apply Outcome.Returns.bind (@wrtf_returns gd surface slot card installed depth
    (closeCommand slot "09") { p₂ with lerrFlag := 0 } second.level fun _ => rfl)
  intro _ p₃ third
  have four : digitsValue ((bytesOf "04").map charOf) = 4 := by decide
  have nine : digitsValue ((bytesOf "09").map charOf) = 9 := by decide
  have err4 : p₂.lerrFlag = if 4 ∈ channels card then 0 else 1 := by
    have flag := second.flag
    rw [close4, first.error] at flag
    simpa [four] using flag
  have err9 : p₃.lerrFlag = if 9 ∈ channels card then 0 else 1 := by
    have flag := third.flag
    rw [close9, second.error] at flag
    simpa [nine] using flag
  dsimp only
  rw [err4, err9, lookalikeOf_card]
  have creset := @obey_creset slot card (slotState slot card p₃.machine.trace)
  apply Outcome.Returns.bind (@wrtf_returns gd surface slot card installed depth
    (cresetCommand slot) { p₃ with lerrFlag := 1 } third.level
    fun error => by simp [creset, third.error] at error)
  intro _ p₄ fourth
  have opened : (slotState slot card p₄.machine.trace).closed = [] := by
    rw [fourth.closed, creset]
  have don := @obey_other slot card (slotState slot card p₄.machine.trace) (bytesOf "DON")
    (by decide)
  apply Outcome.Returns.bind (wrtf_returns installed depth (bytesOf "DON") fourth.level
    fun error => by simp [don.1, fourth.error] at error)
  intro _ p₅ fifth
  apply Outcome.Returns.of_done fun _ => rfl
  refine ⟨rfl, fifth.closed.trans (don.2 opened), ?_, ?_⟩
  · have flag := fourth.flag
    rw [fifth.flag, don.1, fourth.error]
    simpa [creset, third.error] using flag
  · rw [fifth.given, fourth.given, third.given, second.given, first.given]
    simp [probeCommands]

end

/-! ## Other errors -/

section
variable {gd : Instrument} {surface : Surface} {slot : Nat}

/-- While a poll goes on, only tolerated errors have been met. -/
theorem Going.only {lerrFlag : Int} {vars : Vars} (going : Going lerrFlag vars) :
    Tolerated (allowance lerrFlag) vars.polled := by
  have each : ∀ p ∈ vars.polled, p.Passed := going.passed
  refine ⟨fun p member error => ?_, fun p member register read => ?_, ?_⟩
  · obtain ⟨register, read, -⟩ := (each p member).asked error
    exact Option.isSome_iff_exists.mpr ⟨register, read⟩
  · by_cases error : p.sb &&& statusError = 0
    · rw [((each p member).unasked error).1] at read
      cases read
    · obtain ⟨other, same, syn, exec, toofast, power, -⟩ := (each p member).asked error
      rw [← Option.mem_unique same read]
      exact ⟨syn, exec, toofast, power⟩
  · exact going.tolerated ▸ Nat.le_add_right _ _

/-- An operation met only errors that `lerr_flag` tolerates. -/
def Met (p : Probe) (op : InstOp) (q : Probe) : Prop :=
  ∃ polled, q.given = p.given ++ [(op, polled)] ∧ Tolerated (allowance p.lerrFlag) polled

/-- An operation of any instrument meets only errors that `lerr_flag` tolerates, or ends the
program. -/
theorem perform_meets (gd : Instrument) (surface : Surface) (rounds depth : Nat) {op : InstOp}
    (polls : op.label ≠ none) {p : Probe} (outermost : p.machine.level = 0) :
    (p.perform gd surface rounds (depth + 2) op).Meets
      (fun _ q => (q.machine.level = 0 ∧ allowance q.lerrFlag ≤ allowance p.lerrFlag) ∧ Met p op q)
      (fun code _ => code = 1) fun q => Met p op q := by
  obtain ⟨⟨level, trace⟩, lerrFlag, given⟩ := p
  obtain rfl : level = 0 := outermost
  apply Outcome.Meets.through
  have kept := hp3488Op_kept gd surface rounds depth polls trace lerrFlag
  have level := @sessionOp_level Vars gd surface interpretStatus rounds (depth + 2) op
    ⟨⟨0, trace⟩, ⟨lerrFlag, []⟩⟩
  apply (kept.and level).mono
  · rintro answer s ⟨⟨going, -⟩, level⟩
    exact ⟨⟨level, going.tolerated ▸ Nat.le_add_left _ _⟩, s.vars.polled, rfl, going.only⟩
  · exact fun code s both => both.1
  · exact fun s both => ⟨s.vars.polled, rfl, both.1.only⟩

/-- One more operation that met only tolerated errors. -/
theorem OnlyTolerated.concat {p q : Probe} (only : OnlyTolerated slot p.given) {op : InstOp}
    (met : Met p op q)
    (allowed : allowance p.lerrFlag ≤ if op = .wrtf (closeCommand slot "04") ∨
      op = .wrtf (closeCommand slot "09") then 1 else 0) :
    OnlyTolerated slot q.given := by
  obtain ⟨polled, given, tolerated⟩ := met
  intro entry member
  rw [given] at member
  rcases List.mem_append.mp member with early | last
  · exact only entry early
  · rw [List.mem_singleton.mp last]
    exact ⟨tolerated.asked, tolerated.register, tolerated.logic.trans allowed⟩

/-- So it is with one more command. -/
theorem wrtf_only (gd : Instrument) (surface : Surface) (rounds depth : Nat) {p : Probe}
    (outermost : p.machine.level = 0) (only : OnlyTolerated slot p.given) (command : List UInt8)
    (allowed : allowance p.lerrFlag ≤ if InstOp.wrtf command = .wrtf (closeCommand slot "04") ∨
      InstOp.wrtf command = .wrtf (closeCommand slot "09") then 1 else 0) :
    (p.wrtf gd surface rounds (depth + 2) command).Meets
      (fun _ q => (q.machine.level = 0 ∧ allowance q.lerrFlag ≤ allowance p.lerrFlag) ∧
        OnlyTolerated slot q.given)
      (fun code _ => code = 1) fun q => OnlyTolerated slot q.given := by
  have polls : (InstOp.wrtf command).label ≠ none := Option.some_ne_none _
  apply (perform_meets gd surface rounds depth polls outermost).mono
  · exact fun _ q both => ⟨both.1, only.concat both.2 allowed⟩
  · exact fun _ _ => id
  · exact fun q met => only.concat met allowed

/-- With any instrument, `_disambiguate_ctype` meets only the tolerated errors, or ends the
program. -/
theorem disambiguateCtype_meets (gd : Instrument) (surface : Surface) (rounds depth : Nat)
    {p : Probe} (outermost : p.machine.level = 0) (strict : allowance p.lerrFlag = 0)
    (only : OnlyTolerated slot p.given) :
    (disambiguateCtype gd surface rounds (depth + 2) slot p).Meets
      (fun _ q => OnlyTolerated slot q.given) (fun code _ => code = 1)
      fun q => OnlyTolerated slot q.given := by
  unfold disambiguateCtype
  apply (wrtf_only gd surface rounds depth outermost only _
    (strict.le.trans (Nat.zero_le _))).bind
  rintro _ p₁ ⟨⟨level₁, -⟩, only₁⟩
  apply (@wrtf_only slot gd surface rounds depth { p₁ with lerrFlag := 0 } level₁ only₁
    (closeCommand slot "04") (by simp [allowance])).bind
  rintro _ p₂ ⟨⟨level₂, -⟩, only₂⟩
  apply (@wrtf_only slot gd surface rounds depth { p₂ with lerrFlag := 0 } level₂ only₂
    (closeCommand slot "09") (by simp [allowance])).bind
  rintro _ p₃ ⟨⟨level₃, -⟩, only₃⟩
  dsimp only
  cases lookalikeOf p₂.lerrFlag p₃.lerrFlag with
  | none => exact rfl
  | some model =>
    apply (@wrtf_only slot gd surface rounds depth { p₃ with lerrFlag := 1 } level₃ only₃
      (cresetCommand slot) (Nat.zero_le _)).bind
    rintro _ p₄ ⟨⟨level₄, strict₄⟩, only₄⟩
    have none₄ : allowance p₄.lerrFlag = 0 := Nat.le_zero.mp strict₄
    apply (wrtf_only gd surface rounds depth level₄ only₄ _
      (none₄.le.trans (Nat.zero_le _))).bind
    rintro _ p₅ ⟨-, only₅⟩
    exact only₅

/-- The instrument and the card: `_disambiguate_ctype` meets only the tolerated errors or ends the
program; and for a card in the slot that has no unread error it returns the number of that card,
with the relays of the slot open, after its own commands, and with `lerr_flag` set. -/
theorem disambiguateCtype_identifies (gd : Instrument) (surface : Surface) (slot depth : Nat)
    (trace : List Event) :
    let start : Probe := ⟨⟨0, trace⟩, 1, []⟩
    (∀ rounds, (disambiguateCtype gd surface rounds (depth + 2) slot start).Meets
      (fun _ q => OnlyTolerated slot q.given) (fun code _ => code = 1)
      fun q => OnlyTolerated slot q.given) ∧
    ∀ card, Installed gd surface slot card → (slotState slot card trace).error = false →
      Outcome.Returns (fun rounds => disambiguateCtype gd surface rounds (depth + 2) slot start)
        fun model q => model = card ∧ (slotState slot card q.machine.trace).closed = [] ∧
          q.lerrFlag = 1 ∧ q.given.map Prod.fst = probeCommands slot := by
  intro start
  constructor
  · intro rounds
    apply disambiguateCtype_meets gd surface rounds depth rfl rfl
    exact fun entry member => absurd member List.not_mem_nil
  · exact fun card installed quiet => disambiguateCtype_installed installed depth rfl quiet

end

/-! ## An example -/

/-- An instrument with a card in a slot that is not ready for some time. -/
def bench (slot : Nat) (card : Lookalike) : Surface where
  io trace
    | .read _ => some (bytesOf (if (slotState slot card trace).error then "8" else "0"))
    | _ => some []
  rsp trace :=
    some ((if (slotState slot card trace).error then statusError else 0) |||
      (if trace.length < 20 then 0 else statusReady), false)

/-- It is one as the probe takes it to be. -/
theorem bench_installed (slot : Nat) (card : Lookalike) :
    Installed ⟨.gpib, none, 0⟩ (bench slot card) slot card := by
  constructor
  · exact fun trace command => ⟨[], rfl⟩
  · intro trace
    refine ⟨_, _, rfl, ?_⟩
    cases (slotState slot card trace).error <;> by_cases short : trace.length < 20 <;>
      simp only [short, if_true, if_false] <;> decide
  · intro trace len _ error
    refine ⟨_, rfl, ?_⟩
    rw [error]
    constructor <;> decide
  · apply Subrelation.wf (r := fun later earlier => 20 - later.length < 20 - earlier.length)
    · rintro later earlier ⟨sb, more, events, status, goesOn, -, rfl⟩
      have answer := Option.some.inj status
      have sb : (if (slotState slot card earlier).error then statusError else 0) |||
        (if earlier.length < 20 then 0 else statusReady) = sb := congrArg Prod.fst answer
      have more : false = more := congrArg Prod.snd answer
      have unready := goesOn.resolve_left (by simp [← more])
      have short : earlier.length < 20 := by
        by_contra long
        rw [← sb, if_neg long] at unready
        revert unready
        cases (slotState slot card earlier).error <;> decide
      simp only [List.length_append, List.length_cons]
      omega
    · exact (measure fun trace : List Event => 20 - trace.length).wf

/-- The form C relay card in the third slot is found, after a relay was left closed. -/
theorem disambiguateCtype_identifies_formC :
    let card : Lookalike := ⟨44477, by decide⟩
    let trace := [Event.io (.write (closeCommand 3 "05")) true]
    (slotState 3 card trace).closed = [5] ∧
      Outcome.Returns
        (fun rounds => disambiguateCtype ⟨.gpib, none, 0⟩ (bench 3 card) rounds 2 3
          ⟨⟨0, trace⟩, 1, []⟩)
        fun model q => model = card ∧ (slotState 3 card q.machine.trace).closed = [] ∧
          q.lerrFlag = 1 ∧ q.given.map Prod.fst = probeCommands 3 := by
  intro card trace
  exact ⟨by decide, (disambiguateCtype_identifies ⟨.gpib, none, 0⟩ (bench 3 card) 3 0 trace).2 card
    (bench_installed 3 card) (by decide)⟩

end GpibUtils.Hp3488
