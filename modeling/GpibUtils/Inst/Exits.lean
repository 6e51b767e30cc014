import GpibUtils.Inst.GenericRead
import GpibUtils.Inst.Poll
import GpibUtils.Util.WriteAll
import GpibUtils.Vxi11.Handle
import GpibUtils.Vxi11.Write

/-!
# How `inst.c` ends a program

The exchanges of `inst.c` over its four transports, with every place in which they end the
program. Each of these places has to call `inst_fini` itself. Three of them on VXI-11 do not, and
no assertion does (`exit_finalises_iff`). A place that would report a short write on a serial line
does, but cannot be reached (`serialWrite_complete_iff`).
-/

namespace GpibUtils.Inst

open CSem Interaction Vxi11

/-! ## The code -/

/-- The bits of `ibsta` that are looked at after a call other than `ibrd`. -/
structure Ibsta where
  /-- `TIMO` -/
  timo : Bool
  /-- `ERR` -/
  err : Bool
  /-- `RQS` -/
  rqs : Bool

/-- What the GPIB driver, the VXI-11 device and the descriptor of an instrument report to each
call, after what has happened. -/
structure Drivers where
  ibrd : List Event → List Ibrd
  /-- `ibwrt` of some bytes, with `ibcnt` -/
  ibwrt : List Event → List UInt8 → Ibsta × Int
  ibloc : List Event → Ibsta
  ibclr : List Event → Ibsta
  ibtrg : List Event → Ibsta
  ibrsp : List Event → Ibsta × UInt8
  /-- `vxi11_handle` -/
  handle : List Event → Device
  deviceRead : List Event → Peer DeviceReadResp
  deviceWrite : List Event → Peer DeviceWriteResp
  deviceLocal : List Event → Option DeviceError
  deviceClear : List Event → Option DeviceError
  deviceTrigger : List Event → Option DeviceError
  deviceReadstb : List Event → Option DeviceReadStbResp
  reos : List Event → Bool
  /-- `read` of the descriptor -/
  read : List Event → List SysRead
  /-- `write` of the descriptor -/
  write : List Event → List Util.SysWrite

/-- An exchange that went well. -/
def completed (step : IoStep) (m : Machine) : Outcome Machine Unit :=
  .done () (m.log [.io step true])

/-- An exchange that failed: a message, `inst_fini` and `exit(1)`. -/
def fatal {α : Type} (step : IoStep) (m : Machine) : Outcome Machine α :=
  .exited 1 (m.log [.io step false, .fini])

/-- An exchange that failed: a message and `exit(1)`. -/
def unfinalised {α : Type} (step : IoStep) (m : Machine) : Outcome Machine α :=
  .exited 1 (m.log [.io step false])

/-- The status of a program that an assertion ends, as a shell gives it. -/
def sigabrt : Int := 134

/-- `assert` -/
def assertion (holds : Prop) [Decidable holds] (m : Machine) : Outcome Machine Unit :=
  if holds then .done () m else .exited sigabrt m

/-- Nothing was read. -/
def noBytes (exchanged : Outcome Machine Unit) : Outcome Machine (List UInt8) :=
  exchanged.bind fun _ m => .done [] m

namespace Drivers

variable (d : Drivers)

/-- What a read meets. -/
def transport (contype : Contype) (trace : List Event) : Transport :=
  match contype with
  | .gpib => .gpib (d.ibrd trace)
  | .vxi11 => .vxi11 (d.handle trace) (d.deviceRead trace)
  | .serial => .serial (d.reos trace) (d.read trace)
  | .socket => .socket (d.read trace)

/-- `_generic_read`: the count and the buffer. Each of its failures is a message, `inst_fini` and
`exit(1)`. -/
def genericRead (contype : Contype) (len : Int) (m : Machine) : Outcome Machine (Int × Memory) :=
  match Inst.genericRead (d.transport contype m.trace) (Memory.ofBytes []) len with
  | .error _ => fatal (.read len) m
  | .ok read => .done read (m.log [.io (.read len) true])

/-- `_generic_write` -/
def genericWrite (contype : Contype) (buf : List UInt8) (m : Machine) : Outcome Machine Unit :=
  let step := IoStep.write buf
  match contype with
  | .gpib =>
    let (ibsta, ibcnt) := d.ibwrt m.trace buf
    if ibsta.timo then fatal step m
    else if ibsta.err then fatal step m
    else (completed step m).bind fun _ m => assertion (ibcnt = buf.length) m
  | .vxi11 =>
    if (vxi11Write (d.handle m.trace) buf.length (d.deviceWrite m.trace)).1 ≠ 0 then fatal step m
    else completed step m
  | _ =>
    if ((Util.writeAll buf (d.write m.trace)).bc : Int) < 0 then fatal step m
    else completed step m

/-- The switch of `inst_loc`. -/
def loc (contype : Contype) (m : Machine) : Outcome Machine Unit :=
  match contype with
  | .gpib => if (d.ibloc m.trace).err then fatal .loc m else completed .loc m
  | .vxi11 =>
    if (vxi11Local (d.handle m.trace) (d.deviceLocal m.trace)).1 ≠ 0 then unfinalised .loc m
    else completed .loc m
  | _ => .done () m

/-- The switch of `inst_clr`. -/
def clr (contype : Contype) (m : Machine) : Outcome Machine Unit :=
  match contype with
  | .gpib =>
    if (d.ibclr m.trace).timo then fatal .clr m
    else if (d.ibclr m.trace).err then fatal .clr m
    else completed .clr m
  | .vxi11 =>
    if (vxi11Clear (d.handle m.trace) (d.deviceClear m.trace)).1 ≠ 0 then unfinalised .clr m
    else completed .clr m
  | _ => .done () m

/-- The switch of `inst_trg`; its case VXI11 falls through to one that does nothing. -/
def trg (contype : Contype) (m : Machine) : Outcome Machine Unit :=
  match contype with
  | .gpib => if (d.ibtrg m.trace).err then fatal .trg m else completed .trg m
  | .vxi11 =>
    if (vxi11Trigger (d.handle m.trace) (d.deviceTrigger m.trace)).1 ≠ 0 then fatal .trg m
    else completed .trg m
  | _ => .done () m

/-- `inst_rsp`: the status byte, and whether there are more. -/
def rsp (contype : Contype) (m : Machine) : Outcome Machine (UInt8 × Bool) :=
  match contype with
  | .gpib =>
    let (ibsta, sb) := d.ibrsp m.trace
    if ibsta.err then .exited 1 (m.log [.rspFailed, .fini])
    else .done (sb, ibsta.rqs) (m.log [.rsp sb ibsta.rqs])
  | .vxi11 =>
    let (err, _, sb) := vxi11Readstb (d.handle m.trace) 0 (d.deviceReadstb m.trace)
    if err ≠ 0 then .exited 1 (m.log [.rspFailed])
    else .done (sb, false) (m.log [.rsp sb false])
  | _ => .done (0, false) (m.log [.rsp 0 false])

/-- What an operation does before it polls; of a read, the bytes counted. `inst_rdf` compares its
count as an unsigned number. -/
def exchanges (contype : Contype) : InstOp → Machine → Outcome Machine (List UInt8)
  | .rd len, m => (d.genericRead contype len m).bind fun (count, mem) m =>
    .done (mem.slice 0 count.toNat) m
  | .rdstr len, m => (d.genericRead contype (len - 1) m).bind fun (count, mem) m =>
    (assertion (count < len) m).bind fun _ m => .done (mem.slice 0 count.toNat) m
  | .rdf, m => (d.genericRead contype 1023 m).bind fun (count, mem) m =>
    (assertion ((toULong count).toNat < 1023) m).bind fun _ m =>
      .done (mem.slice 0 count.toNat) m
  | .wrt buf, m | .wrtstr buf, m | .wrtf buf, m =>
    noBytes (d.genericWrite contype buf m)
  | .qry str len, m => (d.genericWrite contype str m).bind fun _ m =>
    (d.genericRead contype len m).bind fun (count, mem) m => .done (mem.slice 0 count.toNat) m
  | .loc, m => noBytes (d.loc contype m)
  | .clr usec, m => (d.clr contype m).bind fun _ m => .done [] (m.log [.slept usec])
  | .trg, m => noBytes (d.trg contype m)
  | .rsp, m => .done [] m

/-- The answers to exchanges and serial polls. -/
def surface (contype : Contype) : Surface where
  io trace step :=
    let exchanged :=
      match step with
      | .read len => d.exchanges contype (.rd len) ⟨0, trace⟩
      | .write buf => noBytes (d.genericWrite contype buf ⟨0, trace⟩)
      | .loc => noBytes (d.loc contype ⟨0, trace⟩)
      | .clr => noBytes (d.clr contype ⟨0, trace⟩)
      | .trg => noBytes (d.trg contype ⟨0, trace⟩)
      | .usleep _ => .done [] ⟨0, trace⟩
    match exchanged with
    | .done bytes _ => some bytes
    | _ => none
  rsp trace :=
    match d.rsp contype ⟨0, trace⟩ with
    | .done answer _ => some answer
    | _ => none

end Drivers

/-- An operation over some drivers, where calls may nest so deep and each poll goes on for at most
so many rounds. -/
def performOp (gd : Instrument) (d : Drivers) (rounds : Nat) :
    (depth : Nat) → InstOp → Machine → Outcome Machine Answer
  | 0, _, m => .unfinished m
  | depth + 1, op, m =>
    match op.label with
    | none => (d.rsp gd.contype m).bind fun (sb, more) m => .done (.status sb more) m
    | some str =>
      (d.exchanges gd.contype op m).bind fun bytes m =>
        (serialPoll gd (d.surface gd.contype) (performOp gd d rounds depth) rounds str m).bind
          fun _ m => .done (.bytes bytes) m

/-! ## The answers of the drivers -/

/-- What `inst.c` asserts about the report of an exchange that went well: a GPIB driver has written
as many bytes as there are, and the count of a read is not above the amount asked for, and below it
when that is the amount that `inst_rdf` asks for. -/
def Asserted (d : Drivers) (contype : Contype) (trace : List Event) : IoStep → Prop
  | .write buf => contype = .gpib → (d.ibwrt trace buf).2 = buf.length
  | .read len => ∀ read,
    Inst.genericRead (d.transport contype trace) (Memory.ofBytes []) len = .ok read →
      read.1 ≤ len ∧ (len = 1023 → (toULong read.1).toNat < 1023)
  | _ => True

/-- What an exchange comes to after some history, whatever the level. -/
inductive Way (d : Drivers) (contype : Contype) (step : IoStep) (trace : List Event)
    (run : Machine → Outcome Machine Unit) : Prop
  /-- The transport does not have it. -/
  | absent (none : step.absent contype = true)
      (same : ∀ level, run ⟨level, trace⟩ = .done () ⟨level, trace⟩)
  /-- It goes well. -/
  | completed (there : step.absent contype = false)
      (same : ∀ level, run ⟨level, trace⟩ = completed step ⟨level, trace⟩)
  /-- It fails. -/
  | failed (there : step.absent contype = false)
      (same : ∀ level, run ⟨level, trace⟩ = .exited 1 (Machine.log ⟨level, trace⟩
        (.io step false :: if step.finalises contype then [.fini] else [])))
  /-- It goes well, and an assertion about it fails. -/
  | refuted (there : step.absent contype = false) (report : ¬Asserted d contype trace step)
      (same : ∀ level, run ⟨level, trace⟩ =
        .exited sigabrt (Machine.log ⟨level, trace⟩ [.io step true]))

section
variable {gd : Instrument} {d : Drivers} {contype : Contype} {trace : List Event}

/-- `inst_rsp` over the drivers is `inst_rsp` over their answers. -/
theorem rsp_eq_instRsp (gd : Instrument) (d : Drivers) (m : Machine) :
    d.rsp gd.contype m = instRsp gd (d.surface gd.contype) m := by
  unfold instRsp Drivers.surface Drivers.rsp
  cases gd.contype with
  | gpib => cases err : (d.ibrsp m.trace).1.err <;> simp [err]
  | vxi11 =>
    by_cases good : (vxi11Readstb (d.handle m.trace) 0 (d.deviceReadstb m.trace)).1 = 0 <;>
      simp [good]
  | serial => rfl
  | socket => rfl

/-- No assertion fails. -/
def Upheld (d : Drivers) (contype : Contype) : Prop :=
  ∀ op m n, d.exchanges contype op m ≠ .exited sigabrt n

/-- An exchange that a report decides. -/
theorem Way.reported {step : IoStep} {run : Machine → Outcome Machine Unit} (bad : Prop)
    [Decidable bad] (there : step.absent contype = false)
    (same : ∀ level, run ⟨level, trace⟩ =
      if bad then .exited 1 (Machine.log ⟨level, trace⟩
        (.io step false :: if step.finalises contype then [.fini] else []))
      else Inst.completed step ⟨level, trace⟩) : Way d contype step trace run := by
  by_cases fails : bad
  · exact .failed there fun level => (same level).trans (if_pos fails)
  · exact .completed there fun level => (same level).trans (if_neg fails)

/-- What a write comes to. -/
theorem genericWrite_way (d : Drivers) (contype : Contype) (buf : List UInt8)
    (trace : List Event) : Way d contype (.write buf) trace (d.genericWrite contype buf) := by
  cases contype with
  | gpib =>
    by_cases counted : (d.ibwrt trace buf).2 = buf.length
    · apply Way.reported ((d.ibwrt trace buf).1.timo ∨ (d.ibwrt trace buf).1.err) rfl
      intro level
      simp [Drivers.genericWrite, assertion, counted, completed, fatal, IoStep.finalises, ite_or]
    · by_cases fails : (d.ibwrt trace buf).1.timo ∨ (d.ibwrt trace buf).1.err
      · apply Way.failed rfl
        simp [Drivers.genericWrite, fatal, IoStep.finalises, ← ite_or, fails]
      · have report : ¬Asserted d .gpib trace (.write buf) := fun asserted => counted (asserted rfl)
        apply Way.refuted rfl report
        simp [Drivers.genericWrite, assertion, counted, completed, ← ite_or, fails]
  | vxi11 =>
    exact .reported
      ((vxi11Write (d.handle trace) buf.length (d.deviceWrite trace)).1 ≠ 0) rfl fun _ => rfl
  | serial =>
    exact .reported (((Util.writeAll buf (d.write trace)).bc : Int) < 0) rfl fun _ => rfl
  | socket =>
    exact .reported (((Util.writeAll buf (d.write trace)).bc : Int) < 0) rfl fun _ => rfl

/-- What a return to local control comes to. -/
theorem loc_way (d : Drivers) (contype : Contype) (trace : List Event) :
    Way d contype .loc trace (d.loc contype) := by
  cases contype with
  | gpib => exact .reported ((d.ibloc trace).err = true) rfl fun _ => rfl
  | vxi11 =>
    exact .reported ((vxi11Local (d.handle trace) (d.deviceLocal trace)).1 ≠ 0) rfl fun _ => rfl
  | serial => exact .absent rfl fun _ => rfl
  | socket => exact .absent rfl fun _ => rfl

/-- What a clear comes to. -/
theorem clr_way (d : Drivers) (contype : Contype) (trace : List Event) :
    Way d contype .clr trace (d.clr contype) := by
  cases contype with
  | gpib =>
    exact .reported ((d.ibclr trace).timo = true ∨ (d.ibclr trace).err = true) rfl
      fun _ => (ite_or ..).symm
  | vxi11 =>
    exact .reported ((vxi11Clear (d.handle trace) (d.deviceClear trace)).1 ≠ 0) rfl fun _ => rfl
  | serial => exact .absent rfl fun _ => rfl
  | socket => exact .absent rfl fun _ => rfl

/-- What a trigger comes to. -/
theorem trg_way (d : Drivers) (contype : Contype) (trace : List Event) :
    Way d contype .trg trace (d.trg contype) := by
  cases contype with
  | gpib => exact .reported ((d.ibtrg trace).err = true) rfl fun _ => rfl
  | vxi11 =>
    exact .reported ((vxi11Trigger (d.handle trace) (d.deviceTrigger trace)).1 ≠ 0) rfl
      fun _ => rfl
  | serial => exact .absent rfl fun _ => rfl
  | socket => exact .absent rfl fun _ => rfl

/-- What a read comes to. -/
theorem genericRead_cases (d : Drivers) (contype : Contype) (len : Int) (trace : List Event) :
    (∀ level, d.genericRead contype len ⟨level, trace⟩ = fatal (.read len) ⟨level, trace⟩) ∨
      ∃ read, ∀ level, d.genericRead contype len ⟨level, trace⟩ =
        .done read (Machine.log ⟨level, trace⟩ [.io (.read len) true]) := by
  cases read : Inst.genericRead (d.transport contype trace) (Memory.ofBytes []) len with
  | error fault =>
    left
    simp [Drivers.genericRead, read]
  | ok read' =>
    right
    exact ⟨read', by simp [Drivers.genericRead, read]⟩

/-- An exchange that the transport does not have. -/
theorem ioStep_absent {step : IoStep} (awake : ∀ usec, step ≠ .usleep usec)
    (none : step.absent gd.contype = true) (surface : Surface) (m : Machine) :
    ioStep gd surface step m = .done [] m := by
  cases step with
  | usleep usec => exact absurd rfl (awake usec)
  | _ => exact if_pos none

/-- An exchange that is answered. -/
theorem ioStep_answered {step : IoStep} (awake : ∀ usec, step ≠ .usleep usec)
    (there : step.absent gd.contype = false) {surface : Surface} {m : Machine}
    {bytes : List UInt8} (answer : surface.io m.trace step = some bytes) :
    ioStep gd surface step m = .done bytes (m.log [.io step true]) := by
  cases step with
  | usleep usec => exact absurd rfl (awake usec)
  | _ => simp [ioStep, there, answer]

/-- An exchange that fails. -/
theorem ioStep_failed {step : IoStep} (awake : ∀ usec, step ≠ .usleep usec)
    (there : step.absent gd.contype = false) {surface : Surface} {m : Machine}
    (answer : surface.io m.trace step = none) :
    ioStep gd surface step m =
      .exited 1 (m.log (.io step false :: if step.finalises gd.contype then [.fini] else [])) := by
  cases step with
  | usleep usec => exact absurd rfl (awake usec)
  | _ => simp [ioStep, there, answer]

/-- An exchange of which no assertion fails, with the answer of the drivers. -/
theorem Way.ioStep {step : IoStep} {run : Machine → Outcome Machine Unit} {m : Machine}
    {surface : Surface} (way : Way d gd.contype step m.trace run)
    (upheld : ∀ n, noBytes (run m) ≠ .exited sigabrt n) (awake : ∀ usec, step ≠ .usleep usec)
    (answers : surface.io m.trace step =
      match noBytes (run ⟨0, m.trace⟩) with
      | .done bytes _ => some bytes
      | _ => none) : noBytes (run m) = Inst.ioStep gd surface step m := by
  cases way with
  | absent none same =>
    rw [ioStep_absent awake none, same m.level]
    rfl
  | completed there same =>
    rw [same 0] at answers
    rw [ioStep_answered awake there answers, same m.level]
    rfl
  | failed there same =>
    rw [same 0] at answers
    rw [ioStep_failed awake there answers, same m.level]
    rfl
  | refuted there report same =>
    have stopped := upheld (m.log [.io step true])
    rw [same m.level] at stopped
    exact absurd rfl stopped

/-- One exchange alone. -/
theorem ioSteps_single (surface : Surface) (step : IoStep) (bytes : List UInt8) (m : Machine) :
    ioSteps gd surface [step] bytes m = ioStep gd surface step m := by
  rw [ioSteps]
  cases ioStep gd surface step m <;> rfl

/-- A read is the exchange that the drivers answer. -/
theorem read_eq_ioStep (gd : Instrument) (d : Drivers) (len : Int) (m : Machine) :
    d.exchanges gd.contype (.rd len) m = ioStep gd (d.surface gd.contype) (.read len) m := by
  have awake : ∀ usec, IoStep.read len ≠ .usleep usec := by simp
  have present : IoStep.absent gd.contype (.read len) = false := by cases gd.contype <;> rfl
  have finalises : IoStep.finalises gd.contype (.read len) = true := by cases gd.contype <;> rfl
  rcases genericRead_cases d gd.contype len m.trace with failed | ⟨read, went⟩
  · have answer : (d.surface gd.contype).io m.trace (.read len) = none := by
      simp [Drivers.surface, Drivers.exchanges, failed 0, fatal]
    rw [ioStep_failed awake present answer, finalises, Drivers.exchanges, failed m.level]
    rfl
  · have answer : (d.surface gd.contype).io m.trace (.read len) =
        some (read.2.slice 0 read.1.toNat) := by
      simp [Drivers.surface, Drivers.exchanges, went 0]
    rw [ioStep_answered awake present answer, Drivers.exchanges, went m.level]
    rfl

/-- A read whose count is asserted to be short enough is that read, if the assertion holds. -/
theorem asserted_eq_ioStep (upheld : Upheld d gd.contype) {op : InstOp} {len : Int}
    (holds : Int → Prop) [DecidablePred holds] (bounded : ∀ m, d.exchanges gd.contype op m =
      (d.genericRead gd.contype len m).bind fun (count, mem) m =>
        (assertion (holds count) m).bind fun _ m => .done (mem.slice 0 count.toNat) m)
    (m : Machine) :
    d.exchanges gd.contype op m = ioStep gd (d.surface gd.contype) (.read len) m := by
  have still := upheld op m
  rw [bounded] at still ⊢
  rw [← read_eq_ioStep, Drivers.exchanges]
  rcases genericRead_cases d gd.contype len m.trace with failed | ⟨read, went⟩
  · rw [failed m.level]
    rfl
  · rw [went m.level] at still ⊢
    by_cases short : holds read.1
    · simp [assertion, short]
    · simp [assertion, short] at still

/-- A write is the exchange that the drivers answer, if no assertion fails. -/
theorem write_eq_ioStep (upheld : Upheld d gd.contype) (buf : List UInt8) (m : Machine) :
    noBytes (d.genericWrite gd.contype buf m) =
      ioStep gd (d.surface gd.contype) (.write buf) m :=
  (genericWrite_way d gd.contype buf m.trace).ioStep (upheld (.wrt buf) m) (by simp) rfl

/-- A clear is the exchange that the drivers answer, if no assertion fails. -/
theorem clr_eq_ioStep (upheld : Upheld d gd.contype) (usec : Nat) (m : Machine) :
    noBytes (d.clr gd.contype m) = ioStep gd (d.surface gd.contype) .clr m := by
  have stands : ∀ n, noBytes (d.clr gd.contype m) ≠ .exited sigabrt n := by
    have still := upheld (.clr usec) m
    rw [Drivers.exchanges] at still
    cases went : d.clr gd.contype m with
    | exited code n => simpa [went, noBytes] using still
    | _ => simp [noBytes]
  exact (clr_way d gd.contype m.trace).ioStep stands (by simp) rfl

/-- Without a failed assertion, what an operation does before it polls are its exchanges with the
answers of the drivers. -/
theorem exchanges_eq_ioSteps (upheld : Upheld d gd.contype) (op : InstOp) (m : Machine) :
    d.exchanges gd.contype op m = ioSteps gd (d.surface gd.contype) op.steps [] m := by
  cases op with
  | rd len => rw [read_eq_ioStep, InstOp.steps, ioSteps_single]
  | rdstr len =>
    rw [InstOp.steps, ioSteps_single]
    exact @asserted_eq_ioStep gd d upheld (.rdstr len) (len - 1) (· < len) _ (fun _ => rfl) m
  | rdf =>
    rw [InstOp.steps, ioSteps_single]
    exact @asserted_eq_ioStep gd d upheld .rdf 1023 (fun count => (toULong count).toNat < 1023) _
      (fun _ => rfl) m
  | wrt buf | wrtstr buf | wrtf buf =>
    rw [InstOp.steps, ioSteps_single]
    exact write_eq_ioStep upheld buf m
  | qry str len =>
    rw [InstOp.steps, ioSteps, ← write_eq_ioStep upheld, Drivers.exchanges, noBytes]
    cases d.genericWrite gd.contype str m with
    | done value n =>
      simp only [Outcome.bind_done, ioSteps_single]
      exact read_eq_ioStep gd d len n
    | exited code n => rfl
    | unfinished n => rfl
  | loc =>
    rw [InstOp.steps, ioSteps_single]
    exact (loc_way d gd.contype m.trace).ioStep (upheld .loc m) (by simp) rfl
  | clr usec =>
    rw [InstOp.steps, ioSteps, ← clr_eq_ioStep upheld usec, Drivers.exchanges, noBytes]
    cases d.clr gd.contype m <;> rfl
  | trg =>
    rw [InstOp.steps, ioSteps_single]
    exact (trg_way d gd.contype m.trace).ioStep (upheld .trg m) (by simp) rfl
  | rsp => rfl

/-- Without a failed assertion, an operation over some drivers is the operation with their
answers. -/
theorem performOp_eq_instOp (upheld : Upheld d gd.contype) (rounds depth : Nat) :
    performOp gd d rounds depth = instOp gd (d.surface gd.contype) rounds depth := by
  induction depth with
  | zero => rfl
  | succ depth ih =>
    funext op m
    rw [performOp, instOp, ih]
    cases op.label with
    | none => simp only [rsp_eq_instRsp]
    | some str => simp only [exchanges_eq_ioSteps upheld]

/-! ## Ends -/

/-- None of these events is a failure or the end of the instrument. -/
def Unharmed (events : List Event) : Prop :=
  ∀ event ∈ events, event ≠ .fini ∧ event ≠ .rspFailed ∧ ∀ step, event ≠ .io step false

/-- The events with which a program ends, after what has happened. -/
inductive Last (d : Drivers) (contype : Contype) (trace : List Event) : List Event → Prop
  /-- An exchange fails. -/
  | exchange (step : IoStep) :
      Last d contype trace (.io step false :: if step.finalises contype then [.fini] else [])
  /-- A serial poll of the instrument fails. -/
  | status : Last d contype trace (.rspFailed :: if contype = .vxi11 then [] else [.fini])
  /-- The callback finds a fault. -/
  | fault (err : Int) : Last d contype trace [.back err, .fini]
  /-- An assertion about an exchange fails. -/
  | refuted (step : IoStep) (report : ¬Asserted d contype trace step) :
      Last d contype trace [.io step true]

/-- A machine goes on to another without a failure. -/
def GoesOn (m n : Machine) : Prop := ∃ events, Unharmed events ∧ n.trace = m.trace ++ events

/-- A machine goes on to the end of a program. -/
def EndsWith (d : Drivers) (contype : Contype) (m n : Machine) : Prop :=
  ∃ events last, Unharmed events ∧ Last d contype (m.trace ++ events) last ∧
    n.trace = m.trace ++ (events ++ last)

/-- What a call comes to: no failure before it returns, or the end of the program. -/
def Stands {α : Type} (d : Drivers) (contype : Contype) (m : Machine)
    (outcome : Outcome Machine α) : Prop :=
  outcome.Meets (fun _ n => GoesOn m n) (fun _ n => EndsWith d contype m n) fun n => GoesOn m n

/-- Two stretches without a failure are one. -/
theorem Unharmed.append {first later : List Event} (unharmed : Unharmed first)
    (rest : Unharmed later) : Unharmed (first ++ later) := by
  intro event member
  rcases List.mem_append.mp member with early | late
  · exact unharmed event early
  · exact rest event late

/-- A machine goes on to itself. -/
theorem GoesOn.refl (m : Machine) : GoesOn m m :=
  ⟨[], fun _ member => absurd member List.not_mem_nil, (List.append_nil _).symm⟩

/-- What goes on twice goes on. -/
theorem GoesOn.trans {l m n : Machine} (first : GoesOn l m) (later : GoesOn m n) :
    GoesOn l n := by
  obtain ⟨events, unharmed, trace⟩ := first
  obtain ⟨more, rest, trace'⟩ := later
  exact ⟨events ++ more, unharmed.append rest, by rw [trace', trace, List.append_assoc]⟩

/-- What goes on and then ends, ends. -/
theorem GoesOn.ends {l m n : Machine} (first : GoesOn l m) (later : EndsWith d contype m n) :
    EndsWith d contype l n := by
  obtain ⟨events, unharmed, trace⟩ := first
  obtain ⟨more, last, rest, ends, trace'⟩ := later
  rw [trace, List.append_assoc] at ends
  refine ⟨events ++ more, last, unharmed.append rest, ends, ?_⟩
  rw [trace', trace, List.append_assoc, List.append_assoc]

/-- Events without a failure go on. -/
theorem goesOn_log (m : Machine) {events : List Event} (unharmed : Unharmed events) :
    GoesOn m (m.log events) := ⟨events, unharmed, rfl⟩

/-- Last events end. -/
theorem endsWith_log (m : Machine) {last : List Event} (ends : Last d contype m.trace last) :
    EndsWith d contype m (m.log last) :=
  ⟨[], last, fun _ member => absurd member List.not_mem_nil, (List.append_nil m.trace).symm ▸ ends,
    rfl⟩

/-- Two calls one after the other. -/
theorem Stands.bind {α β : Type} {m : Machine} {first : Outcome Machine α}
    {next : α → Machine → Outcome Machine β} (stands : Stands d contype m first)
    (rest : ∀ value n, Stands d contype n (next value n)) :
    Stands d contype m (first.bind next) := by
  cases first with
  | done value n =>
    apply (rest value n).mono
    · exact fun _ _ => GoesOn.trans stands
    · exact fun _ _ => GoesOn.ends stands
    · exact fun _ => GoesOn.trans stands
  | exited code n => exact stands
  | unfinished n => exact stands

/-- A call that begins later. -/
theorem Stands.after {α : Type} {m n : Machine} {outcome : Outcome Machine α}
    (first : GoesOn m n) (stands : Stands d contype n outcome) : Stands d contype m outcome := by
  apply stands.mono
  · exact fun _ _ => first.trans
  · exact fun _ _ => first.ends
  · exact fun _ => first.trans

/-- An exchange. -/
theorem Way.stands {step : IoStep} {run : Machine → Outcome Machine Unit} {m : Machine}
    (way : Way d contype step m.trace run) : Stands d contype m (run m) := by
  cases way with
  | absent none same =>
    rw [same m.level]
    exact GoesOn.refl m
  | completed there same =>
    rw [same m.level]
    exact goesOn_log m (by simp [Unharmed])
  | failed there same =>
    rw [same m.level]
    exact endsWith_log m (.exchange step)
  | refuted there report same =>
    rw [same m.level]
    exact endsWith_log m (.refuted step report)

/-- A read, and then an assertion about its count. -/
theorem genericRead_stands (len : Int) (m : Machine) (holds : Int → Prop) [DecidablePred holds]
    (checks : ∀ count, ¬holds count →
      ¬(count ≤ len ∧ (len = 1023 → (toULong count).toNat < 1023))) :
    Stands d contype m ((d.genericRead contype len m).bind fun (count, mem) m =>
      (assertion (holds count) m).bind fun _ m => .done (mem.slice 0 count.toNat) m) := by
  cases read : Inst.genericRead (d.transport contype m.trace) (Memory.ofBytes []) len with
  | error fault =>
    have finalises : IoStep.finalises contype (.read len) = true := by cases contype <;> rfl
    have ends := @Last.exchange d contype m.trace (.read len)
    rw [finalises] at ends
    rw [Drivers.genericRead, read]
    exact endsWith_log m ends
  | ok answer =>
    obtain ⟨count, mem⟩ := answer
    rw [Drivers.genericRead, read]
    by_cases upheld : holds count
    · simp only [Outcome.bind_done, assertion, upheld, if_true]
      exact goesOn_log m (by simp [Unharmed])
    · simp only [Outcome.bind_done, assertion, upheld, if_false]
      exact endsWith_log m (.refuted (.read len) fun asserted => checks count upheld
        (asserted _ read))

/-- A read without one. -/
theorem read_stands (len : Int) (m : Machine) :
    Stands d contype m (d.exchanges contype (.rd len) m) := by
  have asserted := @genericRead_stands d contype len m (fun _ => True) _
    fun _ none => absurd trivial none
  simpa [assertion, Drivers.exchanges] using asserted

/-- An exchange from which nothing is read. -/
theorem Way.stands_noBytes {step : IoStep} {run : Machine → Outcome Machine Unit} {m : Machine}
    (way : Way d contype step m.trace run) : Stands d contype m (noBytes (run m)) :=
  way.stands.bind fun _ n => GoesOn.refl n

/-- What an operation does before it polls. -/
theorem exchanges_stand (op : InstOp) (m : Machine) :
    Stands d contype m (d.exchanges contype op m) := by
  cases op with
  | rd len => exact read_stands len m
  | rdstr len => exact genericRead_stands (len - 1) m (· < len) fun _ above => by omega
  | rdf =>
    exact genericRead_stands 1023 m (fun count => (toULong count).toNat < 1023)
      fun _ full asserted => full (asserted.2 rfl)
  | wrt buf => exact (genericWrite_way d contype buf m.trace).stands_noBytes
  | wrtstr str => exact (genericWrite_way d contype str m.trace).stands_noBytes
  | wrtf str => exact (genericWrite_way d contype str m.trace).stands_noBytes
  | qry str len =>
    exact (genericWrite_way d contype str m.trace).stands.bind fun _ n => read_stands len n
  | loc => exact (loc_way d contype m.trace).stands_noBytes
  | clr usec =>
    exact (clr_way d contype m.trace).stands.bind fun _ n => goesOn_log n (by simp [Unharmed])
  | trg => exact (trg_way d contype m.trace).stands_noBytes
  | rsp => exact GoesOn.refl m

/-- `inst_rsp` -/
theorem instRsp_stands (gd : Instrument) (surface : Surface) (m : Machine) :
    Stands d gd.contype m (instRsp gd surface m) := by
  have ends := @Last.status d gd.contype m.trace
  unfold instRsp
  cases contype : gd.contype with
  | gpib =>
    cases surface.rsp m.trace with
    | none => exact endsWith_log m (by simpa [contype] using ends)
    | some answer => exact goesOn_log m (by simp [Unharmed])
  | vxi11 =>
    cases surface.rsp m.trace with
    | none => exact endsWith_log m (by simpa [contype] using ends)
    | some answer => exact goesOn_log m (by simp [Unharmed])
  | serial => exact goesOn_log m (by simp [Unharmed])
  | socket => exact goesOn_log m (by simp [Unharmed])

/-- What follows a result of the callback. -/
theorem afterCallback_stands {again : Nat → Machine → Outcome Machine Unit}
    (rest : ∀ loops n, Stands d contype n (again loops n)) (loops : Nat) (more : Bool) (err : Int)
    (m : Machine) : Stands d contype m (afterCallback gd again loops more err m) := by
  have back : GoesOn m (m.log [.back err]) := goesOn_log m (by simp [Unharmed])
  unfold afterCallback
  split
  · have slept : GoesOn (m.log [.back err])
        ((m.log [.back err]).log [.slept ((loops + 1) * gd.sfRetry)]) :=
      goesOn_log _ (by simp [Unharmed])
    exact (rest _ _).after (back.trans slept)
  · split
    · split
      · exact (rest _ _).after back
      · exact back
    · have ends := @endsWith_log d contype m _ (.fault err)
      simpa [Stands, Outcome.Meets, Machine.log] using ends

/-- The loop of `_serial_poll`, whatever the callback's operations do. -/
theorem pollLoop_stands {surface : Surface} {perform : InstOp → Machine → Outcome Machine Answer}
    (each : ∀ op n, Stands d gd.contype n (perform op n)) (sfFun : Spollfun) (str : String)
    (rounds loops : Nat) (m : Machine) :
    Stands d gd.contype m (pollLoop gd surface perform sfFun str rounds loops m) := by
  induction rounds generalizing loops m with
  | zero => exact GoesOn.refl m
  | succ rounds ih =>
    rw [pollLoop]
    apply (instRsp_stands gd surface m).bind
    intro answer n
    have called : Stands d gd.contype n
        ((sfFun n.trace answer.1 str).run perform (n.log [.call answer.1 str])) := by
      have start : GoesOn n (n.log [.call answer.1 str]) := goesOn_log n (by simp [Unharmed])
      apply Program.run_keeps _ _ start
      exact fun op l between => (each op l).after between
    exact called.bind fun err l => afterCallback_stands (fun loops k => ih loops k) loops _ err l

/-- `_serial_poll` -/
theorem serialPoll_stands {surface : Surface}
    {perform : InstOp → Machine → Outcome Machine Answer}
    (each : ∀ op n, Stands d gd.contype n (perform op n)) (rounds : Nat) (str : String)
    (m : Machine) : Stands d gd.contype m (serialPoll gd surface perform rounds str m) := by
  have level (m : Machine) (level : Int) : GoesOn m { m with level } :=
    ⟨[], fun _ member => absurd member List.not_mem_nil, (List.append_nil _).symm⟩
  unfold serialPoll
  refine Stands.bind (Stands.after (level m (m.level + 1)) ?_) fun _ n => level n _
  split
  · split
    · exact pollLoop_stands each _ str rounds 0 _
    · exact GoesOn.refl _
  · exact GoesOn.refl _

/-- An operation over some drivers. -/
theorem performOp_stands (rounds depth : Nat) (op : InstOp) (m : Machine) :
    Stands d gd.contype m (performOp gd d rounds depth op m) := by
  induction depth generalizing op m with
  | zero => exact GoesOn.refl m
  | succ depth ih =>
    rw [performOp]
    cases op.label with
    | none =>
      simp only [rsp_eq_instRsp]
      exact (instRsp_stands gd _ m).bind fun answer n => GoesOn.refl n
    | some str =>
      apply (exchanges_stand op m).bind
      intro bytes n
      exact (serialPoll_stands ih rounds str n).bind fun _ l => GoesOn.refl l

/-- No exit is reached that leaves `inst_fini` out: no VXI-11 device refuses to go to local control,
to clear or to give its status byte, and when the program ends right after an exchange that went
well, its report is as `inst.c` asserts. -/
def Spared (d : Drivers) (contype : Contype) (start events : List Event) : Prop :=
  (contype = .vxi11 →
    .io .loc false ∉ events ∧ .io .clr false ∉ events ∧ .rspFailed ∉ events) ∧
  ∀ before step, events = before ++ [.io step true] → Asserted d contype (start ++ before) step

/-- The last events finalise the instrument once, or not at all. -/
theorem Last.count_iff {start events last : List Event} (unharmed : Unharmed events)
    (ends : Last d contype (start ++ events) last) :
    (events ++ last).count .fini = 1 ↔ Spared d contype start (events ++ last) := by
  have open' : events.count .fini = 0 :=
    List.count_eq_zero.mpr fun member => (unharmed _ member).1 rfl
  have answered : .rspFailed ∉ events := fun member => (unharmed _ member).2.1 rfl
  have went (step : IoStep) : .io step false ∉ events := fun member =>
    (unharmed _ member).2.2 step rfl
  -- The events of a failure do not end with an exchange that went well.
  have other (failed : ∀ step, last.getLast? ≠ some (.io step true)) (nonempty : last ≠ []) :
      ∀ before step, events ++ last = before ++ [.io step true] →
        Asserted d contype (start ++ before) step := by
    intro before step same
    have final := congrArg List.getLast? same
    rw [List.getLast?_append_of_ne_nil _ nonempty, List.getLast?_concat] at final
    exact absurd final (failed step)
  rw [List.count_append, open', Spared]
  cases ends with
  | exchange step =>
    rw [and_iff_left (other (by cases contype <;> cases step <;> simp [IoStep.finalises])
      (List.cons_ne_nil _ _))]
    cases contype <;> cases step <;> simp [IoStep.finalises, went, answered]
  | status =>
    rw [and_iff_left (other (by cases contype <;> simp) (List.cons_ne_nil _ _))]
    cases contype <;> simp [went, answered]
  | fault err =>
    rw [and_iff_left (other (by simp) (List.cons_ne_nil _ _))]
    simp [went, answered]
  | refuted step report =>
    refine iff_of_false (by simp) fun spared => report ?_
    exact spared.2 events step rfl

end

/-! ## The end of an instrument -/

/-- The case VXI11 of `inst_fini`, given the reply to `destroy_link`: the RPCs made; `none` is an
abort of the program. -/
def finiVxi11 (v : Device) (cache : RpcCache) (reply : Option DeviceError) : Option (List Rpc) :=
  let (v, _, rpcs) := vxi11Close v cache reply
  (vxi11Destroy v).map fun _ => rpcs

/-- `inst_fini` destroys the link of an open handle and leaves it without channels. -/
theorem finiVxi11_opened {v : Device} {core : Client} (opened : Opened v core)
    (valid : v.magic = magic) (cache : RpcCache) (reply : Option DeviceError) :
    finiVxi11 v cache reply = some [(vxi11DestroyLink core v.lid reply).1] ∧
      Closed (vxi11Close v cache reply).1 := by
  have closed := vxi11Close_closed v cache reply
  have destroyed := closed.destroy valid
  have sent : (vxi11Close v cache reply).2.2 = [(vxi11DestroyLink core v.lid reply).1] := by
    simp [vxi11Close, unlink, opened.link, opened.channel]
  refine ⟨?_, closed⟩
  change ((vxi11Destroy (vxi11Close v cache reply).1).map fun _ =>
    (vxi11Close v cache reply).2.2) = _
  rw [destroyed, sent]
  rfl

/-- When `inst.c` ends the program, whatever the transport, the operation, the callback and the
reports of the drivers, it has called `inst_fini` exactly once, and so destroyed the link and
closed the channels of an open VXI-11 handle, if and only if no exit is reached that leaves it
out. -/
theorem exit_finalises_iff (gd : Instrument) (d : Drivers) (rounds depth : Nat) (op : InstOp)
    (m : Machine) {code : Int} {n : Machine}
    (exits : performOp gd d rounds depth op m = .exited code n) :
    (∃ events, n.trace = m.trace ++ events ∧
      (events.count .fini = 1 ↔ Spared d gd.contype m.trace events)) ∧
    ∀ v core cache reply, Opened v core → v.magic = magic →
      finiVxi11 v cache reply = some [(vxi11DestroyLink core v.lid reply).1] ∧
        Closed (vxi11Close v cache reply).1 := by
  constructor
  · have stands : Stands d gd.contype m (performOp gd d rounds depth op m) :=
      performOp_stands rounds depth op m
    rw [exits] at stands
    obtain ⟨events, last, unharmed, ends, trace⟩ := stands
    exact ⟨events ++ last, trace, ends.count_iff unharmed⟩
  · exact fun v core cache reply opened valid => finiVxi11_opened opened valid cache reply

/-- Drivers that report a failure of every call, on an open VXI-11 handle. -/
def failing : Drivers where
  ibrd _ := []
  ibwrt _ _ := (⟨false, true, false⟩, 0)
  ibloc _ := ⟨false, true, false⟩
  ibclr _ := ⟨false, true, false⟩
  ibtrg _ := ⟨false, true, false⟩
  ibrsp _ := (⟨false, true, false⟩, 0)
  handle _ := linked 4096
  deviceRead _ := ⟨none, [], none⟩
  deviceWrite _ := ⟨none, [], none⟩
  deviceLocal _ := none
  deviceClear _ := none
  deviceTrigger _ := none
  deviceReadstb _ := none
  reos _ := false
  read _ := [.failed]
  write _ := [.failed]

/-- A trigger that fails ends the program after `inst_fini`. -/
theorem exit_finalises_trigger :
    performOp ⟨.vxi11, none, 0⟩ failing 1 1 .trg ⟨0, []⟩ =
        .exited 1 ⟨0, [.io .trg false, .fini]⟩ ∧
      ∃ events, [.io .trg false, .fini] = [] ++ events ∧
        (events.count .fini = 1 ↔ Spared failing .vxi11 [] events) := by
  have exits : performOp ⟨.vxi11, none, 0⟩ failing 1 1 .trg ⟨0, []⟩ =
      .exited 1 ⟨0, [.io .trg false, .fini]⟩ := rfl
  exact ⟨exits, (exit_finalises_iff _ failing 1 1 .trg ⟨0, []⟩ exits).1⟩

/-- A VXI-11 device that does not go to local control ends the program without `inst_fini`. -/
theorem exit_unfinalised_local :
    performOp ⟨.vxi11, none, 0⟩ failing 1 1 .loc ⟨0, []⟩ = .exited 1 ⟨0, [.io .loc false]⟩ ∧
      [Event.io .loc false].count .fini ≠ 1 :=
  ⟨rfl, by decide⟩

/-! ## Serial writes -/

/-- The bytes that an operation writes and after which it reads nothing. -/
def InstOp.sends : InstOp → Option (List UInt8)
  | .wrt buf | .wrtstr buf | .wrtf buf => some buf
  | _ => none

/-- A write over the descriptor returns only when all bytes were accepted, in order and once each;
when they were not, the failure is reported and the program exits after `inst_fini`. -/
structure CompleteOrReported (d : Drivers) (buf : List UInt8) (m : Machine)
    (run : Outcome Machine Answer) : Prop where
  complete : ∀ answer n, run = .done answer n →
    (Util.writeAll buf (d.write m.trace)).accepted = buf
  reported : (Util.writeAll buf (d.write m.trace)).accepted ≠ buf →
    run = .exited 1 (m.log [.io (.write buf) false, .fini])

/-- What is logged stays in the trace of a call that begins later. -/
theorem Stands.first {α : Type} {d : Drivers} {contype : Contype} {m : Machine} {event : Event}
    {outcome : Outcome Machine α} (stands : Stands d contype (m.log [event]) outcome)
    {code : Int} {other : Event} {later : List Event}
    (exits : outcome = .exited code (m.log (other :: later))) : other = event := by
  rw [exits] at stands
  obtain ⟨events, last, -, -, trace⟩ := stands
  have same : m.trace ++ other :: later = m.trace ++ event :: (events ++ last) := by
    simpa [Machine.log] using trace
  exact (List.cons.inj (List.append_cancel_left same)).1

/-- `inst_wrt`, `inst_wrtstr` and `inst_wrtf` on a serial line return only when the descriptor
accepted all bytes and else report the failure and exit, exactly when the descriptor accepts all
bytes before a `write` fails or accepts nothing: they never report a failure. -/
theorem serialWrite_complete_iff (gd : Instrument) (serial : gd.contype = .serial) (d : Drivers)
    (rounds depth : Nat) {op : InstOp} {buf : List UInt8} (sends : op.sends = some buf)
    (m : Machine) :
    CompleteOrReported d buf m (performOp gd d rounds (depth + 1) op m) ↔
      Util.Suffice buf.length (d.write m.trace) := by
  have whole := (Util.writeAll_whole_iff buf (d.write m.trace)).2.2
  rw [← whole]
  constructor
  · intro promised
    by_contra short
    have exits := promised.reported short
    -- The write goes well as far as the code can tell.
    have wrote : d.exchanges gd.contype op m = .done [] (m.log [.io (.write buf) true]) := by
      have write : noBytes (d.genericWrite .serial buf m) =
          .done [] (m.log [.io (.write buf) true]) := by
        have never : ¬((Util.writeAll buf (d.write m.trace)).bc : Int) < 0 := by omega
        simp [Drivers.genericWrite, never, completed, noBytes]
      rw [serial]
      cases op <;> simp_all [InstOp.sends, Drivers.exchanges]
    have labelled : ∃ str, op.label = some str := by
      cases op <;> simp_all [InstOp.sends, InstOp.label]
    obtain ⟨str, label⟩ := labelled
    have polls : Stands d gd.contype (m.log [.io (.write buf) true])
        (performOp gd d rounds (depth + 1) op m) := by
      rw [performOp, label]
      simp only [wrote, Outcome.bind_done]
      exact (serialPoll_stands (performOp_stands rounds depth) rounds str _).bind
        fun _ l => GoesOn.refl l
    have same := polls.first exits
    simp at same
  · intro all
    exact ⟨fun _ _ _ => all, fun short => absurd all short⟩

/-- A descriptor that accepts one of two bytes and then the other, after an interruption. -/
theorem serialWrite_complete_two :
    let d : Drivers := { failing with write := fun _ => [.accepts 1, .interrupted, .accepts 1] }
    CompleteOrReported d [65, 10] ⟨0, []⟩
        (performOp ⟨.serial, none, 0⟩ d 1 1 (.wrtstr [65, 10]) ⟨0, []⟩) ↔
      Util.Suffice 2 [.accepts 1, .interrupted, .accepts 1] :=
  serialWrite_complete_iff ⟨.serial, none, 0⟩ rfl
    { failing with write := fun _ => [.accepts 1, .interrupted, .accepts 1] } 1 0 rfl ⟨0, []⟩

/-- A descriptor that accepts one of two bytes and then fails: `inst_wrtstr` returns. -/
theorem serialWrite_cut :
    let d : Drivers := { failing with write := fun _ => [.accepts 1, .failed] }
    let run := performOp ⟨.serial, none, 0⟩ d 1 1 (.wrtstr [65, 10]) ⟨0, []⟩
    ¬CompleteOrReported d [65, 10] ⟨0, []⟩ run ∧
      run = .done (.bytes []) ⟨0, [.io (.write [65, 10]) true]⟩ ∧
        (Util.writeAll [65, 10] (d.write [])).accepted = [65] := by
  refine ⟨fun promised => ?_, rfl, by decide⟩
  have all := promised.complete _ _ rfl
  exact absurd all (by decide)

end GpibUtils.Inst
