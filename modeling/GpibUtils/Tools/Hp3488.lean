import GpibUtils.CSem.Text
import GpibUtils.Inst.Session
import GpibUtils.Inst.Strings

/-!
# The status of hp3488

`hp3488` looks at every status byte its instrument gives, and reads the error register when the
byte says that there is an error. A fatal status or a fatal error ends the program. The result of
the error register replaces that of the other bits, so a request for service is forgotten when an
error that is not fatal comes with it (`hp3488_stops_iff`).
-/

namespace GpibUtils.Hp3488

open CSem Inst Interaction

/-! ## The code -/

/-- `HP3488_STATUS_SRQ_BUTTON` -/
def statusSrqButton : UInt8 := 0x08
/-- `HP3488_STATUS_READY` -/
def statusReady : UInt8 := 0x10
/-- `HP3488_STATUS_ERROR` -/
def statusError : UInt8 := 0x20
/-- `HP3488_STATUS_RQS` -/
def statusRqs : UInt8 := 0x40

/-- `HP3488_ERROR_SYNTAX` -/
def errorSyntax : UInt8 := 0x1
/-- `HP3488_ERROR_EXEC` -/
def errorExec : UInt8 := 0x2
/-- `HP3488_ERROR_TOOFAST` -/
def errorToofast : UInt8 := 0x4
/-- `HP3488_ERROR_LOGIC` -/
def errorLogic : UInt8 := 0x8
/-- `HP3488_ERROR_POWER` -/
def errorPower : UInt8 := 0x10

/-- A status byte that the callback was given, `lerr_flag` at that time, and the value of the error
register if it was read for it. -/
structure Polled where
  sb : UInt8
  lerrFlag : Int
  register : Option UInt8
  deriving DecidableEq

/-- The variables of the callback: `lerr_flag`, and what was polled so far. -/
structure Vars where
  lerrFlag : Int
  polled : List Polled

/-- The bytes of a string of the source. -/
def bytesOf (string : String) : List UInt8 := string.toList.map Char.toUInt8

/-- `strtoul` of the string that `inst_rdstr` makes of a response, kept in an `unsigned char`. -/
def registerOf : Answer → UInt8
  | .bytes response => (strtoul ((textOf response).map charOf)).1.toUInt8
  | .status _ _ => 0

/-- The tests of `_check_error`: its result, and `lerr_flag` after them. -/
def checkRegister (lerrFlag : Int) (err : UInt8) : Int × Int :=
  let res := 0
  let res := if err &&& errorSyntax ≠ 0 then 1 else res
  let res := if err &&& errorExec ≠ 0 then 1 else res
  let res := if err &&& errorToofast ≠ 0 then 1 else res
  let res := if err &&& errorPower ≠ 0 then 1 else res
  if err &&& errorLogic ≠ 0 then if lerrFlag = 0 then (res, 1) else (1, lerrFlag)
  else (res, lerrFlag)

/-- `_check_error`: its result, `lerr_flag` after it, and the register. -/
def checkError (lerrFlag : Int) : Program InstOp (fun _ => Answer) (Int × Int × UInt8) :=
  .call (.wrtstr (bytesOf "ERROR")) fun _ => .call (.rdstr 64) fun answer =>
    let err := registerOf answer
    .result ((checkRegister lerrFlag err).1, (checkRegister lerrFlag err).2, err)

/-- The end of `_interpret_status`. -/
def retryUnready (status : UInt8) (err : Int) : Int :=
  if err = 0 ∧ status &&& statusReady = 0 then -1 else err

/-- `_interpret_status` -/
def interpretStatus : Callback Vars := fun vars status _ =>
  let err : Int := 0
  let err := if status &&& statusSrqButton ≠ 0 then 1 else err
  let err := if status &&& statusRqs ≠ 0 then 1 else err
  if status &&& statusError ≠ 0 then
    (checkError vars.lerrFlag).bind fun (err, lerrFlag, register) =>
      .result (retryUnready status err,
        ⟨lerrFlag, vars.polled ++ [⟨status, vars.lerrFlag, some register⟩]⟩)
  else
    .result (retryUnready status err,
      ⟨vars.lerrFlag, vars.polled ++ [⟨status, vars.lerrFlag, none⟩]⟩)

/-- An operation of `hp3488`. -/
def hp3488Op (gd : Instrument) (surface : Surface) (rounds depth : Nat) (op : InstOp) (m : Machine)
    (lerrFlag : Int) : Outcome (Session Vars) Answer :=
  sessionOp gd surface interpretStatus rounds depth op ⟨m, ⟨lerrFlag, []⟩⟩

/-! ## Fatal statuses -/

/-- The register shows a logic error. -/
def Polled.logic (p : Polled) : Bool := p.register.any fun register => register &&& errorLogic ≠ 0

/-- How many logic errors are tolerated. -/
def allowance (lerrFlag : Int) : Nat := if lerrFlag = 0 then 1 else 0

/-- No status byte asked for service, and no register showed an error, but as many logic errors as
are tolerated. -/
structure Harmless (lerrFlag : Int) (polled : List Polled) : Prop where
  button : ∀ p ∈ polled, p.sb &&& statusSrqButton = 0
  rqs : ∀ p ∈ polled, p.sb &&& statusRqs = 0
  register : ∀ p ∈ polled, ∀ register ∈ p.register, register &&& errorSyntax = 0 ∧
    register &&& errorExec = 0 ∧ register &&& errorToofast = 0 ∧ register &&& errorPower = 0
  logic : polled.countP Polled.logic ≤ allowance lerrFlag

/-- What an operation promises: it returns only when the last status byte is READY and nothing
fatal was polled; it does not go on polling after that either; and it ends the program with
another status than zero. -/
structure StopsAtFatal (lerrFlag : Int) (outcome : Outcome (Session Vars) Answer) : Prop where
  ready : ∀ answer s, outcome = .done answer s →
    ∃ last ∈ s.vars.polled.getLast?, last.sb &&& statusReady ≠ 0
  returns : ∀ answer s, outcome = .done answer s → Harmless lerrFlag s.vars.polled
  goesOn : ∀ s, outcome = .unfinished s → Harmless lerrFlag s.vars.polled
  exits : ∀ code s, outcome = .exited code s → code ≠ 0

/-- A request for service comes with an error whose register shows nothing fatal. -/
def Polled.Masked (p : Polled) : Prop :=
  p.sb &&& statusError ≠ 0 ∧ (p.sb &&& statusSrqButton ≠ 0 ∨ p.sb &&& statusRqs ≠ 0) ∧
    ∀ register ∈ p.register, (checkRegister p.lerrFlag register).1 = 0

/-- The session in which something ends, or still is. -/
def session : Outcome (Session Vars) Answer → Session Vars
  | .done _ s => s
  | .exited _ s => s
  | .unfinished s => s

/-! ## Rounds -/

/-- The callback found no fault in a status byte. -/
structure Polled.Passed (p : Polled) : Prop where
  asked : p.sb &&& statusError ≠ 0 → ∃ register ∈ p.register,
    register &&& errorSyntax = 0 ∧ register &&& errorExec = 0 ∧ register &&& errorToofast = 0 ∧
      register &&& errorPower = 0 ∧ (checkRegister p.lerrFlag register).1 = 0
  unasked : p.sb &&& statusError = 0 →
    p.register = none ∧ p.sb &&& statusSrqButton = 0 ∧ p.sb &&& statusRqs = 0

/-- While a poll goes on, the callback has found no fault, and every logic error has used up a
tolerated one. -/
structure Going (lerrFlag : Int) (vars : Vars) : Prop where
  passed : ∀ p ∈ vars.polled, p.Passed
  tolerated : vars.polled.countP Polled.logic + allowance vars.lerrFlag = allowance lerrFlag

/-- The last status byte is READY. -/
def Ready (vars : Vars) : Prop :=
  ∃ last ∈ vars.polled.getLast?, last.sb &&& statusReady ≠ 0

/-- The register shows nothing fatal. -/
theorem checkRegister_eq_zero {lerrFlag : Int} {err : UInt8} :
    (checkRegister lerrFlag err).1 = 0 ↔ err &&& errorSyntax = 0 ∧ err &&& errorExec = 0 ∧
      err &&& errorToofast = 0 ∧ err &&& errorPower = 0 ∧
        (err &&& errorLogic ≠ 0 → lerrFlag = 0) := by
  unfold checkRegister
  split_ifs <;> simp_all

/-- Its result is zero or one. -/
theorem checkRegister_result (lerrFlag : Int) (err : UInt8) :
    (checkRegister lerrFlag err).1 = 0 ∨ (checkRegister lerrFlag err).1 = 1 := by
  unfold checkRegister
  split_ifs <;> simp

/-- A logic error that is tolerated is the last one. -/
theorem checkRegister_allowance {lerrFlag : Int} {err : UInt8}
    (good : (checkRegister lerrFlag err).1 = 0) :
    (if err &&& errorLogic ≠ 0 then 1 else 0) + allowance (checkRegister lerrFlag err).2 =
      allowance lerrFlag := by
  have tolerated := (checkRegister_eq_zero.mp good).2.2.2.2
  unfold checkRegister
  split_ifs <;> simp_all [allowance]

/-- A status byte is not READY, or the result is not zero. -/
theorem retryUnready_eq_zero {status : UInt8} {err : Int} :
    retryUnready status err = 0 ↔ err = 0 ∧ status &&& statusReady ≠ 0 := by
  unfold retryUnready
  split_ifs <;> simp_all

/-- Another try is asked for only without a fault. -/
theorem retryUnready_eq_neg_one {status : UInt8} {err : Int} (verdict : err = 0 ∨ err = 1)
    (again : retryUnready status err = -1) : err = 0 := by
  unfold retryUnready at again
  split_ifs at again <;> omega

/-- A result that is neither is a fault. -/
theorem retryUnready_fault {status : UInt8} {err : Int} (verdict : err = 0 ∨ err = 1)
    (settled : retryUnready status err ≠ -1) (faulty : retryUnready status err ≠ 0) :
    retryUnready status err = 1 := by
  unfold retryUnready at settled faulty ⊢
  split_ifs at settled faulty ⊢ <;> omega

/-- A status byte in which the callback finds no fault. -/
theorem Going.next {lerrFlag : Int} {vars : Vars} (going : Going lerrFlag vars) {p : Polled}
    (passed : p.Passed) {flag : Int}
    (tolerated : (if p.logic then 1 else 0) + allowance flag = allowance vars.lerrFlag) :
    Going lerrFlag ⟨flag, vars.polled ++ [p]⟩ := by
  constructor
  · intro other member
    rcases List.mem_append.mp member with early | last
    · exact going.passed other early
    · rw [List.mem_singleton.mp last]
      exact passed
  · have before := going.tolerated
    have counted : (vars.polled ++ [p]).countP Polled.logic =
        vars.polled.countP Polled.logic + if p.logic then 1 else 0 := by
      rw [List.countP_append, List.countP_singleton]
    show (vars.polled ++ [p]).countP Polled.logic + allowance flag = allowance lerrFlag
    omega

/-- A READY status byte is the last one. -/
theorem ready_concat {flag : Int} {polled : List Polled} {p : Polled}
    (ready : p.sb &&& statusReady ≠ 0) : Ready ⟨flag, polled ++ [p]⟩ :=
  ⟨p, by simp, ready⟩

/-- What the results of the callback mean for its variables. -/
theorem verdict_meets {lerrFlag err flag : Int} {vars : Vars} {p : Polled}
    (verdict : err = 0 ∨ err = 1) (good : err = 0 → Going lerrFlag ⟨flag, vars.polled ++ [p]⟩) :
    (retryUnready p.sb err = -1 → Going lerrFlag ⟨flag, vars.polled ++ [p]⟩) ∧
      (retryUnready p.sb err = 0 → Going lerrFlag ⟨flag, vars.polled ++ [p]⟩ ∧
        Ready ⟨flag, vars.polled ++ [p]⟩) ∧
      (retryUnready p.sb err ≠ -1 → retryUnready p.sb err ≠ 0 → retryUnready p.sb err = 1) := by
  refine ⟨fun again => good (retryUnready_eq_neg_one verdict again), ?_,
    retryUnready_fault verdict⟩
  intro fine
  have both := retryUnready_eq_zero.mp fine
  exact ⟨good both.1, ready_concat both.2⟩

/-- The verdict of the bits of a status byte other than that of an error. -/
def requested (sb : UInt8) : Int :=
  if sb &&& statusRqs ≠ 0 then 1 else if sb &&& statusSrqButton ≠ 0 then 1 else 0

/-- It is zero or one. -/
theorem requested_result (sb : UInt8) : requested sb = 0 ∨ requested sb = 1 := by
  unfold requested
  split_ifs <;> simp

/-- It is zero when nothing asks for service. -/
theorem requested_eq_zero {sb : UInt8} :
    requested sb = 0 ↔ sb &&& statusSrqButton = 0 ∧ sb &&& statusRqs = 0 := by
  unfold requested
  split_ifs <;> simp_all

/-- The callback for a status byte without an error: the other bits decide. -/
theorem interpretStatus_unasked (vars : Vars) {sb : UInt8} (error : sb &&& statusError = 0)
    (str : String) :
    interpretStatus vars sb str = .result (retryUnready sb (requested sb),
      ⟨vars.lerrFlag, vars.polled ++ [⟨sb, vars.lerrFlag, none⟩]⟩) := by
  simp [interpretStatus, requested, error]

/-- The callback for a status byte with an error: the register decides. -/
theorem interpretStatus_asked (vars : Vars) {sb : UInt8} (error : sb &&& statusError ≠ 0)
    (str : String) :
    interpretStatus vars sb str =
      .call (.wrtstr (bytesOf "ERROR")) fun _ => .call (.rdstr 64) fun answer =>
        .result (retryUnready sb (checkRegister vars.lerrFlag (registerOf answer)).1,
          ⟨(checkRegister vars.lerrFlag (registerOf answer)).2,
            vars.polled ++ [⟨sb, vars.lerrFlag, some (registerOf answer)⟩]⟩) := by
  simp [interpretStatus, error, checkError, Program.bind]

/-- Every call of the callback: the other bits decide when there is no error, and the error register
when there is one. -/
theorem interpretStatus_round (gd : Instrument) (surface : Surface) (rounds depth : Nat)
    (str : String) (lerrFlag : Int) :
    EachRound interpretStatus (sessionOp gd surface interpretStatus rounds (depth + 1)) str
      (Going lerrFlag) Ready (· = 1) := by
  intro s sb nested going
  by_cases error : sb &&& statusError = 0
  · rw [interpretStatus_unasked s.vars error]
    let p : Polled := ⟨sb, s.vars.lerrFlag, none⟩
    refine ⟨rfl, @verdict_meets lerrFlag _ _ s.vars p (requested_result sb) fun quiet => ?_⟩
    apply going.next
    · exact ⟨fun asked => absurd error asked, fun _ => ⟨rfl, requested_eq_zero.mp quiet⟩⟩
    · simp [Polled.logic, p]
  · have inside : (s.log [.call sb str]).machine.level ≠ 0 := nested
    rw [interpretStatus_asked s.vars error, Program.run]
    apply (sessionOp_nested rounds depth (.wrtstr (bytesOf "ERROR")) inside).bind
    intro written n wrote
    have inner : n.machine.level ≠ 0 := by rwa [wrote.1]
    rw [Program.run]
    apply (sessionOp_nested rounds depth (.rdstr 64) inner).bind
    intro answer l read
    have level : l.machine.level = s.machine.level := read.1.trans wrote.1
    let register := registerOf answer
    let p : Polled := ⟨sb, s.vars.lerrFlag, some register⟩
    refine ⟨level, @verdict_meets lerrFlag _ _ s.vars p
      (checkRegister_result s.vars.lerrFlag register) fun good => ?_⟩
    have tests := checkRegister_eq_zero.mp good
    apply going.next
    · exact ⟨fun _ => ⟨register, rfl, tests.1, tests.2.1, tests.2.2.1, tests.2.2.2.1, good⟩,
        fun unasked => absurd unasked error⟩
    · have tolerated := checkRegister_allowance good
      simpa [Polled.logic, p] using tolerated

/-- While nothing was masked, what passed is harmless, and the other way round. -/
theorem Going.harmless_iff {lerrFlag : Int} {vars : Vars} (going : Going lerrFlag vars) :
    Harmless lerrFlag vars.polled ↔ ∀ p ∈ vars.polled, ¬p.Masked := by
  constructor
  · rintro harmless p member ⟨-, button | rqs, -⟩
    · exact button (harmless.button p member)
    · exact rqs (harmless.rqs p member)
  · intro unmasked
    have each : ∀ p ∈ vars.polled, p.sb &&& statusSrqButton = 0 ∧ p.sb &&& statusRqs = 0 := by
      intro p member
      have passed := going.passed p member
      by_cases error : p.sb &&& statusError = 0
      · exact (passed.unasked error).2
      · obtain ⟨register, read, -, -, -, -, good⟩ := passed.asked error
        have read : p.register = some register := read
        by_contra asks
        apply unmasked p member
        refine ⟨error, ?_, ?_⟩
        · by_contra none
          exact asks (by simpa using none)
        · rw [read]
          intro _ same
          cases same
          exact good
    have tolerated := going.tolerated
    refine ⟨fun p member => (each p member).1, fun p member => (each p member).2, ?_, by omega⟩
    intro p member register read
    have passed := going.passed p member
    by_cases error : p.sb &&& statusError = 0
    · rw [(passed.unasked error).1] at read
      cases read
    · obtain ⟨other, same, syn, exec, toofast, power, -⟩ := passed.asked error
      have equal : other = register := Option.mem_unique same read
      rw [← equal]
      exact ⟨syn, exec, toofast, power⟩

/-- What a poll comes to: it returns with a READY status byte, it ends the program with status one,
or it goes on, without a fault in what it has passed. -/
def Kept (lerrFlag : Int) (run : Outcome (Session Vars) Answer) : Prop :=
  run.Meets (fun _ s => Going lerrFlag s.vars ∧ Ready s.vars) (fun code _ => code = 1)
    fun s => Going lerrFlag s.vars

/-- Before the program has ended there is no fault. -/
theorem Kept.going {lerrFlag : Int} {run : Outcome (Session Vars) Answer}
    (kept : Kept lerrFlag run) (still : ∀ code s, run ≠ .exited code s) :
    Going lerrFlag (session run).vars := by
  cases run with
  | done answer s => exact kept.1
  | exited code s => exact absurd rfl (still code s)
  | unfinished s => exact kept

/-- The promise, of an operation that returns. -/
theorem stopsAtFatal_done {lerrFlag : Int} {answer : Answer} {s : Session Vars} :
    StopsAtFatal lerrFlag (.done answer s) ↔ Ready s.vars ∧ Harmless lerrFlag s.vars.polled := by
  constructor
  · exact fun stops => ⟨stops.ready answer s rfl, stops.returns answer s rfl⟩
  · rintro ⟨ready, harmless⟩
    exact ⟨by rintro _ _ ⟨⟩; exact ready, by rintro _ _ ⟨⟩; exact harmless, by simp, by simp⟩

/-- The promise, of an operation that goes on. -/
theorem stopsAtFatal_unfinished {lerrFlag : Int} {s : Session Vars} :
    StopsAtFatal lerrFlag (.unfinished s) ↔ Harmless lerrFlag s.vars.polled := by
  constructor
  · exact fun stops => stops.goesOn s rfl
  · intro harmless
    exact ⟨by simp, by simp, by rintro _ ⟨⟩; exact harmless, by simp⟩

/-- The promise, of an operation that ends the program. -/
theorem stopsAtFatal_exited {lerrFlag : Int} {code : Int} {s : Session Vars} :
    StopsAtFatal lerrFlag (.exited code s) ↔ code ≠ 0 := by
  constructor
  · exact fun stops => stops.exits code s rfl
  · intro fault
    exact ⟨by simp, by simp, by simp, by rintro _ _ ⟨⟩; exact fault⟩

/-- Before the program has ended, the promise is that nothing fatal was polled. -/
theorem Kept.stops_iff {lerrFlag : Int} {run : Outcome (Session Vars) Answer}
    (kept : Kept lerrFlag run) :
    StopsAtFatal lerrFlag run ↔
      ((∀ code s, run ≠ .exited code s) → Harmless lerrFlag (session run).vars.polled) := by
  cases run with
  | done answer s =>
    have ready : Ready s.vars := kept.2
    simp [stopsAtFatal_done, ready, session]
  | exited code s =>
    have one : code = 1 := kept
    simp [stopsAtFatal_exited, one]
  | unfinished s => simp [stopsAtFatal_unfinished, session]

/-- Every operation that polls. -/
theorem hp3488Op_kept (gd : Instrument) (surface : Surface) (rounds depth : Nat) {op : InstOp}
    (polls : op.label ≠ none) (trace : List Event) (lerrFlag : Int) :
    Kept lerrFlag (hp3488Op gd surface rounds (depth + 2) op ⟨0, trace⟩ lerrFlag) := by
  have ⟨str, label⟩ := Option.ne_none_iff_exists'.mp polls
  have start : Going lerrFlag ⟨lerrFlag, []⟩ :=
    ⟨fun _ member => absurd member List.not_mem_nil, Nat.zero_add _⟩
  exact @sessionOp_meets Vars gd surface interpretStatus (depth + 1) rounds op str label
    (Going lerrFlag) Ready (· = 1) rfl
    (interpretStatus_round gd surface rounds depth str lerrFlag) ⟨⟨0, trace⟩, ⟨lerrFlag, []⟩⟩ rfl
    start

/-- `hp3488` never goes on after a fatal status when no request for service comes with an error
whose register shows nothing fatal; and as long as the program has not ended, only then. -/
theorem hp3488_stops_iff (gd : Instrument) (surface : Surface) (rounds depth : Nat) (op : InstOp)
    (polls : op.label ≠ none) (trace : List Event) (lerrFlag : Int) :
    let run := hp3488Op gd surface rounds (depth + 2) op ⟨0, trace⟩ lerrFlag
    ((∀ p ∈ (session run).vars.polled, ¬p.Masked) → StopsAtFatal lerrFlag run) ∧
      ((∀ code s, run ≠ .exited code s) → StopsAtFatal lerrFlag run →
        ∀ p ∈ (session run).vars.polled, ¬p.Masked) := by
  intro run
  have kept : Kept lerrFlag run := hp3488Op_kept gd surface rounds depth polls trace lerrFlag
  constructor
  · intro unmasked
    exact kept.stops_iff.mpr fun still => (kept.going still).harmless_iff.mpr unmasked
  · intro still stops
    exact (kept.going still).harmless_iff.mp (kept.stops_iff.mp stops still)

/-- An instrument that is READY with a request for service and an error, whose register is zero. -/
def asksWithError : Surface := ⟨fun _ _ => some [48], fun _ => some (0x70, false)⟩

/-- A trigger of an instrument that is READY stops at nothing. -/
theorem hp3488_stops_ready :
    let surface : Surface := ⟨fun _ _ => some [], fun _ => some (0x10, false)⟩
    StopsAtFatal 1 (hp3488Op ⟨.gpib, none, 10⟩ surface 1 2 .trg ⟨0, []⟩ 1) := by
  apply (hp3488_stops_iff ⟨.gpib, none, 10⟩ ⟨fun _ _ => some [], fun _ => some (0x10, false)⟩ 1 0
    .trg (Option.some_ne_none _) [] 1).1
  intro p member
  have only : p = ⟨0x10, 1, none⟩ := List.mem_singleton.mp member
  rw [only]
  exact fun masked => masked.1 (by decide)

/-- An operation of an instrument that asks for service with an error returns. -/
theorem hp3488_forgets_rqs :
    let run := hp3488Op ⟨.gpib, none, 10⟩ asksWithError 1 2 .trg ⟨0, []⟩ 1
    ¬StopsAtFatal 1 run ∧ ∃ answer s, run = .done answer s ∧
      s.vars.polled = [⟨0x70, 1, some 0⟩] := by
  intro run
  have returns : ∃ s, run = .done (.bytes [48]) s ∧ s.vars.polled = [⟨0x70, 1, some 0⟩] :=
    ⟨_, rfl, by decide⟩
  obtain ⟨s, returned, polled⟩ := returns
  refine ⟨fun stops => ?_, .bytes [48], s, returned, polled⟩
  have rqs := (stops.returns _ _ returned).rqs ⟨0x70, 1, some 0⟩ (by simp [polled])
  exact absurd rqs (by decide)

end GpibUtils.Hp3488
