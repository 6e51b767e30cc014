import GpibUtils.Inst.Poll

/-!
# Callbacks with variables

An application's callback keeps variables of its own from one status byte to the next. A session is
an instrument in use together with them; the polls here are those of `Poll`, for which a callback
without variables is one as it is there (`sessionOp_erased`).
-/

namespace GpibUtils.Inst

open Interaction

/-! ## The code -/

/-- An instrument in use, and the variables of the callback. -/
structure Session (σ : Type) where
  machine : Machine
  vars : σ

/-- What a callback does with its variables for a status byte and the name of the operation: a
program, its result, and the variables after it. -/
abbrev Callback (σ : Type) := σ → UInt8 → String → Program InstOp (fun _ => Answer) (Int × σ)

variable {σ : Type}

namespace Session

/-- Something happens. -/
def log (s : Session σ) (events : List Event) : Session σ :=
  { s with machine := s.machine.log events }

@[simp] theorem log_mk (m : Machine) (vars : σ) (events : List Event) :
    log ⟨m, vars⟩ events = ⟨m.log events, vars⟩ := rfl

/-- What happens to the instrument alone. -/
def keep {α : Type} (s : Session σ) : Outcome Machine α → Outcome (Session σ) α
  | .done value m => .done value { s with machine := m }
  | .exited code m => .exited code { s with machine := m }
  | .unfinished m => .unfinished { s with machine := m }

end Session

/-- What `_serial_poll` makes of the callback's result. -/
def afterResult (gd : Instrument)
    (again : (loops : Nat) → Session σ → Outcome (Session σ) Unit) (loops : Nat) (more : Bool)
    (err : Int) (s : Session σ) : Outcome (Session σ) Unit :=
  let s := s.log [.back err]
  if err = -1 then again (loops + 1) (s.log [.slept ((loops + 1) * gd.sfRetry)])
  else if err = 0 then if more then again loops s else .done () s
  else .exited err (s.log [.fini])

/-- The loop of `_serial_poll`, for at most so many rounds. -/
def sessionLoop (gd : Instrument) (surface : Surface)
    (perform : InstOp → Session σ → Outcome (Session σ) Answer) (callback : Callback σ)
    (str : String) : (rounds : Nat) → (loops : Nat) → Session σ → Outcome (Session σ) Unit
  | 0, _, s => .unfinished s
  | rounds + 1, loops, s =>
    (s.keep (instRsp gd surface s.machine)).bind fun (sb, more) s =>
      ((callback s.vars sb str).run perform (s.log [.call sb str])).bind fun (err, vars) s =>
        afterResult gd (sessionLoop gd surface perform callback str rounds) loops more err
          { s with vars }

/-- `_serial_poll` -/
def sessionPoll (gd : Instrument) (surface : Surface)
    (perform : InstOp → Session σ → Outcome (Session σ) Answer) (callback : Callback σ)
    (rounds : Nat) (str : String) (s : Session σ) : Outcome (Session σ) Unit :=
  let s := { s with machine.level := s.machine.level + 1 }
  let polled : Outcome (Session σ) Unit :=
    if s.machine.level = 1 then sessionLoop gd surface perform callback str rounds 0 s
    else .done () s
  polled.bind fun _ s => .done () { s with machine.level := s.machine.level - 1 }

/-- An operation of an instrument with a callback, where calls may nest so deep and each poll goes
on for at most so many rounds. -/
def sessionOp (gd : Instrument) (surface : Surface) (callback : Callback σ) (rounds : Nat) :
    (depth : Nat) → InstOp → Session σ → Outcome (Session σ) Answer
  | 0, _, s => .unfinished s
  | depth + 1, op, s =>
    match op.label with
    | none =>
      (s.keep (instRsp gd surface s.machine)).bind fun (sb, more) s => .done (.status sb more) s
    | some str =>
      (s.keep (ioSteps gd surface op.steps [] s.machine)).bind fun bytes s =>
        (sessionPoll gd surface (sessionOp gd surface callback rounds depth) callback rounds str
          s).bind fun _ s => .done (.bytes bytes) s

/-! ## Callbacks without variables -/

/-- The instrument alone. -/
def erase {α : Type} : Outcome (Session Unit) α → Outcome Machine α
  | .done value s => .done value s.machine
  | .exited code s => .exited code s.machine
  | .unfinished s => .unfinished s.machine

/-- A callback without variables. -/
def Callback.erased (callback : Callback Unit) : Spollfun := fun _ sb str =>
  (callback () sb str).bind fun (err, _) => .result err

/-- Of two parts, the instrument of the first and then that of the second. -/
theorem erase_bind {α β : Type} {first : Outcome (Session Unit) α}
    {next : α → Session Unit → Outcome (Session Unit) β} :
    erase (first.bind next) = (erase first).bind fun value m => erase (next value ⟨m, ()⟩) := by
  cases first <;> rfl

/-- What happens to the instrument alone. -/
theorem erase_keep {α : Type} (s : Session Unit) (outcome : Outcome Machine α) :
    erase (s.keep outcome) = outcome := by
  cases outcome <;> rfl

/-- A program whose operations are alike. -/
theorem erase_run {ρ : Type} {perform : InstOp → Session Unit → Outcome (Session Unit) Answer}
    {perform' : InstOp → Machine → Outcome Machine Answer}
    (each : ∀ op m, erase (perform op ⟨m, ()⟩) = perform' op m)
    (program : Program InstOp (fun _ => Answer) (Int × ρ)) (m : Machine) :
    (program.bind fun (err, _) => .result err).run perform' m =
      (erase (program.run perform ⟨m, ()⟩)).bind fun result m => .done result.1 m := by
  induction program generalizing m with
  | result value => rfl
  | call op next ih =>
    simp only [Program.bind, Program.run, erase_bind, each]
    cases perform' op m with
    | done answer n => exact ih answer n
    | exited code n => rfl
    | unfinished n => rfl

section
variable {gd : Instrument} {surface : Surface} {callback : Callback Unit}

/-- The loop of a poll with a callback without variables. -/
theorem sessionLoop_erased {perform : InstOp → Session Unit → Outcome (Session Unit) Answer}
    {perform' : InstOp → Machine → Outcome Machine Answer}
    (each : ∀ op m, erase (perform op ⟨m, ()⟩) = perform' op m) (str : String)
    (rounds loops : Nat) (m : Machine) :
    erase (sessionLoop gd surface perform callback str rounds loops ⟨m, ()⟩) =
      pollLoop gd surface perform' callback.erased str rounds loops m := by
  induction rounds generalizing loops m with
  | zero => rfl
  | succ rounds ih =>
    rw [sessionLoop, pollLoop, erase_bind, erase_keep]
    congr 1
    funext answer n
    simp only [Callback.erased, erase_run each, erase_bind, Session.log_mk]
    cases erase ((callback () answer.1 str).run perform ⟨n.log [.call answer.1 str], ()⟩) with
    | exited code l => rfl
    | unfinished l => rfl
    | done result l =>
      simp only [Outcome.bind_done, afterResult, afterCallback]
      split
      · exact ih _ _
      · split
        · split
          · exact ih _ _
          · rfl
        · rfl

/-- An operation with a callback without variables is that operation without them. -/
theorem sessionOp_erased (installed : gd.sfFun = some callback.erased) (rounds depth : Nat)
    (op : InstOp) (m : Machine) :
    erase (sessionOp gd surface callback rounds depth op ⟨m, ()⟩) =
      instOp gd surface rounds depth op m := by
  induction depth generalizing op m with
  | zero => rfl
  | succ depth ih =>
    rw [sessionOp, instOp]
    cases op.label with
    | none => simp only [erase_bind, erase_keep]; rfl
    | some str =>
      simp only [erase_bind, erase_keep]
      congr 1
      funext bytes n
      congr 1
      simp only [sessionPoll, serialPoll, installed, erase_bind]
      split
      · rw [← sessionLoop_erased ih]
        rfl
      · rfl

end

/-! ## Rules -/

section
variable {gd : Instrument} {surface : Surface} {callback : Callback σ}

/-- An exchange that fails ends the program with status 1; one that goes well keeps the level. -/
theorem ioSteps_meets (gd : Instrument) (surface : Surface) (steps : List IoStep)
    (bytes : List UInt8) (m : Machine) :
    (ioSteps gd surface steps bytes m).Meets (fun _ n => n.level = m.level)
      (fun code _ => code = 1) fun _ => False := by
  induction steps generalizing bytes m with
  | nil => rfl
  | cons step later ih =>
    have first : (ioStep gd surface step m).Meets (fun _ n => n.level = m.level)
        (fun code _ => code = 1) fun _ => False := by
      unfold ioStep
      split
      · rfl
      · split
        · rfl
        · split
          · rfl
          · rfl
    apply first.bind
    intro bytes n same
    rw [← same]
    exact ih bytes n

/-- So it is with a serial poll of the instrument. -/
theorem instRsp_level (gd : Instrument) (surface : Surface) (m : Machine) :
    (instRsp gd surface m).Meets (fun _ n => n.level = m.level) (fun code _ => code = 1)
      fun _ => False := by
  unfold instRsp
  split
  · split <;> rfl
  · split <;> rfl
  · rfl

/-- What happens to the instrument alone keeps the variables. -/
theorem Session.keep_meets {α : Type} {s : Session σ} {outcome : Outcome Machine α}
    {returns : α → Machine → Prop} {exits : Int → Machine → Prop} {waits : Machine → Prop}
    (meets : outcome.Meets returns exits waits) :
    (s.keep outcome).Meets (fun value n => returns value n.machine ∧ n.vars = s.vars)
      (fun code n => exits code n.machine) fun n => waits n.machine := by
  cases outcome with
  | done value m => exact ⟨meets, rfl⟩
  | exited code m => exact meets
  | unfinished m => exact meets

/-- An operation that the callback calls does its exchanges and nothing more, however deep calls
may nest below it and however long a poll may go on. -/
theorem sessionOp_inner (rounds depth : Nat) {op : InstOp} {str : String}
    (label : op.label = some str) {s : Session σ} (nested : s.machine.level ≠ 0) :
    sessionOp gd surface callback rounds (depth + 1) op s =
      (s.keep (ioSteps gd surface op.steps [] s.machine)).bind fun bytes s =>
        .done (.bytes bytes) s := by
  rw [sessionOp, label]
  have exchanged := Session.keep_meets (s := s) (ioSteps_meets gd surface op.steps [] s.machine)
  cases outcome : s.keep (ioSteps gd surface op.steps [] s.machine) with
  | done bytes n =>
    rw [outcome] at exchanged
    have same : n.machine.level = s.machine.level := exchanged.1
    have inner : ¬n.machine.level + 1 = 1 := by omega
    simp only [Outcome.bind_done, sessionPoll, if_neg inner, Int.add_sub_cancel]
  | exited code n => rfl
  | unfinished n => rfl

/-- An operation that the callback calls does its exchanges, and keeps the level and the
variables. -/
theorem sessionOp_nested (rounds depth : Nat) (op : InstOp) {s : Session σ}
    (nested : s.machine.level ≠ 0) :
    (sessionOp gd surface callback rounds (depth + 1) op s).Meets
      (fun _ n => n.machine.level = s.machine.level ∧ n.vars = s.vars) (fun code _ => code = 1)
      fun _ => False := by
  cases label : op.label with
  | none =>
    rw [sessionOp, label]
    apply (Session.keep_meets (instRsp_level gd surface s.machine)).bind
    exact fun answer n both => both
  | some str =>
    rw [sessionOp_inner rounds depth label nested]
    apply (Session.keep_meets (ioSteps_meets gd surface op.steps [] s.machine)).bind
    exact fun bytes n both => both

/-- What every call of the callback comes to: while it asks for another round something holds of the
variables, when it finds no fault more holds, and otherwise the program ends for a reason. -/
def EachRound (callback : Callback σ)
    (perform : InstOp → Session σ → Outcome (Session σ) Answer) (str : String)
    (going ready : σ → Prop) (exits : Int → Prop) : Prop :=
  ∀ (s : Session σ) sb, s.machine.level ≠ 0 → going s.vars →
    ((callback s.vars sb str).run perform (s.log [.call sb str])).Meets
      (fun (err, vars) n => n.machine.level = s.machine.level ∧
        (err = -1 → going vars) ∧ (err = 0 → going vars ∧ ready vars) ∧
          (err ≠ -1 → err ≠ 0 → exits err))
      (fun code _ => exits code) fun _ => False

/-- The loop of a poll. -/
theorem sessionLoop_meets {perform : InstOp → Session σ → Outcome (Session σ) Answer}
    {str : String} {going ready : σ → Prop} {exits : Int → Prop} (failed : exits 1)
    (round : EachRound callback perform str going ready exits) (rounds loops : Nat)
    {s : Session σ} (nested : s.machine.level ≠ 0) (start : going s.vars) :
    (sessionLoop gd surface perform callback str rounds loops s).Meets
      (fun _ n => n.machine.level = s.machine.level ∧ going n.vars ∧ ready n.vars)
      (fun code _ => exits code) fun n => going n.vars := by
  induction rounds generalizing loops s with
  | zero => exact start
  | succ rounds ih =>
    rw [sessionLoop]
    have answered : (s.keep (instRsp gd surface s.machine)).Meets
        (fun _ n => n.machine.level = s.machine.level ∧ n.vars = s.vars) (fun code _ => exits code)
        fun n => going n.vars := by
      apply (Session.keep_meets (instRsp_level gd surface s.machine)).mono
      · exact fun _ _ => id
      · exact fun code _ one => one ▸ failed
      · exact fun _ => False.elim
    apply answered.bind
    rintro ⟨sb, more⟩ n ⟨level, vars⟩
    have inside : n.machine.level ≠ 0 := by rwa [level]
    have called := (round n sb inside (vars ▸ start)).mono (fun _ _ => id) (fun _ _ => id)
      (fun l (never : False) => (never.elim : going l.vars))
    apply called.bind
    rintro ⟨err, vars⟩ l ⟨same, retry, good, bad⟩
    have there : l.machine.level ≠ 0 := by rwa [same]
    rw [← level, ← same]
    dsimp only [afterResult]
    split
    · rename_i again
      exact ih (loops + 1) (s := ⟨_, vars⟩) there (retry again)
    · rename_i settled
      split
      · rename_i fine
        cases more with
        | true => exact ih loops (s := ⟨_, vars⟩) there (good fine).1
        | false => exact ⟨rfl, good fine⟩
      · rename_i faulty
        exact bad settled faulty

/-- A loop whose operations keep the level keeps it. -/
theorem sessionLoop_level {perform : InstOp → Session σ → Outcome (Session σ) Answer}
    (each : ∀ op s level, s.machine.level = level →
      (perform op s).Meets (fun _ n => n.machine.level = level) (fun _ _ => True) fun _ => True)
    (str : String) (rounds loops : Nat) (s : Session σ) :
    (sessionLoop gd surface perform callback str rounds loops s).Meets
      (fun _ n => n.machine.level = s.machine.level) (fun _ _ => True) fun _ => True := by
  induction rounds generalizing loops s with
  | zero => trivial
  | succ rounds ih =>
    rw [sessionLoop]
    have answered : (s.keep (instRsp gd surface s.machine)).Meets
        (fun _ n => n.machine.level = s.machine.level) (fun _ _ => True) fun _ => True := by
      apply (Session.keep_meets (instRsp_level gd surface s.machine)).mono
      · exact fun _ _ both => both.1
      · exact fun _ _ _ => trivial
      · exact fun _ _ => trivial
    apply answered.bind
    rintro ⟨sb, more⟩ n level
    have start : (n.log [.call sb str]).machine.level = s.machine.level := level
    have called := Program.run_keeps (fun op l same => each op l s.machine.level same)
      (callback n.vars sb str) start
    apply called.bind
    rintro ⟨err, vars⟩ l same
    rw [← same]
    dsimp only [afterResult]
    split
    · exact ih (loops + 1) _
    · split
      · cases more with
        | true => exact ih loops _
        | false => rfl
      · trivial

/-- Every operation keeps the level. -/
theorem sessionOp_level (rounds depth : Nat) (op : InstOp) (s : Session σ) :
    (sessionOp gd surface callback rounds depth op s).Meets
      (fun _ n => n.machine.level = s.machine.level) (fun _ _ => True) fun _ => True := by
  induction depth generalizing op s with
  | zero => trivial
  | succ depth ih =>
    rw [sessionOp]
    cases op.label with
    | none =>
      apply Outcome.Meets.bind (Session.keep_meets (instRsp_level gd surface s.machine) |>.mono
        (fun _ _ both => both.1) (fun _ _ _ => trivial) fun _ _ => trivial)
      exact fun _ _ same => same
    | some str =>
      apply Outcome.Meets.bind (Session.keep_meets (ioSteps_meets gd surface op.steps [] s.machine)
        |>.mono (fun _ _ both => both.1) (fun _ _ _ => trivial) fun _ _ => trivial)
      intro bytes n same
      have looped : ∀ l : Session σ, (sessionLoop gd surface
          (sessionOp gd surface callback rounds depth) callback str rounds 0 l).Meets
          (fun _ n => n.machine.level = l.machine.level) (fun _ _ => True) fun _ => True :=
        sessionLoop_level (fun op l level here => here ▸ ih op l) str rounds 0
      have polled : (sessionPoll gd surface (sessionOp gd surface callback rounds depth) callback
          rounds str n).Meets (fun _ l => l.machine.level = s.machine.level) (fun _ _ => True)
          fun _ => True := by
        rw [← same, sessionPoll]
        refine @Outcome.Meets.bind _ _ _ _ _ (fun _ l => l.machine.level = n.machine.level + 1)
          _ _ _ ?_ ?_
        · split
          · exact looped _
          · rfl
        · intro _ l up
          show l.machine.level - 1 = n.machine.level
          omega
      apply polled.bind
      exact fun _ _ kept => kept

/-- An operation that the application calls: its exchanges, and then the loop. -/
theorem sessionOp_meets {depth rounds : Nat} {op : InstOp} {str : String}
    (label : op.label = some str) {going ready : σ → Prop} {exits : Int → Prop} (failed : exits 1)
    (round : EachRound callback (sessionOp gd surface callback rounds depth) str going ready exits)
    {s : Session σ} (outermost : s.machine.level = 0) (start : going s.vars) :
    (sessionOp gd surface callback rounds (depth + 1) op s).Meets
      (fun _ n => going n.vars ∧ ready n.vars) (fun code _ => exits code)
      fun n => going n.vars := by
  rw [sessionOp, label]
  have exchanged : (s.keep (ioSteps gd surface op.steps [] s.machine)).Meets
      (fun _ n => n.machine.level = s.machine.level ∧ n.vars = s.vars) (fun code _ => exits code)
      fun n => going n.vars := by
    apply (Session.keep_meets (ioSteps_meets gd surface op.steps [] s.machine)).mono
    · exact fun _ _ => id
    · exact fun code _ one => one ▸ failed
    · exact fun _ => False.elim
  apply exchanged.bind
  rintro bytes n ⟨level, vars⟩
  have first : n.machine.level + 1 = 1 := by omega
  have begins : going n.vars := vars ▸ start
  have loop := @sessionLoop_meets σ gd surface callback _ str going ready exits failed round rounds
    0 ⟨⟨1, n.machine.trace⟩, n.vars⟩ Int.one_ne_zero begins
  simp only [sessionPoll, first, if_true]
  apply Outcome.Meets.bind (Outcome.Meets.bind loop _)
  · exact fun _ _ both => both
  · exact fun _ _ both => both.2

end

end GpibUtils.Inst
