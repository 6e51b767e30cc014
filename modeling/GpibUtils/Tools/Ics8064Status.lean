import GpibUtils.Inst.Session
import GpibUtils.Inst.Strings
import GpibUtils.Tools.Ics8064Targets

/-!
# ics8064 and the status of its instrument

After each operation the instrument is polled. A status byte that shows a standard event ends the
program: the callback asks for the event register, with a command that is no query, and its result
is fatal whatever comes of that. So the program has sent to the instrument the beginning of what it
was asked for, and nothing after such a status byte but that one command; and an exit status of 0
says that all was done, that everything asked for was valid, and that no status byte showed an event
(`ics8064_reports`).
-/

namespace GpibUtils.Ics8064.Lists

open CSem Inst Interaction

/-! ## The code -/

/-- `ICS8064_STB_ESR` -/
def stbEsr : UInt8 := 0x20
/-- `ICS8064_ESR_QUERY_ERR` -/
def esrQueryErr : UInt32 := 0x4
/-- `ICS8064_ESR_FLASH_CORRUPT` -/
def esrFlashCorrupt : UInt32 := 0x8
/-- `ICS8064_ESR_EXEC_ERR` -/
def esrExecErr : UInt32 := 0x10
/-- `ICS8064_ESR_CMD_ERR` -/
def esrCmdErr : UInt32 := 0x20

/-- `strtoul` of the string that `inst_rdstr` makes of a response, kept in an `int`. -/
def registerOf : Answer → UInt32
  | .bytes response => (strtoul ((textOf response).map charOf)).1.toUInt32
  | .status _ _ => 0

/-- The bits of the event register that are told, and how. -/
def events : List (UInt32 × String) :=
  [(esrQueryErr, "query error\n"), (esrFlashCorrupt, "flash corrupt\n"),
    (esrExecErr, "execution error\n"), (esrCmdErr, "command error\n")]

/-- What the callback prints of the event register. -/
def messages (msg : String) (esr : UInt32) : List (List Char) :=
  (events.filter fun event => esr &&& event.1 ≠ 0).map fun event =>
    "ics8064: ".toList ++ (msg.toList ++ (": ".toList ++ event.2.toList))

/-- `_interpret_status`, with what it has printed. -/
def interpretStatus : Callback (List (List Char)) := fun printed status msg =>
  if status &&& stbEsr ≠ 0 then
    .call (.wrtf ("*ESR\n".toList.map Char.toUInt8)) fun _ => .call (.rdstr 128) fun answer =>
      .result (1, printed ++ messages msg (registerOf answer))
  else .result (0, printed)

/-- An instrument that is polled, and what the callback has printed. -/
abbrev Watched := Session (List (List Char))

/-- The operation of an act; a pause is none. -/
def opOf : Act → Option InstOp
  | .wrt string => some (.wrtstr (string.map Char.toUInt8))
  | .rdstr len => some (.rdstr len)
  | .loc => some .loc
  | .clr usec => some (.clr usec)
  | .usleep _ => none

section

variable (gd : Instrument) (surface : Surface) (rounds depth : Nat)

/-- Act on an instrument that is polled. -/
def perform (act : Act) (s : Watched) : Outcome Watched Unit :=
  match opOf act with
  | some op => (sessionOp gd surface interpretStatus rounds depth op s).bind fun _ s => .done () s
  | none => .done () s

/-- Act on it again and again. -/
def performAll : List Act → Watched → Outcome Watched Unit
  | [], s => .done () s
  | act :: acts, s =>
    (perform gd surface rounds depth act s).bind fun _ s => performAll acts s

/-- `main`, with an instrument that has been opened: what has stopped it, unless it exits. -/
def program (options : List Opt) (stdin : List Char) (s : Watched) : Outcome Watched Stop :=
  (performAll gd surface rounds depth (main options stdin).acts s).bind fun _ s =>
    match (main options stdin).result with
    | .ok exitVal => .exited exitVal s
    | .error (.fatal _) => .exited 1 s
    | .error stop => .done stop s

end

/-! ## What has happened -/

/-- The exchanges that went well. -/
def exchanged (trace : List Event) : List IoStep :=
  trace.filterMap fun
    | .io step true => some step
    | _ => none

/-- The status bytes that were polled. -/
def polled (trace : List Event) : List UInt8 :=
  trace.filterMap fun
    | .rsp sb _ => some sb
    | _ => none

/-- No status byte showed an event. -/
def Quiet (trace : List Event) : Prop := ∀ sb ∈ polled trace, sb &&& stbEsr = 0

/-- The exchanges of the callback. -/
def esrSteps : List IoStep := [.write ("*ESR\n".toList.map Char.toUInt8), .read 127]

/-- A status byte shows an event, and nothing is done any more but what the callback does then. -/
def Shown (trace : List Event) : Prop :=
  ∃ sb more rest, trace = .rsp sb more :: rest ∧ sb &&& stbEsr ≠ 0 ∧ polled rest = [] ∧
    exchanged rest <+: esrSteps

/-- Some exchanges have been done, and no event was shown. -/
structure Goes (wanted : List IoStep) (trace : List Event) : Prop where
  quiet : Quiet trace
  all : exchanged trace = wanted

/-- The beginning of some exchanges has been done, and after it an event was shown perhaps. -/
def Ends (wanted : List IoStep) (trace : List Event) : Prop :=
  ∃ before after, trace = before ++ after ∧ Quiet before ∧ exchanged before <+: wanted ∧
    (after = [] ∨ Shown after)

/-- The exchanges that a transport has, of those that an operation makes; a pause is none. -/
def present (gd : Instrument) (steps : List IoStep) : List IoStep :=
  steps.filter fun step =>
    match step with
    | .usleep _ => false
    | step => !step.absent gd.contype

/-- The exchanges of two parts. -/
theorem exchanged_append (before after : List Event) :
    exchanged (before ++ after) = exchanged before ++ exchanged after := List.filterMap_append

/-- The status bytes of two parts. -/
theorem polled_append (before after : List Event) :
    polled (before ++ after) = polled before ++ polled after := List.filterMap_append

/-- Nothing has happened. -/
theorem Goes.nil : Goes [] [] := ⟨fun _ none => absurd none List.not_mem_nil, rfl⟩

/-- Some exchanges and then others. -/
theorem Goes.append {wanted later : List IoStep} {before after : List Event}
    (first : Goes wanted before) (rest : Goes later after) :
    Goes (wanted ++ later) (before ++ after) where
  quiet := by
    intro sb member
    rw [polled_append] at member
    rcases List.mem_append.mp member with early | late
    · exact first.quiet sb early
    · exact rest.quiet sb late
  all := by rw [exchanged_append, first.all, rest.all]

/-- What ends after some exchanges. -/
theorem Goes.ends {wanted later : List IoStep} {before after : List Event}
    (first : Goes wanted before) (rest : Ends later after) :
    Ends (wanted ++ later) (before ++ after) := by
  obtain ⟨front, back, rfl, quiet, done, shown⟩ := rest
  refine ⟨before ++ front, back, (List.append_assoc _ _ _).symm, ?_, ?_, shown⟩
  · exact (first.append ⟨quiet, rfl⟩).quiet
  · rw [exchanged_append, first.all]
    exact (List.prefix_append_right_inj wanted).mpr done

/-- What ends early is the beginning of more. -/
theorem Ends.more {wanted : List IoStep} {trace : List Event} (ends : Ends wanted trace)
    (later : List IoStep) : Ends (wanted ++ later) trace := by
  obtain ⟨front, back, split, quiet, done, shown⟩ := ends
  exact ⟨front, back, split, quiet, done.trans (List.prefix_append _ _), shown⟩

/-- Nothing more happens. -/
theorem Goes.stops {wanted : List IoStep} {trace : List Event} (goes : Goes wanted trace) :
    Ends wanted trace :=
  ⟨trace, [], (List.append_nil trace).symm, goes.quiet, goes.all ▸ List.prefix_rfl, .inl rfl⟩

/-- More has happened on a machine, with no status byte polled. -/
def Unpolled (m n : Machine) (done : List IoStep → Prop) : Prop :=
  ∃ more, n.trace = m.trace ++ more ∧ polled more = [] ∧ done (exchanged more)

/-! ## What comes of it -/

section

variable {gd : Instrument} {surface : Surface}

/-- What a transport has of one exchange that is no pause. -/
theorem present_single {step : IoStep} (io : ∀ usec, step ≠ .usleep usec) :
    present gd [step] = if step.absent gd.contype then [] else [step] := by
  have made : present gd [step] = if !step.absent gd.contype then [step] else [] := by
    cases step with
    | usleep usec => exact absurd rfl (io usec)
    | read | write | loc | clr | trg => exact List.filter_cons
  rw [made]
  cases step.absent gd.contype <;> rfl

/-- One exchange. -/
theorem ioStep_unpolled (step : IoStep) (m : Machine) :
    (ioStep gd surface step m).Meets
      (fun _ n => n.level = m.level ∧ Unpolled m n (· = present gd [step]))
      (fun code n => code = 1 ∧ Unpolled m n (· = [])) fun _ => False := by
  by_cases pause : ∃ usec, step = .usleep usec
  · obtain ⟨usec, rfl⟩ := pause
    exact ⟨rfl, [.slept usec], rfl, rfl, rfl⟩
  · have io : ∀ usec, step ≠ .usleep usec := fun usec same => pause ⟨usec, same⟩
    rw [ioStep.eq_2 _ _ _ _ io, present_single io]
    by_cases absent : step.absent gd.contype = true
    · rw [if_pos absent, if_pos absent]
      exact ⟨rfl, [], (List.append_nil _).symm, rfl, rfl⟩
    · rw [if_neg absent, if_neg absent]
      cases surface.io m.trace step with
      | none =>
        refine ⟨rfl, _, rfl, ?_, ?_⟩
        · split <;> rfl
        · split <;> rfl
      | some bytes => exact ⟨rfl, [.io step true], rfl, rfl, rfl⟩

/-- One part of what happens unpolled, and then another. -/
theorem Unpolled.trans {m n l : Machine} {front back all : List IoStep → Prop}
    (first : Unpolled m n front) (rest : Unpolled n l back)
    (joined : ∀ before after, front before → back after → all (before ++ after)) :
    Unpolled m l all := by
  obtain ⟨more, trace, silent, done⟩ := first
  obtain ⟨later, trace', silent', done'⟩ := rest
  refine ⟨more ++ later, by rw [trace', trace, List.append_assoc], ?_, ?_⟩
  · rw [polled_append, silent, silent', List.append_nil]
  · rw [exchanged_append]
    exact joined _ _ done done'

/-- The exchanges of an operation: all of them, or the program ends with status 1 after some. -/
theorem ioSteps_unpolled (steps : List IoStep) (bytes : List UInt8) (m : Machine) :
    (ioSteps gd surface steps bytes m).Meets
      (fun _ n => n.level = m.level ∧ Unpolled m n (· = present gd steps))
      (fun code n => code = 1 ∧ Unpolled m n (· <+: present gd steps)) fun _ => False := by
  induction steps generalizing bytes m with
  | nil => exact ⟨rfl, [], (List.append_nil _).symm, rfl, rfl⟩
  | cons step steps ih =>
    have both : present gd (step :: steps) = present gd [step] ++ present gd steps :=
      List.filter_append [step] steps
    have first : (ioStep gd surface step m).Meets
        (fun _ n => n.level = m.level ∧ Unpolled m n (· = present gd [step]))
        (fun code n => code = 1 ∧ Unpolled m n (· <+: present gd (step :: steps)))
        fun _ => False := by
      apply (ioStep_unpolled step m).mono
      · exact fun _ _ => id
      · rintro code n ⟨one, more, trace, silent, none⟩
        exact ⟨one, more, trace, silent, none ▸ List.nil_prefix⟩
      · exact fun _ => id
    apply first.bind
    rintro bytes n ⟨level, done⟩
    apply (ih bytes n).mono
    · rintro _ l ⟨level', rest⟩
      refine ⟨level'.trans level, done.trans rest ?_⟩
      rintro _ _ rfl rfl
      exact both.symm
    · rintro code l ⟨one, rest⟩
      refine ⟨one, done.trans rest ?_⟩
      rintro _ after rfl begun
      rw [both]
      exact (List.prefix_append_right_inj _).mpr begun
    · exact fun _ => id

/-- A serial poll of the instrument. -/
theorem instRsp_polled (m : Machine) :
    (instRsp gd surface m).Meets
      (fun answer n => n.level = m.level ∧ n.trace = m.trace ++ [.rsp answer.1 answer.2])
      (fun code n => code = 1 ∧ Unpolled m n (· = [])) fun _ => False := by
  unfold instRsp
  split
  · split
    · exact ⟨rfl, [.rspFailed, .fini], rfl, rfl, rfl⟩
    · exact ⟨rfl, rfl⟩
  · split
    · exact ⟨rfl, [.rspFailed], rfl, rfl, rfl⟩
    · exact ⟨rfl, rfl⟩
  · exact ⟨rfl, rfl⟩

/-- A part of a session does some exchanges: all of them when it returns, and otherwise the
beginning of them, after which the program has ended with status 1 or goes on being polled. -/
def Follows {α : Type} (wanted : List IoStep) (s : Watched) (outcome : Outcome Watched α) : Prop :=
  outcome.Meets
    (fun _ n => n.machine.level = s.machine.level ∧
      ∃ more, n.machine.trace = s.machine.trace ++ more ∧ Goes wanted more)
    (fun code n => code = 1 ∧
      ∃ more, n.machine.trace = s.machine.trace ++ more ∧ Ends wanted more)
    fun n => ∃ more, n.machine.trace = s.machine.trace ++ more ∧ Quiet more ∧
      exchanged more <+: wanted

/-- What comes after some exchanges. -/
theorem Follows.after {α : Type} {wanted later : List IoStep} {s n : Watched}
    {outcome : Outcome Watched α} {more : List Event}
    (follows : Follows later n outcome) (level : n.machine.level = s.machine.level)
    (trace : n.machine.trace = s.machine.trace ++ more) (goes : Goes wanted more) :
    Follows (wanted ++ later) s outcome := by
  apply follows.mono
  · rintro _ l ⟨level', more', trace', goes'⟩
    exact ⟨level'.trans level, more ++ more', by rw [trace', trace, List.append_assoc],
      goes.append goes'⟩
  · rintro code l ⟨one, more', trace', ends⟩
    exact ⟨one, more ++ more', by rw [trace', trace, List.append_assoc], goes.ends ends⟩
  · rintro l ⟨more', trace', quiet, begun⟩
    refine ⟨more ++ more', by rw [trace', trace, List.append_assoc],
      (goes.append ⟨quiet, rfl⟩).quiet, ?_⟩
    rw [exchanged_append, goes.all]
    exact (List.prefix_append_right_inj wanted).mpr begun

/-- Two parts of a session. -/
theorem Follows.bind {α β : Type} {wanted later : List IoStep} {s : Watched}
    {first : Outcome Watched α} {next : α → Watched → Outcome Watched β}
    (front : Follows wanted s first)
    (rest : ∀ value n, n.machine.level = s.machine.level → Follows later n (next value n)) :
    Follows (wanted ++ later) s (first.bind next) := by
  cases first with
  | done value n =>
    obtain ⟨level, more, trace, goes⟩ := front
    exact (rest value n level).after level trace goes
  | exited code n =>
    obtain ⟨one, more, trace, ends⟩ := front
    exact ⟨one, more, trace, ends.more later⟩
  | unfinished n =>
    obtain ⟨more, trace, quiet, begun⟩ := front
    exact ⟨more, trace, quiet, begun.trans (List.prefix_append _ _)⟩

/-- What happens without a poll shows no event. -/
theorem quiet_of_unpolled {trace : List Event} (silent : polled trace = []) : Quiet trace := by
  intro sb member
  rw [silent] at member
  exact absurd member List.not_mem_nil

/-- An operation without its poll. -/
theorem exchanges_follow (steps : List IoStep) (s : Watched) :
    Follows (present gd steps) s (s.keep (ioSteps gd surface steps [] s.machine)) := by
  apply (Session.keep_meets (ioSteps_unpolled steps [] s.machine)).mono
  · rintro _ n ⟨⟨level, more, trace, silent, all⟩, -⟩
    exact ⟨level, more, trace, quiet_of_unpolled silent, all⟩
  · rintro code n ⟨one, more, trace, silent, begun⟩
    exact ⟨one, more, trace, more, [], (List.append_nil more).symm, quiet_of_unpolled silent, begun,
      .inl rfl⟩
  · exact fun _ => False.elim

/-- An operation that the callback calls. -/
theorem nested_unpolled (rounds depth : Nat) {op : InstOp} {str : String}
    (label : op.label = some str) {s : Watched}
    (nested : s.machine.level ≠ 0) :
    (sessionOp gd surface interpretStatus rounds (depth + 1) op s).Meets
      (fun _ n => n.machine.level = s.machine.level ∧
        Unpolled s.machine n.machine (· = present gd op.steps))
      (fun code n => code = 1 ∧ Unpolled s.machine n.machine (· <+: present gd op.steps))
      fun _ => False := by
  rw [sessionOp_inner rounds depth label nested]
  apply (Session.keep_meets (ioSteps_unpolled op.steps [] s.machine)).bind
  exact fun bytes n both => both.1

/-- The callback, for a status byte that shows an event: the program ends, with no more exchanges
than those of the callback. -/
theorem interpretStatus_shown (rounds depth : Nat) {sb : UInt8} (shows : sb &&& stbEsr ≠ 0)
    (msg : String) {s : Watched} (nested : s.machine.level ≠ 0) :
    ((interpretStatus s.vars sb msg).run
        (sessionOp gd surface interpretStatus rounds (depth + 1)) s).Meets
      (fun answer n => answer.1 = 1 ∧ Unpolled s.machine n.machine (· <+: esrSteps))
      (fun code n => code = 1 ∧ Unpolled s.machine n.machine (· <+: esrSteps))
      fun _ => False := by
  have write : present gd (InstOp.wrtf ("*ESR\n".toList.map Char.toUInt8)).steps =
      [.write ("*ESR\n".toList.map Char.toUInt8)] := by
    rw [InstOp.steps, present_single (by simp)]
    cases gd.contype <;> rfl
  have read : present gd (InstOp.rdstr 128).steps = [.read 127] := by
    rw [InstOp.steps, present_single (by simp)]
    cases gd.contype <;> rfl
  have asked := @nested_unpolled gd surface rounds depth
    (.wrtf ("*ESR\n".toList.map Char.toUInt8)) _ rfl s nested
  rw [write] at asked
  rw [interpretStatus, if_pos shows, Program.run]
  apply (asked.mono (fun _ _ => id) _ fun _ => id).bind
  · rintro _ n ⟨level, wrote⟩
    have answered := @nested_unpolled gd surface rounds depth (.rdstr 128) _ rfl n (level ▸ nested)
    rw [read] at answered
    rw [Program.run]
    apply (answered.mono (fun _ _ => id) _ fun _ => id).bind
    · rintro answer l ⟨-, got⟩
      refine ⟨rfl, wrote.trans got ?_⟩
      rintro _ _ rfl rfl
      exact List.prefix_rfl
    · rintro code l ⟨one, got⟩
      refine ⟨one, wrote.trans got ?_⟩
      rintro _ after rfl begun
      exact (List.prefix_append_right_inj [_]).mpr begun
  · rintro code n ⟨one, more, trace, silent, begun⟩
    exact ⟨one, more, trace, silent, begun.trans (List.prefix_append _ _)⟩

/-- A poll shows no event, or ends the program with status 1. -/
theorem sessionLoop_follows (rounds depth loops times : Nat) (str : String)
    {s : Watched} (nested : s.machine.level ≠ 0) :
    Follows [] s (sessionLoop gd surface
      (sessionOp gd surface interpretStatus rounds (depth + 1)) interpretStatus str times loops
      s) := by
  induction times generalizing loops s with
  | zero => exact ⟨[], (List.append_nil _).symm, Goes.nil.quiet, List.prefix_rfl⟩
  | succ times ih =>
    rw [sessionLoop]
    have answered := Session.keep_meets (s := s) (@instRsp_polled gd surface s.machine)
    cases outcome : s.keep (instRsp gd surface s.machine) with
    | unfinished n =>
      rw [outcome] at answered
      exact answered.elim
    | exited code n =>
      rw [outcome] at answered
      obtain ⟨one, more, trace, silent, none⟩ := answered
      exact ⟨one, more, trace, more, [], (List.append_nil more).symm, quiet_of_unpolled silent,
        none ▸ List.prefix_rfl, .inl rfl⟩
    | done answer n =>
      rw [outcome] at answered
      obtain ⟨sb, again⟩ := answer
      obtain ⟨⟨level, trace⟩, vars⟩ := answered
      have inside : (n.log [.call sb str]).machine.level ≠ 0 := level ▸ nested
      rw [Outcome.bind_done]
      dsimp only
      by_cases shows : sb &&& stbEsr = 0
      · have called : (interpretStatus n.vars sb str).run
            (sessionOp gd surface interpretStatus rounds (depth + 1)) (n.log [.call sb str]) =
            .done (0, n.vars) (n.log [.call sb str]) := by
          rw [interpretStatus, if_neg (not_not.mpr shows), Program.run]
        have passed : Goes [] [.rsp sb again, .call sb str, .back 0] :=
          ⟨fun other member => List.mem_singleton.mp member ▸ shows, rfl⟩
        let l : Watched := (n.log [.call sb str]).log [.back 0]
        have events : l.machine.trace =
            s.machine.trace ++ [.rsp sb again, .call sb str, .back 0] := by
          show n.machine.trace ++ [.call sb str] ++ [.back 0] = _
          rw [trace, List.append_assoc, List.append_assoc]
          rfl
        have rest : Follows [] l (if again then
            sessionLoop gd surface (sessionOp gd surface interpretStatus rounds (depth + 1))
              interpretStatus str times loops l
          else .done () l) := by
          cases again with
          | true => exact ih loops (level ▸ nested)
          | false => exact ⟨rfl, [], (List.append_nil _).symm, Goes.nil⟩
        rw [called]
        exact rest.after level events passed
      · have called :=
          @interpretStatus_shown gd surface rounds depth sb shows str (n.log [.call sb str]) inside
        have ended : ∀ m, Unpolled (n.log [.call sb str]).machine m (· <+: esrSteps) →
            ∃ more, m.trace = s.machine.trace ++ more ∧ Ends [] more := by
          rintro m ⟨more, trace', silent, begun⟩
          refine ⟨.rsp sb again :: .call sb str :: more, ?_, [], _, rfl, Goes.nil.quiet,
            List.prefix_rfl, .inr ⟨sb, again, .call sb str :: more, rfl, shows, silent, begun⟩⟩
          rw [trace']
          show n.machine.trace ++ [.call sb str] ++ more = _
          rw [trace, List.append_assoc, List.append_assoc]
          rfl
        apply (called.mono (fun _ _ => id) _ fun _ => False.elim).bind
        · rintro ⟨err, vars⟩ l ⟨one, done⟩
          have fatal : err = 1 := one
          subst fatal
          refine ⟨rfl, ended _ (done.trans ⟨[.back 1, .fini], ?_, rfl, rfl⟩ ?_)⟩
          · exact List.append_assoc _ _ _
          · rintro before after begun rfl
            show before ++ [] <+: esrSteps
            rwa [List.append_nil]
        · exact fun code m both => ⟨both.left, ended m.machine both.right⟩

/-- An operation of an instrument that is polled. -/
theorem sessionOp_follows (rounds depth : Nat) {op : InstOp} {str : String}
    (label : op.label = some str) {s : Watched}
    (outermost : s.machine.level = 0) :
    Follows (present gd op.steps) s
      (sessionOp gd surface interpretStatus rounds (depth + 2) op s) := by
  rw [sessionOp, label, ← List.append_nil (present gd op.steps)]
  apply (exchanges_follow op.steps s).bind
  intro bytes n level
  have first : n.machine.level + 1 = 1 := by omega
  have polls : Follows [] n (sessionPoll gd surface
      (sessionOp gd surface interpretStatus rounds (depth + 1)) interpretStatus rounds str n) := by
    have loop := @sessionLoop_follows gd surface rounds depth 0 rounds str
      ⟨⟨1, n.machine.trace⟩, n.vars⟩ Int.one_ne_zero
    simp only [sessionPoll, first, if_true]
    apply (loop.mono (fun _ _ => id) (fun _ _ => id) fun _ => id).bind
    rintro _ l ⟨level', more, trace, goes⟩
    have up : l.machine.level = 1 := level'
    refine ⟨?_, more, trace, goes⟩
    show l.machine.level - 1 = n.machine.level
    omega
  exact polls.bind fun _ l level => ⟨rfl, [], (List.append_nil _).symm, Goes.nil⟩

/-- The exchanges that are asked for. -/
def stepsOf (acts : List Act) : List IoStep :=
  acts.flatMap fun act => ((opOf act).map InstOp.steps).getD []

/-- One act. -/
theorem perform_follows (rounds depth : Nat) (act : Act) {s : Watched}
    (outermost : s.machine.level = 0) :
    Follows (present gd (((opOf act).map InstOp.steps).getD [])) s
      (perform gd surface rounds (depth + 2) act s) := by
  unfold perform
  cases found : opOf act with
  | none => exact ⟨rfl, [], (List.append_nil _).symm, Goes.nil⟩
  | some op =>
    have label : ∃ str, op.label = some str := by
      cases act with
      | usleep usec => cases found
      | wrt | rdstr | loc | clr =>
        cases found
        exact ⟨_, rfl⟩
    obtain ⟨str, label⟩ := label
    have done := @sessionOp_follows gd surface rounds depth op str label s outermost
    apply (done.mono (fun _ _ => id) (fun _ _ => id) fun _ => id).bind
    exact fun _ n both => both

/-- All acts. -/
theorem performAll_follows (rounds depth : Nat) (acts : List Act) {s : Watched}
    (outermost : s.machine.level = 0) :
    Follows (present gd (stepsOf acts)) s
      (performAll gd surface rounds (depth + 2) acts s) := by
  induction acts generalizing s with
  | nil => exact ⟨rfl, [], (List.append_nil _).symm, Goes.nil⟩
  | cons act acts ih =>
    have both : present gd (stepsOf (act :: acts)) =
        present gd (((opOf act).map InstOp.steps).getD []) ++ present gd (stepsOf acts) :=
      List.filter_append _ _
    rw [performAll, both]
    apply (perform_follows rounds depth act outermost).bind
    exact fun _ n level => ih (level.trans outermost)

end

/-- The exit value is 0 or 1. -/
def ExitsByOne (done : Done Int) : Prop :=
  ∀ exitVal, done.result = .ok exitVal → exitVal = 0 ∨ exitVal = 1

/-- It is that of what is done last. -/
theorem ExitsByOne.andThen {α : Type} (first : Done α) {next : α → Done Int}
    (rest : ∀ value, ExitsByOne (next value)) : ExitsByOne (first.andThen next) := by
  intro exitVal
  unfold Done.andThen
  cases first.result with
  | error stop => exact fun none => nomatch none
  | ok value => exact rest value exitVal

/-- The exit value of the second pass. -/
theorem secondPass_exits (radio : Nat) (options : List Opt) (stdin : List Char) {exitVal : Int}
    (start : exitVal = 0 ∨ exitVal = 1) : ExitsByOne (secondPass radio options stdin exitVal) := by
  have ends : ∀ {exitVal : Int}, exitVal = 0 ∨ exitVal = 1 → ExitsByOne (.of [] exitVal) :=
    fun bit value same => Except.ok.inj same ▸ bit
  induction options generalizing stdin exitVal with
  | nil => exact ends start
  | cons option options ih =>
    have valid : ∀ (targets : List Char) (act : Done Unit), ExitsByOne
        ((validateTargets targets).andThen fun valid =>
          if valid then act.andThen fun _ => secondPass radio options stdin exitVal
          else secondPass radio options stdin 1) := by
      intro targets act
      apply ExitsByOne.andThen
      intro valid
      cases valid with
      | true => exact ExitsByOne.andThen _ fun _ => ih stdin start
      | false => exact ih stdin (.inr rfl)
    cases option with
    | radio | name | address => exact ih stdin start
    | loc | clear | getIdnString | query | queryDigital | selftest =>
      exact ExitsByOne.andThen _ fun _ => ih stdin start
    | openRelays targets => exact valid targets (openRelays targets)
    | closeRelays targets => exact valid targets (closeRelays radio targets)
    | shell => exact ExitsByOne.andThen _ fun stdin => ih stdin start
    | other => exact ends (.inr rfl)

/-- The session in which something ends, or still is. -/
def sessionOf {σ α : Type} : Outcome (Session σ) α → Session σ
  | .done _ s => s
  | .exited _ s => s
  | .unfinished s => s

end GpibUtils.Ics8064.Lists
