import GpibUtils.Lsd.HostlistReckless
import GpibUtils.Tools.Ics8064Relays
import GpibUtils.Util.Argv
import GpibUtils.Util.Readline

/-!
# Host lists of relays

A list of relays is read as a host list twice: to go over the relays before anything is done with
them, and to do it. Both lists are destroyed again, and nothing but a failure to read one or to get
to its end keeps a session from doing what it does when the relays of each text are given
(`session_refines`). What is sent to relays is always about numbers of relays, and radio mode keeps
at most one closed (`session_relays`). A text in the notation of host lists is acted on all or
nothing (`relays_answered`).
-/

namespace GpibUtils.Ics8064.Lists

open CSem Lsd Runs Util

/-! ## The code -/

/-- Why a session does not come to its end. -/
inductive Stop where
  /-- An assertion fails: a list is NULL. -/
  | abort
  /-- `lsd_fatal_error` ends the program with status 1. -/
  | fatal (refusal : Refusal)
  /-- An array is left, or the numbers of an `int`. -/
  | outside
  /-- A text or a list is not gone through to its end. -/
  | unread
  deriving DecidableEq

/-- What is done, and what it results in unless the session stops. -/
structure Done (α : Type) where
  acts : List Act
  result : Except Stop α

/-- Something is done that results in a value. -/
def Done.of {α : Type} (acts : List Act) (value : α) : Done α := ⟨acts, .ok value⟩

/-- Something is done, and then something else with its result. -/
def Done.andThen {α β : Type} (first : Done α) (next : α → Done β) : Done β :=
  match first.result with
  | .error stop => ⟨first.acts, .error stop⟩
  | .ok value => ⟨first.acts ++ (next value).acts, (next value).result⟩

/-- `hostlist_create` and `hostlist_iterator_create`, which asserts that there is a list. -/
def listOf (targets : List Char) : Except Stop (Hostlist × HostlistIterator) :=
  match hostlistCreate targets with
  | .null => .error .abort
  | .fatal refusal => .error (.fatal refusal)
  | .unterminated | .overrun | .overflow => .error .outside
  | .endless => .error .unread
  | .list hl =>
    match hostlistIteratorCreate hl with
    | none => .error .outside
    | some it => .ok (hl, it)

/-- The loop of `_open_relays` and `_close_relays`; `one` is what they do with a relay. -/
def relaysLoop (one : List Char → List Act) (hl : Hostlist) :
    (rounds : Nat) → HostlistIterator → Done Unit
  | 0, _ => ⟨[], .error .unread⟩
  | rounds + 1, it =>
    match hostlistNext hl it with
    | none => ⟨[], .error .outside⟩
    | some (none, _) => .of [] ()
    | some (some relay, it) =>
      (Done.of (one relay) ()).andThen fun _ => relaysLoop one hl rounds it

/-- What `_open_relays` and `_close_relays` do. -/
def visitRelays (one : List Char → List Act) (targets : List Char) : Done Unit :=
  match listOf targets with
  | .error stop => ⟨[], .error stop⟩
  | .ok (hl, it) => relaysLoop one hl hl.rounds it

/-- `_open_relays` -/
def openRelays (targets : List Char) : Done Unit := visitRelays openOneRelay targets

/-- `_close_relays` -/
def closeRelays (radio : Nat) (targets : List Char) : Done Unit :=
  visitRelays (closeOneRelay radio) targets

/-- The loop of `_validate_targets`. -/
def validateLoop (hl : Hostlist) : (rounds : Nat) → HostlistIterator → Except Stop Bool
  | 0, _ => .error .unread
  | rounds + 1, it =>
    match hostlistNext hl it with
    | none => .error .outside
    | some (none, _) => .ok true
    | some (some relay, it) =>
      let (number, endptr) := strtoul relay
      let n := toInt number.toNat
      if endptr ≠ [] ∨ n < 1 ∨ n > 16 then .ok false else validateLoop hl rounds it

/-- `_validate_targets` -/
def validateTargets (targets : List Char) : Done Bool :=
  match listOf targets with
  | .error stop => ⟨[], .error stop⟩
  | .ok (hl, it) => ⟨[], validateLoop hl hl.rounds it⟩

variable (radio : Nat)

/-- `_docmd`: whether the shell is left. -/
def docmd (av : List (List Char)) : Done Bool :=
  match av with
  | [] => .of [] false
  | av0 :: args =>
    if av0 = "quit".toList then .of [] true
    else if av0 = "close".toList then
      match args with
      | [targets] =>
        (validateTargets targets).andThen fun valid =>
          if valid then (closeRelays radio targets).andThen fun _ => .of [] false else .of [] false
      | _ => .of [] false
    else if av0 = "open".toList then
      match args with
      | [targets] =>
        (validateTargets targets).andThen fun valid =>
          if valid then (openRelays targets).andThen fun _ => .of [] false else .of [] false
      | _ => .of [] false
    else if av0 = "status".toList then
      match args with
      | [] => .of queryRelays false
      | _ => .of [] false
    else .of [] false

/-- `_shell`: what is left of the input. Allocation succeeds. -/
def shell (stdin : List Char) : Done (List Char) :=
  match _read : xreadline 128 stdin with
  | (none, stdin) => .of [] stdin
  | (some buf, stdin) =>
    if 0 < buf.length then
      (docmd radio ((argvCreate [] buf).getD [])).andThen fun quit =>
        if quit then .of [] stdin else shell stdin
    else shell stdin
termination_by stdin.length
decreasing_by all_goals exact length_xreadline (by decide) _read

/-- The second pass of `main` over the options: the exit value. -/
def secondPass : List Opt → List Char → Int → Done Int
  | [], _, exitVal => .of [] exitVal
  | option :: options, stdin, exitVal =>
    match option with
    | .radio | .name _ | .address _ => secondPass options stdin exitVal
    | .loc => (Done.of [.loc] ()).andThen fun _ => secondPass options stdin exitVal
    | .clear => (Done.of clear ()).andThen fun _ => secondPass options stdin exitVal
    | .getIdnString => (Done.of getIdn ()).andThen fun _ => secondPass options stdin exitVal
    | .openRelays targets =>
      (validateTargets targets).andThen fun valid =>
        if valid then (openRelays targets).andThen fun _ => secondPass options stdin exitVal
        else secondPass options stdin 1
    | .closeRelays targets =>
      (validateTargets targets).andThen fun valid =>
        if valid then (closeRelays radio targets).andThen fun _ => secondPass options stdin exitVal
        else secondPass options stdin 1
    | .query => (Done.of queryRelays ()).andThen fun _ => secondPass options stdin exitVal
    | .queryDigital => (Done.of queryDigital ()).andThen fun _ => secondPass options stdin exitVal
    | .shell => (shell radio stdin).andThen fun stdin => secondPass options stdin exitVal
    | .selftest => (Done.of selftest ()).andThen fun _ => secondPass options stdin exitVal
    | .other => .of [] 1

/-- `main`: what is done with the instrument, and the exit value. -/
def main (options : List Opt) (stdin : List Char) : Done Int :=
  secondPass (firstPass options) options stdin 0

/-! ## The relays of a text -/

/-- The relays that going through the list of a text gives. -/
def relaysOf (targets : List Char) : List (List Char) :=
  match listOf targets with
  | .error _ => []
  | .ok (hl, it) => (nextLoop hl hl.rounds it).1

/-- Whether going through a list comes to its end. -/
def loopEnd (hl : Hostlist) : (rounds : Nat) → HostlistIterator → Except Stop Unit
  | 0, _ => .error .unread
  | rounds + 1, it =>
    match hostlistNext hl it with
    | none => .error .outside
    | some (none, _) => .ok ()
    | some (some _, it) => loopEnd hl rounds it

/-- Whether going through the list of a text comes to its end. -/
def endOf (targets : List Char) : Except Stop Unit :=
  match listOf targets with
  | .error stop => .error stop
  | .ok (hl, it) => loopEnd hl hl.rounds it

/-- With enough rounds, a list whose end is not reached is one whose array is left. -/
theorem loopEnd_eq {hl : Hostlist} {rounds : Nat} {it : HostlistIterator}
    (enough : (nextLoop hl rounds it).1.length < rounds) :
    loopEnd hl rounds it = if (nextLoop hl rounds it).2 then .ok () else .error .outside := by
  induction rounds generalizing it with
  | zero => exact absurd enough (Nat.not_lt_zero _)
  | succ rounds ih =>
    rw [nextLoop] at enough ⊢
    rw [loopEnd]
    cases handed : hostlistNext hl it with
    | none => rfl
    | some next =>
      obtain ⟨host, it'⟩ := next
      rw [handed] at enough
      cases host with
      | none => rfl
      | some relay => exact ih (Nat.lt_of_succ_lt_succ enough)

/-- Going through a list, something is done with each of its relays. -/
theorem relaysLoop_eq (one : List Char → List Act) (hl : Hostlist) (rounds : Nat)
    (it : HostlistIterator) :
    relaysLoop one hl rounds it =
      ⟨(nextLoop hl rounds it).1.flatMap one, loopEnd hl rounds it⟩ := by
  induction rounds generalizing it with
  | zero => rfl
  | succ rounds ih =>
    rw [relaysLoop, nextLoop, loopEnd]
    cases hostlistNext hl it with
    | none => rfl
    | some next =>
      obtain ⟨host, it'⟩ := next
      cases host with
      | none => rfl
      | some relay =>
        dsimp only
        rw [ih it']
        rfl

/-- A list is gone over to the first relay that is refused, or to its end. -/
theorem validateLoop_eq (hl : Hostlist) (rounds : Nat) (it : HostlistIterator) :
    validateLoop hl rounds it =
      if ∀ relay ∈ (nextLoop hl rounds it).1, ReadsAsRelay relay then
        (loopEnd hl rounds it).map fun _ => true
      else .ok false := by
  induction rounds generalizing it with
  | zero => rfl
  | succ rounds ih =>
    rw [validateLoop, nextLoop, loopEnd]
    cases hostlistNext hl it with
    | none => rfl
    | some next =>
      obtain ⟨host, it'⟩ := next
      cases host with
      | none => rfl
      | some relay =>
        have refused : ((strtoul relay).2 ≠ [] ∨ toInt (strtoul relay).1.toNat < 1 ∨
            toInt (strtoul relay).1.toNat > 16) ↔ ¬ReadsAsRelay relay := by
          rw [← accepted_iff, Decidable.not_and_iff_or_not, Decidable.not_and_iff_or_not,
            Int.not_le, Int.not_le]
        simp only [refused, List.forall_mem_cons]
        by_cases reads : ReadsAsRelay relay
        · simp only [reads, not_true_eq_false, if_false, true_and]
          exact ih it'
        · simp only [reads, not_false_eq_true, if_true, false_and, if_false]

/-- What is done with the relays of a text. -/
theorem visitRelays_eq (one : List Char → List Act) (targets : List Char) :
    visitRelays one targets = ⟨(relaysOf targets).flatMap one, endOf targets⟩ := by
  rw [visitRelays, relaysOf, endOf]
  cases listOf targets with
  | error stop => rfl
  | ok list => exact relaysLoop_eq one list.1 list.1.rounds list.2

/-- How the relays of a text are gone over before. -/
theorem validateTargets_eq (targets : List Char) :
    validateTargets targets =
      ⟨[], if ∀ relay ∈ relaysOf targets, ReadsAsRelay relay then
          (endOf targets).map fun _ => true
        else .ok false⟩ := by
  rw [validateTargets, relaysOf, endOf]
  cases listOf targets with
  | error stop => rfl
  | ok list => exact congrArg (Done.mk []) (validateLoop_eq list.1 list.1.rounds list.2)

/-- What is done with the relays of a text after it was gone over: something for each of them when
all are relays and the end of the list is reached. -/
theorem validated_eq {α : Type} (targets : List Char) (one : List Char → List Act)
    (done refused : Done α) :
    ((validateTargets targets).andThen fun valid =>
        if valid then (visitRelays one targets).andThen fun _ => done else refused) =
      if ∀ relay ∈ relaysOf targets, ReadsAsRelay relay then
        match endOf targets with
        | .error stop => ⟨[], .error stop⟩
        | .ok () => ⟨(relaysOf targets).flatMap one ++ done.acts, done.result⟩
      else refused := by
  rw [validateTargets_eq, visitRelays_eq, Done.andThen]
  by_cases all : ∀ relay ∈ relaysOf targets, ReadsAsRelay relay
  · rw [if_pos all, if_pos all]
    cases endOf targets with
    | error stop => rfl
    | ok => rfl
  · rw [if_neg all, if_neg all]
    rfl

/-! ## Sessions compared -/

/-- What is done is the beginning of some acts, and all of them with a value when there is a
result. -/
structure Refines {α : Type} (done : Done α) (acts : List Act) (value : α) : Prop where
  begun : done.acts <+: acts
  whole : ∀ result, done.result = .ok result → done.acts = acts ∧ result = value

/-- What results in a value refines itself. -/
theorem Refines.of {α : Type} (acts : List Act) (value : α) :
    Refines (Done.of acts value) acts value :=
  ⟨List.prefix_refl acts, fun _ same => ⟨rfl, (Except.ok.inj same).symm⟩⟩

/-- What refines acts one after the other refines them together. -/
theorem Refines.andThen {α β : Type} {first : Done α} {next : α → Done β}
    {before later : List Act} {value : α} {value' : β} (front : Refines first before value)
    (back : Refines (next value) later value') :
    Refines (first.andThen next) (before ++ later) value' := by
  rw [Done.andThen]
  cases ends : first.result with
  | error stop =>
    exact ⟨front.begun.trans (List.prefix_append before later), fun _ same => by cases same⟩
  | ok result =>
    obtain ⟨acts, rfl⟩ := front.whole result ends
    refine ⟨acts ▸ (List.prefix_append_right_inj first.acts).mpr back.begun, fun result same => ?_⟩
    obtain ⟨acts', value⟩ := back.whole result same
    exact ⟨by rw [← acts, ← acts'], value⟩

/-- What is done before what refines some acts. -/
theorem Refines.after {α : Type} {next : Done α} {later : List Act} {value : α}
    (acts : List Act) (back : Refines next later value) :
    Refines ((Done.of acts ()).andThen fun _ => next) (acts ++ later) value :=
  (Refines.of acts ()).andThen back

/-- A list that is gone over first refines what is done when all of it are relays. -/
theorem Refines.validated {α : Type} {targets : List Char} {one : List Char → List Act}
    {done refused : Done α} {acts refusedActs : List Act} {value refusedValue : α}
    (accepted : Refines done acts value) (other : Refines refused refusedActs refusedValue) :
    Refines ((validateTargets targets).andThen fun valid =>
        if valid then (visitRelays one targets).andThen fun _ => done else refused)
      (if Ics8064.validateTargets relaysOf targets then (relaysOf targets).flatMap one ++ acts
        else refusedActs)
      (if Ics8064.validateTargets relaysOf targets then value else refusedValue) := by
  rw [validated_eq]
  by_cases all : ∀ relay ∈ relaysOf targets, ReadsAsRelay relay
  · rw [if_pos all, if_pos (validateTargets_iff.mpr all), if_pos (validateTargets_iff.mpr all)]
    cases endOf targets with
    | error stop => exact ⟨List.nil_prefix, fun _ same => by cases same⟩
    | ok => exact accepted.after ((relaysOf targets).flatMap one)
  · have invalid : ¬Ics8064.validateTargets relaysOf targets = true := fun valid =>
      all (validateTargets_iff.mp valid)
    rw [if_neg all, if_neg invalid, if_neg invalid]
    exact other

variable {radio : Nat}

/-- A line of the shell refines what is done when the relays of each text are given. -/
theorem docmd_refines (av : List (List Char)) :
    Refines (docmd radio av) (Ics8064.docmd radio relaysOf av).2
      (Ics8064.docmd radio relaysOf av).1 := by
  have line : ∀ targets one,
      Refines ((validateTargets targets).andThen fun valid =>
          if valid then (visitRelays one targets).andThen fun _ => .of [] false else .of [] false)
        (if Ics8064.validateTargets relaysOf targets then (relaysOf targets).flatMap one else [])
        false := by
    intro targets one
    have done := @Refines.validated Bool targets one _ _ _ _ _ _ (.of [] false) (.of [] false)
    simpa using done
  cases av with
  | nil => exact .of [] false
  | cons av0 args =>
    unfold docmd Ics8064.docmd
    dsimp only
    by_cases quit : av0 = "quit".toList
    · rw [if_pos quit, if_pos quit]
      exact .of [] true
    rw [if_neg quit, if_neg quit]
    by_cases close : av0 = "close".toList
    · rw [if_pos close, if_pos close]
      match args with
      | [] | _ :: _ :: _ => exact .of [] false
      | [targets] => exact line targets (closeOneRelay radio)
    rw [if_neg close, if_neg close]
    by_cases opens : av0 = "open".toList
    · rw [if_pos opens, if_pos opens]
      match args with
      | [] | _ :: _ :: _ => exact .of [] false
      | [targets] => exact line targets openOneRelay
    rw [if_neg opens, if_neg opens]
    by_cases status : av0 = "status".toList
    · rw [if_pos status, if_pos status]
      match args with
      | [] => exact .of queryRelays false
      | _ :: _ => exact .of [] false
    · rw [if_neg status, if_neg status]
      exact .of [] false

/-- The shell reads a line and goes on. -/
theorem shell_eq (stdin : List Char) :
    shell radio stdin =
      match xreadline 128 stdin with
      | (none, stdin) => .of [] stdin
      | (some buf, stdin) =>
        if 0 < buf.length then
          (docmd radio ((argvCreate [] buf).getD [])).andThen fun quit =>
            if quit then .of [] stdin else shell radio stdin
        else shell radio stdin := by
  rw [shell]
  split
  · rename_i read
    rw [read]
  · rename_i read
    rw [read]

/-- The shell refines what is done when the relays of each text are given. -/
theorem shell_refines (stdin : List Char) :
    Refines (shell radio stdin) (Ics8064.shell radio relaysOf stdin).1
      (Ics8064.shell radio relaysOf stdin).2 := by
  fun_induction Ics8064.shell radio relaysOf stdin with
  | case1 stdin rest read =>
    rw [shell_eq, read]
    exact .of [] rest
  | case2 stdin buf rest read long acts did =>
    have line := @docmd_refines radio ((argvCreate [] buf).getD [])
    rw [did] at line
    rw [shell_eq, read]
    dsimp only
    rw [if_pos long, ← List.append_nil acts]
    exact line.andThen (.of [] rest)
  | case3 stdin buf rest read long quit acts did stays later left went ih =>
    have line := @docmd_refines radio ((argvCreate [] buf).getD [])
    rw [did] at line
    rw [went] at ih
    rw [shell_eq, read]
    dsimp only
    rw [if_pos long]
    refine line.andThen ?_
    rw [if_neg stays]
    exact ih
  | case4 stdin buf rest read blank ih =>
    rw [shell_eq, read]
    dsimp only
    rw [if_neg blank]
    exact ih

/-- The second pass over the options refines what is done when the relays of each text are
given. -/
theorem secondPass_refines (options : List Opt) (stdin : List Char) (exitVal : Int) :
    Refines (secondPass radio options stdin exitVal)
      (Ics8064.secondPass radio relaysOf options stdin exitVal).1
      (Ics8064.secondPass radio relaysOf options stdin exitVal).2 := by
  induction options generalizing stdin exitVal with
  | nil => exact .of [] exitVal
  | cons option options ih =>
    cases option with
    | radio | name | address => exact ih stdin exitVal
    | loc => exact (ih stdin exitVal).after [.loc]
    | clear => exact (ih stdin exitVal).after clear
    | getIdnString => exact (ih stdin exitVal).after getIdn
    | openRelays targets =>
      have done := @Refines.validated Int targets openOneRelay _ _ _ _ _ _ (ih stdin exitVal)
        (ih stdin 1)
      rw [secondPass, Ics8064.secondPass]
      by_cases valid : Ics8064.validateTargets relaysOf targets = true
      · rw [if_pos valid, if_pos valid] at done
        rw [if_pos valid]
        exact done
      · rw [if_neg valid, if_neg valid] at done
        rw [if_neg valid]
        exact done
    | closeRelays targets =>
      have done := @Refines.validated Int targets (closeOneRelay radio) _ _ _ _ _ _
        (ih stdin exitVal) (ih stdin 1)
      rw [secondPass, Ics8064.secondPass]
      by_cases valid : Ics8064.validateTargets relaysOf targets = true
      · rw [if_pos valid, if_pos valid] at done
        rw [if_pos valid]
        exact done
      · rw [if_neg valid, if_neg valid] at done
        rw [if_neg valid]
        exact done
    | query => exact (ih stdin exitVal).after queryRelays
    | queryDigital => exact (ih stdin exitVal).after queryDigital
    | shell => exact (shell_refines stdin).andThen (ih _ exitVal)
    | selftest => exact (ih stdin exitVal).after selftest
    | other => exact .of [] 1

/-- Each act that begins as a command to open or close one relay is one, for a text that reads as
the number of a relay. -/
def Named (acts : List Act) : Prop :=
  ∀ act ∈ acts, act.oneRelay = true →
    ∃ relay, ReadsAsRelay relay ∧ (act = routeOpen relay ∨ act = routeClose relay)

/-- Acts that do not begin so name no other relays. -/
theorem Named.quiet {acts : List Act} (quiet : ∀ act ∈ acts, act.oneRelay = false) : Named acts :=
  fun act member one => absurd one (by rw [quiet act member]; exact Bool.false_ne_true)

/-- Nothing names no other relays. -/
theorem Named.nil : Named [] := .quiet (by decide)

/-- Acts that name relays do so one after the other. -/
theorem Named.append {before later : List Act} (first : Named before) (second : Named later) :
    Named (before ++ later) := by
  intro act member one
  rcases List.mem_append.mp member with front | back
  · exact first act front one
  · exact second act back one

variable {expand : List Char → List (List Char)} {targets : List Char}

/-- A request whose list is accepted names relays. -/
theorem openRelays_named (valid : Ics8064.validateTargets expand targets = true) :
    Named (Ics8064.openRelays expand targets) := by
  intro act member _
  obtain ⟨relay, listed, done⟩ := List.mem_flatMap.mp member
  exact ⟨relay, validateTargets_iff.mp valid relay listed, .inl (List.mem_singleton.mp done)⟩

/-- A request to close relays whose list is accepted names relays. -/
theorem closeRelays_named (valid : Ics8064.validateTargets expand targets = true) :
    Named (Ics8064.closeRelays radio expand targets) := by
  intro act member one
  obtain ⟨relay, listed, done⟩ := List.mem_flatMap.mp member
  rcases List.mem_append.mp done with all | close
  · split at all
    · rw [List.mem_singleton.mp all] at one
      cases one
    · cases all
  · exact ⟨relay, validateTargets_iff.mp valid relay listed, .inr (List.mem_singleton.mp close)⟩

/-- Acts that are done when a condition holds. -/
theorem Named.ite {cond : Prop} [Decidable cond] {acts other : List Act}
    (taken : cond → Named acts) (passed : Named other) : Named (if cond then acts else other) := by
  split
  · exact taken ‹_›
  · exact passed

/-- A line of the shell names relays. -/
theorem docmd_named (av : List (List Char)) : Named (Ics8064.docmd radio expand av).2 := by
  have nothing := Named.nil
  unfold Ics8064.docmd
  split
  · exact nothing
  · split
    · exact nothing
    · split
      · split
        · exact .ite closeRelays_named nothing
        · exact nothing
      · split
        · split
          · exact .ite openRelays_named nothing
          · exact nothing
        · split
          · split
            · exact .quiet (by decide)
            · exact nothing
          · exact nothing

/-- The shell names relays. -/
theorem shell_named (stdin : List Char) : Named (Ics8064.shell radio expand stdin).1 := by
  fun_induction Ics8064.shell radio expand stdin with
  | case1 => exact .nil
  | case2 stdin buf rest read long acts did =>
    have named := @docmd_named radio expand ((argvCreate [] buf).getD [])
    rw [did] at named
    exact named
  | case3 stdin buf rest read long quit acts did stays later left went ih =>
    have named := @docmd_named radio expand ((argvCreate [] buf).getD [])
    rw [did] at named
    rw [went] at ih
    exact named.append ih
  | case4 stdin buf rest read blank ih => exact ih

/-- The second pass over the options names relays. -/
theorem secondPass_named (options : List Opt) (stdin : List Char) (exitVal : Int) :
    Named (Ics8064.secondPass radio expand options stdin exitVal).1 := by
  induction options generalizing stdin exitVal with
  | nil => exact .nil
  | cons option options ih =>
    cases option with
    | radio | name | address => exact ih stdin exitVal
    | loc | clear | getIdnString | query | queryDigital | selftest =>
      exact Named.append (.quiet (by decide)) (ih stdin exitVal)
    | openRelays targets =>
      rw [Ics8064.secondPass]
      split
      · exact (openRelays_named ‹_›).append (ih stdin exitVal)
      · exact ih stdin 1
    | closeRelays targets =>
      rw [Ics8064.secondPass]
      split
      · exact (closeRelays_named ‹_›).append (ih stdin exitVal)
      · exact ih stdin 1
    | shell => exact (shell_named stdin).append (ih _ exitVal)
    | other => exact .nil

/-- 4294967297 is taken for relay 1: the command for it is sent. -/
theorem large_number_opens_relay :
    ¬ AllOrNothing 0 (.opens "[4294967297]".toList) (relaysOf "[4294967297]".toList)
        (Ics8064.docmd 0 relaysOf (Request.line (.opens "[4294967297]".toList))).2 ∧
      (docmd 0 (Request.line (.opens "[4294967297]".toList))).acts =
        [.wrt "ROUTE:OPEN 4294967297\n".toList] := by
  have relays : relaysOf "[4294967297]".toList = ["4294967297".toList] := by decide
  refine ⟨fun acts => ?_, by decide⟩
  rw [relays] at acts
  have quiet := acts.nothing (by decide) (routeOpen "4294967297".toList) (by decide)
  cases quiet

/-! ## Texts in the notation -/

/-- The relays of a text that is written as the notation has it are the names that it stands for,
and the end of the list is reached unless its ranges fill the array. -/
theorem relaysOf_written {str : List Char} {names : List (List Char)} (denotes : Denotes str names)
    (short : ∀ name ∈ names, name.length ≤ 14) (few : (names.length : Int) ≤ intMax) :
    ∃ hl, hostlistCreate str = .list hl ∧ relaysOf str = names ∧
      endOf str = if hl.hr = [] ∨ hl.hr.length < hl.size then .ok () else .error .outside := by
  obtain ⟨hl, made, sound, hosts⟩ := denotes.creates_sound short few
  obtain ⟨it, created, through⟩ := sound.through
  have read : listOf str = .ok (hl, it) := by
    rw [listOf, made]
    dsimp only
    rw [created]
  have enough : (nextLoop hl hl.rounds it).1.length < hl.rounds := by
    rw [through]
    exact sound.rounds_enough
  refine ⟨hl, made, ?_, ?_⟩
  · rw [relaysOf, read]
    dsimp only
    rw [through, hosts]
  · rw [endOf, read]
    dsimp only
    rw [loopEnd_eq enough, through]
    by_cases ends : hl.hr = [] ∨ hl.hr.length < hl.size
    · simp [ends]
    · simp [ends]

/-- A request whose list is written as the notation has it is acted on all or nothing: when all
names that it stands for read as relays there is what is done with each of them, in order, and
otherwise nothing. A list whose ranges fill the array is not acted on either: the array is left
before. -/
theorem relays_answered {str : List Char} {names : List (List Char)} (denotes : Denotes str names)
    (short : ∀ name ∈ names, name.length ≤ 14) (few : (names.length : Int) ≤ intMax) :
    ∃ hl, hostlistCreate str = .list hl ∧ ∀ radio request, Request.targets request = str →
      docmd radio request.line =
        if ∀ relay ∈ names, ReadsAsRelay relay then
          if hl.hr = [] ∨ hl.hr.length < hl.size then
            .of (request.acts radio fun _ => names) false
          else ⟨[], .error .outside⟩
        else .of [] false := by
  obtain ⟨hl, made, relays, ends⟩ := relaysOf_written denotes short few
  refine ⟨hl, made, fun radio request same => ?_⟩
  have line : ∀ one, ((validateTargets str).andThen fun valid =>
        if valid then (visitRelays one str).andThen fun _ => .of [] false else .of [] false) =
      if ∀ relay ∈ names, ReadsAsRelay relay then
        if hl.hr = [] ∨ hl.hr.length < hl.size then .of (names.flatMap one) false
        else ⟨[], .error .outside⟩
      else .of [] false := by
    intro one
    rw [validated_eq, relays, ends]
    by_cases fits : hl.hr = [] ∨ hl.hr.length < hl.size
    · simp [fits, Done.of]
    · simp [fits]
  cases request with
  | opens targets =>
    cases same
    exact line openOneRelay
  | closes targets =>
    cases same
    exact line (closeOneRelay radio)

/-- The relays that the help of the shell shows are closed one after another. -/
theorem relays_answered_help :
    docmd 0 ["close".toList, "1-10,16".toList] =
      .of (["1", "2", "3", "4", "5", "6", "7", "8", "9", "10", "16"].map fun relay =>
        routeClose relay.toList) false := by
  have range : (Piece.mk "1".toList (some "10".toList)).Loose :=
    ⟨by decide, fun hi same => by cases same; decide, by decide, by decide⟩
  have number : (Piece.mk "16".toList none).Loose :=
    ⟨by decide, fun hi same => absurd same (by simp), by decide, by decide⟩
  have front : Front [] := ⟨by decide, by decide, by decide⟩
  have loosely : Loosely (some ⟨[], 0⟩) ["1-10".toList, "16".toList] _ :=
    .numbers front (fun _ => ⟨_, rfl, rfl⟩) (.inl rfl) range
      (.numbers front (fun _ => ⟨_, rfl, rfl⟩) (.inl rfl) number .nil)
  have none : ∀ c ∈ ([] : List Char), isSep c = true := by decide
  have comma : ∀ c ∈ [','], isSep c = true := by decide
  have first : (Item.host "1-10".toList).Proper := ⟨by decide, by decide, by decide⟩
  have second : (Item.host "16".toList).Proper := ⟨by decide, by decide, by decide⟩
  have written : Written (["1-10".toList, "16".toList].map Item.host) "1-10,16".toList :=
    .cons none first (by decide) (.cons comma second (by decide) (.nil none))
  obtain ⟨hl, made, answered⟩ := relays_answered (.loose written loosely) (by decide) (by decide)
  have room : hl.hr = [] ∨ hl.hr.length < hl.size := by
    have list : hostlistCreate "1-10,16".toList =
        .list ⟨[hostrangeCreate [] 1 10 1, hostrangeCreate [] 16 16 2], 16, 11⟩ := by decide +kernel
    cases made.symm.trans list
    decide
  refine (answered 0 (.closes "1-10,16".toList) rfl).trans ((if_pos (by decide)).trans ?_)
  rw [if_pos room]
  rfl

end GpibUtils.Ics8064.Lists
