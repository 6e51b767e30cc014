import GpibUtils.CSem.Text
import GpibUtils.Runs
import GpibUtils.Util.Argv
import GpibUtils.Util.Readline
import Mathlib.Data.Set.Subsingleton

/-!
# The relays of ics8064

`ics8064` opens and closes the relays of an instrument, as its options and the lines of its shell
ask for. In radio mode it opens all relays before it closes one. Whatever is asked for, at most one
relay is closed after every single command that is sent then, and a request to close relays leaves
exactly the last of them closed (`radio_closes_one`).

What a list of relays stands for is decided by the host lists of `liblsd`; here it is a parameter.
-/

namespace GpibUtils.Ics8064

open CSem Runs Util

/-! ## The code -/

/-- A call of an operation of the instrument. -/
inductive Act where
  | wrt (string : List Char)
  | rdstr (len : Nat)
  | loc
  | clr (usec : Nat)
  | usleep (usec : Nat)
  deriving DecidableEq

/-- `_clear` -/
def clear : List Act :=
  [.clr 1000, .wrt "*RST\n".toList, .usleep (1000 * 100), .wrt "*ESE 60\n".toList]
/-- `_selftest` -/
def selftest : List Act := [.wrt "*TST?\n".toList, .rdstr 128]
/-- `_get_idn` -/
def getIdn : List Act := [.wrt "*IDN?\n".toList, .rdstr 64]
/-- `_query_digital` -/
def queryDigital : List Act := [.wrt "STAT:QUES:COND?\n".toList, .rdstr 64]
/-- `_query_relays` -/
def queryRelays : List Act := [.wrt "ROUTE:CLOSE:STATE?\n".toList, .rdstr 128]

/-- The command that opens all relays. -/
def routeOpenAll : Act := .wrt "ROUTE:OPEN:ALL\n".toList
/-- The command that opens a relay. -/
def routeOpen (relay : List Char) : Act := .wrt ("ROUTE:OPEN ".toList ++ relay ++ ['\n'])
/-- The command that closes a relay. -/
def routeClose (relay : List Char) : Act := .wrt ("ROUTE:CLOSE ".toList ++ relay ++ ['\n'])

/-- `_open_one_relay` -/
def openOneRelay (relay : List Char) : List Act := [routeOpen relay]

variable (radio : Nat) (expand : List Char → List (List Char))

/-- `_open_relays` -/
def openRelays (targets : List Char) : List Act := (expand targets).flatMap openOneRelay

/-- `_close_one_relay` -/
def closeOneRelay (relay : List Char) : List Act :=
  (if radio ≠ 0 then [routeOpenAll] else []) ++ [routeClose relay]

/-- `_close_relays` -/
def closeRelays (targets : List Char) : List Act := (expand targets).flatMap (closeOneRelay radio)

/-- `_validate_targets` -/
def validateTargets (targets : List Char) : Bool :=
  (expand targets).all fun relay =>
    let (number, endptr) := strtoul relay
    let n := toInt number.toNat
    !(endptr ≠ [] ∨ n < 1 ∨ n > 16)

/-- `_docmd`: whether the shell is left, and what is done. -/
def docmd (av : List (List Char)) : Bool × List Act :=
  match av with
  | [] => (false, [])
  | av0 :: args =>
    if av0 = "quit".toList then (true, [])
    else if av0 = "close".toList then
      match args with
      | [targets] =>
        (false, if validateTargets expand targets then closeRelays radio expand targets else [])
      | _ => (false, [])
    else if av0 = "open".toList then
      match args with
      | [targets] =>
        (false, if validateTargets expand targets then openRelays expand targets else [])
      | _ => (false, [])
    else if av0 = "status".toList then
      match args with
      | [] => (false, queryRelays)
      | _ => (false, [])
    else (false, [])

/-- `_shell`: what is done, and what is left of the input. Allocation succeeds. -/
def shell (stdin : List Char) : List Act × List Char :=
  match _read : xreadline 128 stdin with
  | (none, stdin) => ([], stdin)
  | (some buf, stdin) =>
    if 0 < buf.length then
      let (quit, acts) := docmd radio expand ((argvCreate [] buf).getD [])
      if quit then (acts, stdin)
      else
        let (later, stdin) := shell stdin
        (acts ++ later, stdin)
    else shell stdin
termination_by stdin.length
decreasing_by all_goals exact length_xreadline (by decide) _read

/-- An option, as `getopt_long` gives it. -/
inductive Opt where
  | radio
  | name (name : List Char)
  | address (address : List Char)
  | loc
  | clear
  | getIdnString
  | openRelays (targets : List Char)
  | closeRelays (targets : List Char)
  | query
  | queryDigital
  | shell
  | selftest
  /-- An option that the second pass has no case for. -/
  | other
  deriving DecidableEq

/-- The first pass of `main` over the options, as far as it counts `radio`. -/
def firstPass (options : List Opt) : Nat := options.count .radio

/-- The second pass of `main` over the options: what is done, and the exit value. -/
def secondPass : List Opt → List Char → Int → List Act × Int
  | [], _, exitVal => ([], exitVal)
  | option :: options, stdin, exitVal =>
    let next := fun (acts : List Act) (stdin : List Char) (exitVal : Int) =>
      let (later, exitVal) := secondPass options stdin exitVal
      (acts ++ later, exitVal)
    match option with
    | .radio | .name _ | .address _ => next [] stdin exitVal
    | .loc => next [.loc] stdin exitVal
    | .clear => next clear stdin exitVal
    | .getIdnString => next getIdn stdin exitVal
    | .openRelays targets =>
      if validateTargets expand targets then next (openRelays expand targets) stdin exitVal
      else next [] stdin 1
    | .closeRelays targets =>
      if validateTargets expand targets then next (closeRelays radio expand targets) stdin exitVal
      else next [] stdin 1
    | .query => next queryRelays stdin exitVal
    | .queryDigital => next queryDigital stdin exitVal
    | .shell =>
      let (acts, stdin) := shell radio expand stdin
      next acts stdin exitVal
    | .selftest => next selftest stdin exitVal
    | .other => ([], 1)

/-- `main`: what is done with the instrument, and the exit value. -/
def main (options : List Opt) (stdin : List Char) : List Act × Int :=
  secondPass (firstPass options) expand options stdin 0

/-! ## The instrument -/

/-- The number of a relay, in digits. -/
def IsRelay (relay : List Char) : Prop :=
  relay ≠ [] ∧ relay.all Char.isDigit = true ∧ 1 ≤ digitsValue relay ∧ digitsValue relay ≤ 16

instance : DecidablePred IsRelay := fun relay =>
  inferInstanceAs (Decidable (relay ≠ [] ∧ relay.all Char.isDigit = true ∧
    1 ≤ digitsValue relay ∧ digitsValue relay ≤ 16))

/-- An instrument with relays: what is done with it, and which relays are closed. -/
structure Relays (κ : Type) where
  act : κ → Act → κ
  closed : κ → Set Nat
  openAll : ∀ state, closed (act state routeOpenAll) = ∅
  openOne : ∀ state relay, IsRelay relay →
    closed (act state (routeOpen relay)) = closed state \ {digitsValue relay}
  closeOne : ∀ state relay, IsRelay relay →
    closed (act state (routeClose relay)) = insert (digitsValue relay) (closed state)

/-- A command that opens all relays, or opens or closes one that there is. -/
def Routes (act : Act) : Prop :=
  act = routeOpenAll ∨ ∃ relay, IsRelay relay ∧ (act = routeOpen relay ∨ act = routeClose relay)

variable {κ : Type} (relays : Relays κ)

/-- What is done next to opening and closing relays closes none, whatever is closed before. A
session of requests does nothing else. -/
def Relays.OthersHarmless (acts : List Act) : Prop :=
  ∀ act ∈ acts, ¬ Routes act → ∀ state, relays.closed (relays.act state act) ⊆ relays.closed state

/-- At most one relay is closed. -/
def Relays.AtMostOne (state : κ) : Prop := (relays.closed state).Subsingleton

/-- At most one relay is closed after every single act. -/
def Relays.OneThroughout (state : κ) (acts : List Act) : Prop :=
  Along relays.act (fun state act => relays.AtMostOne (relays.act state act)) state acts

/-! ## Radio mode -/

variable {relays} {radio : Nat} {expand : List Char → List (List Char)}

/-- Acts that keep at most one relay closed, when what they do next to opening and closing relays
closes none. -/
def Keeps (relays : Relays κ) (acts : List Act) : Prop :=
  relays.OthersHarmless acts → ∀ state, relays.AtMostOne state →
    relays.OneThroughout state acts ∧ relays.AtMostOne (run relays.act state acts)

/-- Nothing keeps it. -/
theorem Keeps.nil : Keeps relays [] := fun _ _ one => ⟨trivial, one⟩

/-- What keeps it one after the other keeps it together. -/
theorem Keeps.append {before later : List Act} (first : Keeps relays before)
    (second : Keeps relays later) : Keeps relays (before ++ later) := by
  intro others state one
  have front := first (fun act member => others act (List.mem_append_left later member)) state one
  have back := second (fun act member => others act (List.mem_append_right before member)) _ front.2
  refine ⟨Along.append.mpr ⟨front.1, back.1⟩, ?_⟩
  rw [run, List.foldl_append]
  exact back.2

/-- What keeps it for each of a list keeps it for all. -/
theorem Keeps.flatMap {α : Type} {list : List α} {acts : α → List Act}
    (each : ∀ element, Keeps relays (acts element)) : Keeps relays (list.flatMap acts) := by
  induction list with
  | nil => exact Keeps.nil
  | cons element list ih => exact (each element).append ih

/-- An act that closes no relay keeps it. -/
theorem Keeps.single {act : Act}
    (closes : ∀ state, relays.closed (relays.act state act) ⊆ relays.closed state) :
    Keeps relays [act] := by
  intro _ state one
  have after := one.anti (closes state)
  exact ⟨⟨after, trivial⟩, after⟩

/-- An act that is no command to close a relay keeps it. -/
theorem Keeps.other {act : Act}
    (opens : ∀ relay, IsRelay relay → act ≠ routeClose relay) : Keeps relays [act] := by
  by_cases routes : Routes act
  · refine Keeps.single fun state => ?_
    rcases routes with rfl | ⟨relay, valid, rfl | rfl⟩
    · rw [relays.openAll]
      exact Set.empty_subset _
    · rw [relays.openOne state relay valid]
      exact Set.sdiff_subset
    · exact absurd rfl (opens relay valid)
  · exact fun others => Keeps.single (others act List.mem_cons_self routes) others

/-- Whether an act begins as the commands to close a relay do. -/
def Act.closing : Act → Bool
  | .wrt string => string.take 12 == "ROUTE:CLOSE ".toList
  | _ => false

/-- Acts that do not begin as the commands to close a relay keep it. -/
theorem Keeps.quiet {acts : List Act} (quiet : ∀ act ∈ acts, act.closing = false) :
    Keeps relays acts := by
  induction acts with
  | nil => exact Keeps.nil
  | cons act acts ih =>
    have first : Keeps relays [act] := Keeps.other fun relay _ same => by
      have closing := quiet act List.mem_cons_self
      rw [same] at closing
      cases closing
    exact first.append (ih fun other member => quiet other (List.mem_cons_of_mem act member))

/-- A command to open a relay keeps it. -/
theorem openOneRelay_keeps (relay : List Char) : Keeps relays (openOneRelay relay) := by
  refine Keeps.other fun relay' _ same => ?_
  have letter := congrArg (fun string => string[6]?) (Act.wrt.inj same)
  cases letter

/-- In radio mode a command to close a relay keeps it: all are opened before. -/
theorem closeOneRelay_keeps (mode : radio ≠ 0) (relay : List Char) :
    Keeps relays (closeOneRelay radio relay) := by
  rw [closeOneRelay, if_pos mode]
  by_cases valid : IsRelay relay
  · intro _ state one
    have opened := relays.openAll state
    have closed := relays.closeOne (relays.act state routeOpenAll) relay valid
    rw [opened] at closed
    have none : relays.AtMostOne (relays.act state routeOpenAll) := by
      rw [Relays.AtMostOne, opened]
      exact Set.subsingleton_empty
    have single : relays.AtMostOne
        (relays.act (relays.act state routeOpenAll) (routeClose relay)) := by
      rw [Relays.AtMostOne, closed, insert_empty_eq]
      exact Set.subsingleton_singleton
    exact ⟨⟨none, single, trivial⟩, single⟩
  · refine Keeps.append (Keeps.quiet (by decide)) (Keeps.other fun relay' valid' same => ?_)
    have string := List.append_cancel_right (Act.wrt.inj same)
    exact valid (List.append_cancel_left string ▸ valid')

/-- A request to open relays keeps it. -/
theorem openRelays_keeps (targets : List Char) : Keeps relays (openRelays expand targets) :=
  Keeps.flatMap openOneRelay_keeps

/-- In radio mode a request to close relays keeps it. -/
theorem closeRelays_keeps (mode : radio ≠ 0) (targets : List Char) :
    Keeps relays (closeRelays radio expand targets) :=
  Keeps.flatMap (closeOneRelay_keeps mode)

/-- In radio mode a line of the shell keeps it. -/
theorem docmd_keeps (mode : radio ≠ 0) (av : List (List Char)) :
    Keeps relays (docmd radio expand av).2 := by
  unfold docmd
  split
  · exact Keeps.nil
  · split
    · exact Keeps.nil
    · split
      · split
        · split
          · exact closeRelays_keeps mode _
          · exact Keeps.nil
        · exact Keeps.nil
      · split
        · split
          · split
            · exact openRelays_keeps _
            · exact Keeps.nil
          · exact Keeps.nil
        · split
          · split
            · exact Keeps.quiet (by decide)
            · exact Keeps.nil
          · exact Keeps.nil

/-- In radio mode the shell keeps it. -/
theorem shell_keeps (mode : radio ≠ 0) (stdin : List Char) :
    Keeps relays (shell radio expand stdin).1 := by
  fun_induction shell radio expand stdin with
  | case1 => exact Keeps.nil
  | case2 stdin buf rest read long acts did =>
    have kept : Keeps relays (docmd radio expand ((argvCreate [] buf).getD [])).2 :=
      docmd_keeps mode _
    rw [did] at kept
    exact kept
  | case3 stdin buf rest read long quit acts did stays later left went ih =>
    have kept : Keeps relays (docmd radio expand ((argvCreate [] buf).getD [])).2 :=
      docmd_keeps mode _
    rw [did] at kept
    rw [went] at ih
    exact kept.append ih
  | case4 stdin buf rest read blank ih => exact ih

/-- In radio mode the second pass over the options keeps it. -/
theorem secondPass_keeps (mode : radio ≠ 0) (options : List Opt) (stdin : List Char)
    (exitVal : Int) : Keeps relays (secondPass radio expand options stdin exitVal).1 := by
  induction options generalizing stdin exitVal with
  | nil => exact Keeps.nil
  | cons option options ih =>
    have quiet : ∀ acts stdin exitVal, (∀ act ∈ acts, act.closing = false) →
        Keeps relays (acts ++ (secondPass radio expand options stdin exitVal).1) :=
      fun acts stdin exitVal other => (Keeps.quiet other).append (ih stdin exitVal)
    cases option with
    | radio => exact ih stdin exitVal
    | name => exact ih stdin exitVal
    | address => exact ih stdin exitVal
    | loc => exact quiet _ stdin exitVal (by decide)
    | clear => exact quiet _ stdin exitVal (by decide)
    | getIdnString => exact quiet _ stdin exitVal (by decide)
    | openRelays targets =>
      rw [secondPass]
      split
      · exact (openRelays_keeps targets).append (ih stdin exitVal)
      · exact ih stdin 1
    | closeRelays targets =>
      rw [secondPass]
      split
      · exact (closeRelays_keeps mode targets).append (ih stdin exitVal)
      · exact ih stdin 1
    | query => exact quiet _ stdin exitVal (by decide)
    | queryDigital => exact quiet _ stdin exitVal (by decide)
    | shell => exact (shell_keeps mode stdin).append (ih _ exitVal)
    | selftest => exact quiet _ stdin exitVal (by decide)
    | other => exact Keeps.nil

/-! ## Requests -/

/-- A list of relays, as a request may name. -/
def Requested (expand : List Char → List (List Char)) (targets : List Char) : Prop :=
  expand targets ≠ [] ∧ ∀ relay ∈ expand targets, IsRelay relay

/-- Such a list is accepted. -/
theorem Requested.valid {targets : List Char} (requested : Requested expand targets) :
    validateTargets expand targets = true := by
  rw [validateTargets, List.all_eq_true]
  intro relay member
  obtain ⟨nonempty, decimal, low, high⟩ := requested.2 relay member
  have fits : digitsValue relay < 2 ^ 64 := by omega
  have read := @strtoul_digits relay [] nonempty (List.all_eq_true.mp decimal)
    (fun _ none => by cases none) fits
  rw [List.append_nil] at read
  have int : toInt (digitsValue relay) = digitsValue relay :=
    toInt_of_range (by omega) (by unfold intMax; omega)
  simp only [read, UInt64.toNat_ofNat_of_lt' fits, int]
  simp
  omega

/-- A request to open or to close relays. -/
inductive Request where
  | opens (targets : List Char)
  | closes (targets : List Char)

/-- The list of relays of a request. -/
def Request.targets : Request → List Char
  | .opens targets | .closes targets => targets

/-- What a request is answered with. -/
def Request.acts (radio : Nat) (expand : List Char → List (List Char)) : Request → List Act
  | .opens targets => Ics8064.openRelays expand targets
  | .closes targets => Ics8064.closeRelays radio expand targets

/-- A request as a line of the shell. -/
def Request.line : Request → List (List Char)
  | .opens targets => ["open".toList, targets]
  | .closes targets => ["close".toList, targets]

/-- A request as an option. -/
def Request.option : Request → Opt
  | .opens targets => .openRelays targets
  | .closes targets => .closeRelays targets

/-- A request is answered in the shell, and as an option before the other options. -/
theorem Request.answered {request : Request} (requested : Requested expand request.targets)
    (options : List Opt) (stdin : List Char) (exitVal : Int) :
    docmd radio expand request.line = (false, request.acts radio expand) ∧
      (secondPass radio expand (request.option :: options) stdin exitVal).1 =
        request.acts radio expand ++ (secondPass radio expand options stdin exitVal).1 := by
  have valid := requested.valid
  cases request with
  | opens targets =>
    have accepted : validateTargets expand targets = true := valid
    constructor
    · exact congrArg (Prod.mk false) (if_pos accepted)
    · simp only [Request.option, secondPass, if_pos accepted]
      rfl
  | closes targets =>
    have accepted : validateTargets expand targets = true := valid
    constructor
    · exact congrArg (Prod.mk false) (if_pos accepted)
    · simp only [Request.option, secondPass, if_pos accepted]
      rfl

/-- A request opens and closes relays only. -/
theorem Request.routes {request : Request} (requested : Requested expand request.targets) :
    ∀ act ∈ request.acts radio expand, Routes act := by
  intro act member
  cases request with
  | opens targets =>
    obtain ⟨relay, listed, done⟩ := List.mem_flatMap.mp member
    exact .inr ⟨relay, requested.2 relay listed, .inl (List.mem_singleton.mp done)⟩
  | closes targets =>
    obtain ⟨relay, listed, done⟩ := List.mem_flatMap.mp member
    cases List.mem_append.mp done with
    | inl all =>
      split at all
      · exact .inl (List.mem_singleton.mp all)
      · cases all
    | inr one => exact .inr ⟨relay, requested.2 relay listed, .inr (List.mem_singleton.mp one)⟩

/-- In radio mode a request keeps at most one relay closed. -/
theorem Request.keeps (mode : radio ≠ 0) (request : Request) :
    Keeps relays (request.acts radio expand) := by
  cases request with
  | opens targets => exact openRelays_keeps targets
  | closes targets => exact closeRelays_keeps mode targets

/-- In radio mode a request leaves exactly the last relay of its list closed. -/
theorem closeRelays_last (mode : radio ≠ 0) {targets last : List Char}
    (requested : Requested expand targets) (ends : (expand targets).getLast? = some last)
    (state : κ) :
    relays.closed (run relays.act state (closeRelays radio expand targets)) =
      {digitsValue last} := by
  obtain ⟨front, list⟩ := List.getLast?_eq_some_iff.mp ends
  have valid := requested.2 last (List.mem_of_getLast? ends)
  have acts : closeRelays radio expand targets =
      front.flatMap (closeOneRelay radio) ++ [routeOpenAll, routeClose last] := by
    rw [closeRelays, list, List.flatMap_append, List.flatMap_singleton, closeOneRelay, if_pos mode]
    rfl
  rw [acts, run, List.foldl_append]
  change relays.closed (relays.act (relays.act _ routeOpenAll) (routeClose last)) = _
  rw [relays.closeOne _ last valid, relays.openAll, insert_empty_eq]

/-- Without radio mode no command of a request opens a relay. -/
theorem closeRelays_opens_nothing {targets : List Char} (requested : Requested expand targets)
    (state : κ) :
    Along relays.act (fun state act => relays.closed state ⊆ relays.closed (relays.act state act))
      state (closeRelays 0 expand targets) := by
  have valid := requested.2
  rw [closeRelays]
  generalize expand targets = list at valid
  induction list generalizing state with
  | nil => trivial
  | cons relay later ih =>
    rw [List.forall_mem_cons] at valid
    refine ⟨?_, ih _ valid.2⟩
    change relays.closed state ⊆ relays.closed (relays.act state (routeClose relay))
    rw [relays.closeOne state relay valid.1]
    exact Set.subset_insert _ _

/-- With `--radio` among the options, any requests, and any whole session, that start with at most
one relay closed have at most one closed after every single command, and a request to close relays
leaves exactly the last of its list closed, whatever was closed before; without it, no command of
such a request opens a relay. What is done for a request is what is done for it as a line of the
shell and as an option. -/
theorem radio_closes_one (relays : Relays κ) (expand : List Char → List (List Char))
    (options : List Opt) :
    (.radio ∈ options →
      (∀ (requests : List Request) state,
        (∀ request ∈ requests, Requested expand request.targets) → relays.AtMostOne state →
          relays.OneThroughout state
            (requests.flatMap (Request.acts (firstPass options) expand))) ∧
      (∀ stdin state, relays.OthersHarmless (main expand options stdin).1 →
        relays.AtMostOne state → relays.OneThroughout state (main expand options stdin).1) ∧
      ∀ targets last state, Requested expand targets →
        (expand targets).getLast? = some last →
          relays.closed (run relays.act state
            (Request.acts (firstPass options) expand (.closes targets))) = {digitsValue last}) ∧
    (.radio ∉ options → ∀ targets state, Requested expand targets →
      Along relays.act
        (fun state act => relays.closed state ⊆ relays.closed (relays.act state act)) state
        (Request.acts (firstPass options) expand (.closes targets))) ∧
    ∀ request : Request, Requested expand request.targets →
      docmd (firstPass options) expand request.line =
          (false, request.acts (firstPass options) expand) ∧
        ∀ later stdin exitVal,
          (secondPass (firstPass options) expand (request.option :: later) stdin exitVal).1 =
            request.acts (firstPass options) expand ++
              (secondPass (firstPass options) expand later stdin exitVal).1 := by
  refine ⟨?_, ?_, fun request requested =>
    ⟨(request.answered requested [] [] 0).1, fun later stdin exitVal =>
      (request.answered requested later stdin exitVal).2⟩⟩
  · intro radio
    have mode : firstPass options ≠ 0 := (List.count_pos_iff.mpr radio).ne'
    refine ⟨fun requests state requested one => ?_, fun stdin state others one => ?_,
      fun targets last state requested ends => closeRelays_last mode requested ends state⟩
    · have kept : Keeps relays (requests.flatMap (Request.acts (firstPass options) expand)) :=
        Keeps.flatMap (Request.keeps mode)
      have only : relays.OthersHarmless
          (requests.flatMap (Request.acts (firstPass options) expand)) := by
        intro act member other
        obtain ⟨request, listed, done⟩ := List.mem_flatMap.mp member
        exact absurd (Request.routes (requested request listed) act done) other
      exact (kept only state one).1
    · exact (secondPass_keeps mode options stdin 0 others state one).1
  · intro plain targets state requested
    have mode : firstPass options = 0 := List.count_eq_zero.mpr plain
    rw [mode]
    exact closeRelays_opens_nothing requested state

/-- A panel of relays, as the set of those that are closed. -/
def panel : Relays (Set Nat) where
  act state
    | .wrt string =>
      if string = "ROUTE:OPEN:ALL\n".toList then ∅
      else if string.take 11 = "ROUTE:OPEN ".toList then
        state \ {digitsValue (string.drop 11).dropLast}
      else if string.take 12 = "ROUTE:CLOSE ".toList then
        insert (digitsValue (string.drop 12).dropLast) state
      else state
    | _ => state
  closed := id
  openAll _ := rfl
  openOne state relay valid := by
    have other : "ROUTE:OPEN ".toList ++ relay ++ ['\n'] ≠ "ROUTE:OPEN:ALL\n".toList := by
      intro same
      have letter := congrArg (fun string => string[10]?) same
      cases letter
    have front : ("ROUTE:OPEN ".toList ++ relay ++ ['\n']).take 11 = "ROUTE:OPEN ".toList := rfl
    have tail : (("ROUTE:OPEN ".toList ++ relay ++ ['\n']).drop 11).dropLast = relay :=
      List.dropLast_concat
    change id (ite _ _ _) = _
    rw [if_neg other, if_pos front, tail]
    rfl
  closeOne state relay valid := by
    have other : "ROUTE:CLOSE ".toList ++ relay ++ ['\n'] ≠ "ROUTE:OPEN:ALL\n".toList := by
      intro same
      have letter := congrArg (fun string => string[6]?) same
      cases letter
    have open' : ("ROUTE:CLOSE ".toList ++ relay ++ ['\n']).take 11 ≠ "ROUTE:OPEN ".toList := by
      intro same
      have letter := congrArg (fun string => string[6]?) same
      cases letter
    have front : ("ROUTE:CLOSE ".toList ++ relay ++ ['\n']).take 12 = "ROUTE:CLOSE ".toList := rfl
    have tail : (("ROUTE:CLOSE ".toList ++ relay ++ ['\n']).drop 12).dropLast = relay :=
      List.dropLast_concat
    change id (ite _ _ _) = _
    rw [if_neg other, if_neg open', if_pos front, tail]
    rfl

/-- Relays are split at commas. -/
def commas (targets : List Char) : List (List Char) := targets.splitOn ','

/-- Three relays are closed one after the other by an option before `--radio`, and together without
that. -/
theorem radio_closes_one_three :
    panel.OneThroughout ∅ (main commas [.closeRelays "1,3,2".toList, .radio] []).1 ∧
      panel.closed (run panel.act {7} (closeRelays 1 commas "1,3,2".toList)) = {2} ∧
      Along panel.act (fun state act => panel.closed state ⊆ panel.closed (panel.act state act)) {7}
        (closeRelays 0 commas "1,3,2".toList) := by
  have requested : Requested commas "1,3,2".toList := ⟨by decide, by decide⟩
  have mode := (radio_closes_one panel commas [.closeRelays "1,3,2".toList, .radio]).1 (by decide)
  have plain := (radio_closes_one panel commas [.closeRelays "1,3,2".toList]).2.1 (by decide)
  have requests := mode.1 [.closes "1,3,2".toList] ∅
    (fun request member => by rw [List.mem_singleton.mp member]; exact requested)
    Set.subsingleton_empty
  exact ⟨requests, mode.2.2 _ "2".toList {7} requested rfl, plain _ {7} requested⟩

end GpibUtils.Ics8064
