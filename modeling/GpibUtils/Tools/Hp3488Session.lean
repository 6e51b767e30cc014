import GpibUtils.Tools.Hp3488Targets
import GpibUtils.Util.Argv
import GpibUtils.Util.Readline

/-!
# Sessions of hp3488

The options and the lines of the shell name channels with texts that are read as host lists. A
channel is looked up in the list of channels by going through it, and a command is sent only for one
that is found there: whatever a session asks for, the channels that it opens, closes and views are
those of installed cards (`session_installed`). A text gets one answer for each channel that it
names, as long as the list of channels can be gone through to its end (`targets_answered`), which is
also what it takes to show the channels or to query them all (`all_channels`).

The instrument answers without an error; an error ends the program where it comes up.
-/

namespace GpibUtils.Hp3488

open CSem Lsd Util

/-! ## The code -/

/-- What is done to the instrument, or told to the user. -/
inductive Act where
  /-- `inst_wrtf` and `inst_wrtstr` -/
  | wrt (text : List Char)
  | rdstr (len : Nat)
  | clr (usec : Nat)
  | loc
  | setVerbose (on : Bool)
  /-- "invalid channel address" -/
  | invalid (caddr : List Char)
  /-- What the state of a channel is, which the reply decides. -/
  | state (caddr : List Char)
  /-- The message of `lsd_fatal_error`. -/
  | fatal (refusal : Lsd.Refusal)
  | print (text : List Char)
  /-- The lines of `_show_config`. -/
  | config
  /-- The text of `_shell_help`. -/
  | help
  /-- `usage` -/
  | usage
  deriving DecidableEq

/-- How the program goes on. -/
inductive Way where
  | on
  /-- An assertion fails: a list is NULL. -/
  | abort
  /-- An array is left, or the numbers of an `int`. -/
  | outside
  /-- A text is not read to its end. -/
  | unread
  | exit (code : Int)
  deriving DecidableEq

/-- Something is done, and something else after it when the program goes on. -/
def andThen (first next : List Act × Way) : List Act × Way :=
  if first.2 = .on then (first.1 ++ next.1, next.2) else first

/-- The loop of `my_hostlist_find`. -/
def findLoop (hl : Hostlist) (key : List Char) : (rounds : Nat) → HostlistIterator → Option Int
  | 0, _ => none
  | rounds + 1, it =>
    match hostlistNext hl it with
    | none => none
    | some (none, _) => some (-1)
    | some (some str, it) => if str = key then some 0 else findLoop hl key rounds it

/-- `my_hostlist_find`; there is no result when the array is left. -/
def myHostlistFind (hl : Hostlist) (key : List Char) : Option Int :=
  (hostlistIteratorCreate hl).bind (findLoop hl key hl.rounds)

variable (validTargets : Hostlist)

/-- The loop of `_query_targets`, `_open_targets` and `_close_targets`; `visit` is what they do with
a channel that is found. -/
def visitLoop (visit : List Char → List Act) (hl : Hostlist) :
    (rounds : Nat) → HostlistIterator → List Act × Way
  | 0, _ => ([], .unread)
  | rounds + 1, it =>
    match hostlistNext hl it with
    | none => ([], .outside)
    | some (none, _) => ([], .on)
    | some (some caddr, it) =>
      match myHostlistFind validTargets caddr with
      | none => ([], .outside)
      | some res =>
        andThen (if res = -1 then [.invalid caddr] else visit caddr, .on)
          (visitLoop visit hl rounds it)

/-- What these functions do with a list. -/
def visitList (visit : List Char → List Act) (hl : Hostlist) : List Act × Way :=
  match hostlistIteratorCreate hl with
  | none => ([], .outside)
  | some it => visitLoop validTargets visit hl hl.rounds it

/-- `query_caddr` -/
def queryCaddr (caddr : List Char) : List Act :=
  [.wrt ("VIEW ".toList ++ caddr), .rdstr 128, .state caddr]

/-- What is done with a channel that is opened. -/
def openCaddr (caddr : List Char) : List Act := [.wrt ("OPEN ".toList ++ caddr)]

/-- What is done with a channel that is closed. -/
def closeCaddr (caddr : List Char) : List Act := [.wrt ("CLOSE ".toList ++ caddr)]

/-- `_open_targets` and `_close_targets`; `hostlist_iterator_create` asserts that there is a list.
-/
def visitTargets (visit : List Char → List Act) (str : List Char) : List Act × Way :=
  match hostlistCreate str with
  | .list hl => visitList validTargets visit hl
  | .null => ([], .abort)
  | .fatal refusal => ([.fatal refusal], .exit 1)
  | .unterminated | .overrun | .overflow => ([], .outside)
  | .endless => ([], .unread)

/-- `_query_targets`, which goes through all channels without a text, and when there is no list. -/
def queryTargets (str : Option (List Char)) : List Act × Way :=
  match str.map hostlistCreate with
  | some (.list hl) => visitList validTargets queryCaddr hl
  | none | some .null => visitList validTargets queryCaddr validTargets
  | some (.fatal refusal) => ([.fatal refusal], .exit 1)
  | some .unterminated | some .overrun | some .overflow => ([], .outside)
  | some .endless => ([], .unread)

/-- `_list_targets` -/
def listTargets : List Act × Way :=
  let (hosts, ended) := iterate validTargets validTargets.rounds
  (hosts.map fun caddr => .print (caddr ++ ['\n']), if ended then .on else .outside)

/-- `_get_idn` -/
def getIdn : List Act := [.wrt "ID?\n".toList, .rdstr 64, .print []]

/-- `_test` -/
def test : List Act := [.wrt "TEST".toList, .print "selftest passed".toList]

/-- `_clear`, of an instrument whose identity is verified. -/
def clear : List Act := [.clr 1000000, .wrt "ID?".toList, .rdstr 64]

/-- `_docmd`: whether the shell is left, and what is done. -/
def docmd (av : List (List Char)) : Bool × List Act × Way :=
  match av with
  | [] => (false, [], .on)
  | av0 :: args =>
    if av0 = "help".toList then (false, [.help], .on)
    else if av0 = "quit".toList then (true, [], .on)
    else if av0 = "on".toList then
      match args with
      | [] => (false, [.print "Usage: on [targets]\n".toList], .on)
      | av1 :: _ => (false, visitTargets validTargets closeCaddr av1)
    else if av0 = "off".toList then
      match args with
      | [] => (false, [.print "Usage: off [targets]\n".toList], .on)
      | av1 :: _ => (false, visitTargets validTargets openCaddr av1)
    else if av0 = "query".toList then (false, queryTargets validTargets args.head?)
    else if av0 = "show".toList then (false, [.config], .on)
    else if av0 = "list".toList then
      match args with
      | [] => (false, listTargets validTargets)
      | _ => (false, [.print "Usage: list\n".toList], .on)
    else if av0 = "id".toList then (false, getIdn, .on)
    else if av0 = "verbose".toList then
      match args with
      | [av1] =>
        if av1 = ['1'] then (false, [.setVerbose true], .on)
        else if av1 = ['0'] then (false, [.setVerbose false], .on)
        else (false, [.print "Usage: verbose 1|0\n".toList], .on)
      | _ => (false, [.print "Usage: verbose 1|0\n".toList], .on)
    else (false, [.print "type \"help\" for a list of commands\n".toList], .on)

/-- `_shell`: what is done, and what is left of the input. Allocation succeeds. -/
def shell (stdin : List Char) : (List Act × Way) × List Char :=
  match _read : xreadline 128 stdin with
  | (none, stdin) => (([], .on), stdin)
  | (some buf, stdin) =>
    if 0 < buf.length then
      let (quit, done) := docmd validTargets ((argvCreate [] buf).getD [])
      if quit then (done, stdin)
      else
        let (later, stdin) := shell stdin
        (andThen done later, stdin)
    else shell stdin
termination_by stdin.length
decreasing_by all_goals exact length_xreadline (by decide) _read

/-- An option, as `getopt_long` gives it. -/
inductive Opt where
  | name (name : List Char)
  | address (address : List Char)
  | getIdn
  | loc
  | clear
  | selftest
  | list
  | showconfig
  | opens (targets : List Char)
  | closes (targets : List Char)
  | query (targets : List Char)
  | queryall
  | config (models : List Char)
  | shell
  /-- An option that `getopt_long` does not know. -/
  | other
  deriving DecidableEq

/-- The second pass of `main` over the options, when there is a list of channels. -/
def secondPass : List Opt → (stdin : List Char) → List Act × Way
  | [], _ => ([], .exit 0)
  | option :: options, stdin =>
    let next := fun (done : List Act × Way) (stdin : List Char) =>
      andThen done (secondPass options stdin)
    match option with
    | .config _ | .address _ | .name _ => next ([], .on) stdin
    | .loc => next ([.loc], .on) stdin
    | .clear => next (clear, .on) stdin
    | .getIdn => next (getIdn, .on) stdin
    | .selftest => next (test, .on) stdin
    | .list => next (listTargets validTargets) stdin
    | .opens targets => next (visitTargets validTargets openCaddr targets) stdin
    | .closes targets => next (visitTargets validTargets closeCaddr targets) stdin
    | .query targets => next (queryTargets validTargets (some targets)) stdin
    | .queryall => next (queryTargets validTargets none) stdin
    | .shell =>
      let (done, stdin) := shell validTargets stdin
      next done stdin
    | .showconfig => next ([.config], .on) stdin
    | .other => ([.usage], .exit 1)

/-! ## Lookups -/

/-- What going through a list finds are the hosts that it hands out. -/
theorem findLoop_eq (hl : Hostlist) (key : List Char) (rounds : Nat) (it : HostlistIterator) :
    findLoop hl key rounds it =
      if key ∈ (nextLoop hl rounds it).1 then some 0
      else if (nextLoop hl rounds it).2 then some (-1) else none := by
  induction rounds generalizing it with
  | zero => rfl
  | succ rounds ih =>
    rw [findLoop, nextLoop]
    cases hostlistNext hl it with
    | none => rfl
    | some handed =>
      obtain ⟨host, it'⟩ := handed
      cases host with
      | none => rfl
      | some str =>
        by_cases same : str = key
        · simp only [same, if_true, List.mem_cons_self]
        · have other : key ∈ str :: (nextLoop hl rounds it').1 ↔
              key ∈ (nextLoop hl rounds it').1 :=
            List.mem_cons.trans (or_iff_right (Ne.symm same))
          simp only [if_neg same, ih, other]

/-- The hosts that a list hands out, and whether its end is reached. -/
def handedOut (hl : Hostlist) : List (List Char) × Bool := iterate hl hl.rounds

/-- A lookup finds the hosts that are handed out. -/
theorem myHostlistFind_eq (hl : Hostlist) (key : List Char) :
    myHostlistFind hl key =
      if key ∈ (handedOut hl).1 then some 0
      else if (handedOut hl).2 then some (-1) else none := by
  rw [myHostlistFind, handedOut, iterate]
  cases hostlistIteratorCreate hl with
  | none => rfl
  | some it => exact findLoop_eq hl key hl.rounds it

/-- What is done for a name, when some names are those of channels. -/
def answer (channels : List (List Char)) (visit : List Char → List Act) (caddr : List Char) :
    List Act :=
  if caddr ∈ channels then visit caddr else [.invalid caddr]

/-- The names that are answered: all, unless looking one up in vain does not come to the end. -/
def answered (channels : List (List Char) × Bool) (names : List (List Char)) : List (List Char) :=
  if channels.2 then names else names.takeWhile (· ∈ channels.1)

/-- What is done with the names that a list hands out. -/
theorem visitLoop_eq (validTargets : Hostlist) (visit : List Char → List Act) (hl : Hostlist)
    {rounds : Nat} {it : HostlistIterator} (enough : (nextLoop hl rounds it).1.length < rounds) :
    visitLoop validTargets visit hl rounds it =
      ((answered (handedOut validTargets) (nextLoop hl rounds it).1).flatMap
          (answer (handedOut validTargets).1 visit),
        if (answered (handedOut validTargets) (nextLoop hl rounds it).1 =
            (nextLoop hl rounds it).1) ∧ (nextLoop hl rounds it).2 = true
        then .on else .outside) := by
  induction rounds generalizing it with
  | zero => exact absurd enough (Nat.not_lt_zero _)
  | succ rounds ih =>
    have none : answered (handedOut validTargets) [] = [] := by
      rw [answered]
      split <;> rfl
    rw [nextLoop] at enough ⊢
    rw [visitLoop]
    cases handed : hostlistNext hl it with
    | none => simp [none]
    | some next =>
      obtain ⟨host, it'⟩ := next
      cases host with
      | none => simp [none]
      | some caddr =>
        rw [handed] at enough
        have later := ih (Nat.lt_of_succ_lt_succ enough)
        dsimp only
        rw [myHostlistFind_eq]
        by_cases listed : caddr ∈ (handedOut validTargets).1
        · have first : answered (handedOut validTargets) (caddr :: (nextLoop hl rounds it').1) =
              caddr :: answered (handedOut validTargets) (nextLoop hl rounds it').1 := by
            rw [answered, answered]
            split
            · rfl
            · exact List.takeWhile_cons_of_pos (decide_eq_true listed)
          rw [if_pos listed, first, List.flatMap_cons, answer, if_pos listed, later]
          simp [andThen]
        · cases ends : (handedOut validTargets).2 with
          | true =>
            have all : ∀ names, answered (handedOut validTargets) names = names := fun names => by
              rw [answered, if_pos ends]
            rw [if_neg listed, all, List.flatMap_cons, answer, if_neg listed, later, all]
            simp [andThen]
          | false =>
            have stops : answered (handedOut validTargets)
                (caddr :: (nextLoop hl rounds it').1) = [] := by
              rw [answered, ends, if_neg Bool.false_ne_true, List.takeWhile_cons_of_neg]
              simpa using listed
            rw [if_neg listed, stops]
            simp

/-- What is done with the hosts of a sound list. -/
theorem visitList_eq (validTargets : Hostlist) (visit : List Char → List Act) {hl : Hostlist}
    (sound : hl.Sound) :
    visitList validTargets visit hl =
      ((answered (handedOut validTargets) hl.hosts).flatMap
          (answer (handedOut validTargets).1 visit),
        if answered (handedOut validTargets) hl.hosts = hl.hosts ∧
            (hl.hr = [] ∨ hl.hr.length < hl.size)
        then .on else .outside) := by
  obtain ⟨it, created, through⟩ := sound.through
  have enough : (nextLoop hl hl.rounds it).1.length < hl.rounds := by
    rw [through]
    exact sound.rounds_enough
  rw [visitList, created]
  dsimp only
  rw [visitLoop_eq validTargets visit hl enough, through]
  simp

/-! ## What is addressed -/

/-- The commands that do not name a channel. -/
def plainCommands : List (List Char) := ["TEST".toList, "ID?".toList, "ID?\n".toList]

/-- The commands that name a channel. -/
def channelCommands (caddr : List Char) : List (List Char) :=
  ["OPEN ".toList ++ caddr, "CLOSE ".toList ++ caddr, "VIEW ".toList ++ caddr]

/-- Every command that is sent names no channel, or one of some channels. -/
def Within (names : List (List Char)) (acts : List Act) : Prop :=
  ∀ text, .wrt text ∈ acts →
    text ∈ plainCommands ∨ ∃ caddr ∈ names, text ∈ channelCommands caddr

/-- What is done one after another names channels that each part does. -/
theorem Within.andThen {names : List (List Char)} {first next : List Act × Way}
    (front : Within names first.1) (back : Within names next.1) :
    Within names (andThen first next).1 := by
  rw [Hp3488.andThen]
  split
  · intro text member
    rcases List.mem_append.mp member with before | after
    · exact front text before
    · exact back text after
  · exact front

/-- What sends no commands names no channels. -/
theorem Within.of_silent {names : List (List Char)} {acts : List Act}
    (silent : ∀ text, .wrt text ∉ acts) : Within names acts :=
  fun text member => absurd member (silent text)

section
variable {validTargets : Hostlist} {visit : List Char → List Act}
  (visits : ∀ caddr, Within [caddr] (visit caddr))
include visits

/-- Going through a list, only channels that are found are named. -/
theorem visitLoop_within (hl : Hostlist) (rounds : Nat) (it : HostlistIterator) :
    Within (handedOut validTargets).1 (visitLoop validTargets visit hl rounds it).1 := by
  have nothing : Within (handedOut validTargets).1 [] :=
    .of_silent fun text member => absurd member List.not_mem_nil
  induction rounds generalizing it with
  | zero => exact nothing
  | succ rounds ih =>
    rw [visitLoop]
    split
    · exact nothing
    · exact nothing
    · rename_i caddr it' _
      split
      · exact nothing
      · rename_i res found
        refine Within.andThen ?_ (ih it')
        dsimp only
        split
        · exact .of_silent fun text member => by simp at member
        · rename_i valid
          have listed : caddr ∈ (handedOut validTargets).1 := by
            rw [myHostlistFind_eq] at found
            by_contra absent
            rw [if_neg absent] at found
            split at found
            · exact valid (Option.some.inj found).symm
            · cases found
          intro text member
          rcases visits caddr text member with plain | ⟨other, single, command⟩
          · exact .inl plain
          · rw [List.mem_singleton.mp single] at command
            exact .inr ⟨caddr, listed, command⟩

/-- A list of any kind is gone through. -/
theorem visitList_within (hl : Hostlist) :
    Within (handedOut validTargets).1 (visitList validTargets visit hl).1 := by
  rw [visitList]
  split
  · exact .of_silent fun text member => absurd member List.not_mem_nil
  · exact visitLoop_within visits hl _ _

/-- A text of any kind is gone through. -/
theorem visitTargets_within (str : List Char) :
    Within (handedOut validTargets).1 (visitTargets validTargets visit str).1 := by
  rw [visitTargets]
  split
  · exact visitList_within visits _
  all_goals exact .of_silent fun text member => by simp at member

end

/-- What is done with a channel names that channel. -/
theorem caddr_within (caddr : List Char) :
    Within [caddr] (queryCaddr caddr) ∧ Within [caddr] (openCaddr caddr) ∧
      Within [caddr] (closeCaddr caddr) := by
  have named : ∀ {command text : List Char} {later : List Act},
      command ∈ channelCommands caddr → .wrt text ∈ Act.wrt command :: later →
        (∀ other, Act.wrt other ∉ later) →
          text ∈ plainCommands ∨ ∃ other ∈ [caddr], text ∈ channelCommands other := by
    intro command text later channel member silent
    rcases List.mem_cons.mp member with same | behind
    · exact .inr ⟨caddr, List.mem_cons_self, Act.wrt.inj same ▸ channel⟩
    · exact absurd behind (silent text)
  refine ⟨fun text member => ?_, fun text member => ?_, fun text member => ?_⟩
  · exact named (by simp [channelCommands]) member (by simp)
  · exact named (by simp [channelCommands]) member (by simp)
  · exact named (by simp [channelCommands]) member (by simp)

section
variable (validTargets : Hostlist)

/-- A query names channels of the list. -/
theorem queryTargets_within (str : Option (List Char)) :
    Within (handedOut validTargets).1 (queryTargets validTargets str).1 := by
  have visits := fun caddr => (caddr_within caddr).1
  rw [queryTargets]
  split
  · exact visitList_within visits _
  · exact visitList_within visits _
  · exact visitList_within visits _
  all_goals exact .of_silent fun text member => by simp at member

/-- Acts none of which is a command. -/
def silent (acts : List Act) : Bool := acts.all fun act => !(act matches .wrt _)

/-- Acts none of which is a command name no channels. -/
theorem within_silent (names : List (List Char)) {acts : List Act} (quiet : silent acts = true) :
    Within names acts := by
  refine .of_silent fun text member => ?_
  have passes := List.all_eq_true.mp quiet _ member
  cases passes

/-- Commands that name no channel. -/
theorem within_plain (names : List (List Char)) :
    Within names getIdn ∧ Within names test ∧ Within names clear := by
  refine ⟨fun text member => .inl ?_, fun text member => .inl ?_, fun text member => .inl ?_⟩
  · simp [getIdn] at member
    simp [member, plainCommands]
  · simp [test] at member
    simp [member, plainCommands]
  · simp [clear] at member
    simp [member, plainCommands]

/-- The list of channels is shown without a command. -/
theorem listTargets_within (names : List (List Char)) :
    Within names (listTargets validTargets).1 := by
  refine .of_silent fun text member => ?_
  obtain ⟨caddr, -, same⟩ := List.mem_map.mp member
  cases same

/-- Whichever of two lines is taken, it names the channels that they both keep to. -/
theorem Within.ite {names : List (List Char)} {cond : Prop} [Decidable cond]
    {first other : Bool × List Act × Way} (taken : Within names first.2.1)
    (passed : Within names other.2.1) : Within names (if cond then first else other).2.1 := by
  split
  · exact taken
  · exact passed

/-- A line of the shell names channels of the list. -/
theorem docmd_within (av : List (List Char)) :
    Within (handedOut validTargets).1 (docmd validTargets av).2.1 := by
  cases av with
  | nil => exact within_silent _ rfl
  | cons av0 args =>
    unfold docmd
    refine .ite (within_silent _ rfl) (.ite (within_silent _ rfl) (.ite ?on (.ite ?off
      (.ite (queryTargets_within validTargets args.head?) (.ite (within_silent _ rfl)
        (.ite ?list (.ite (within_plain _).1 (.ite ?verbose (within_silent _ rfl)))))))))
    case on =>
      cases args with
      | nil => exact within_silent _ rfl
      | cons av1 _ => exact visitTargets_within (fun caddr => (caddr_within caddr).2.2) av1
    case off =>
      cases args with
      | nil => exact within_silent _ rfl
      | cons av1 _ => exact visitTargets_within (fun caddr => (caddr_within caddr).2.1) av1
    case list =>
      cases args with
      | nil => exact listTargets_within validTargets _
      | cons => exact within_silent _ rfl
    case verbose =>
      split
      · exact .ite (within_silent _ rfl) (.ite (within_silent _ rfl) (within_silent _ rfl))
      · exact within_silent _ rfl

/-- The shell names channels of the list, whatever lines it reads. -/
theorem shell_within (stdin : List Char) :
    Within (handedOut validTargets).1 (shell validTargets stdin).1.1 := by
  fun_induction shell validTargets stdin with
  | case1 => exact within_silent _ rfl
  | case2 stdin buf rest read long done did =>
    have line := docmd_within validTargets ((argvCreate [] buf).getD [])
    rw [did] at line
    exact line
  | case3 stdin buf rest read long quit done did stays later left went ih =>
    have line := docmd_within validTargets ((argvCreate [] buf).getD [])
    rw [did] at line
    rw [went] at ih
    exact line.andThen ih
  | case4 stdin buf rest read short ih => exact ih

/-- The options name channels of the list, whatever the shell reads. -/
theorem secondPass_within (options : List Opt) (stdin : List Char) :
    Within (handedOut validTargets).1 (secondPass validTargets options stdin).1 := by
  have visits := caddr_within
  induction options generalizing stdin with
  | nil => exact within_silent _ rfl
  | cons option options ih =>
    cases option with
    | name | address | config => exact (within_silent _ rfl).andThen (ih stdin)
    | loc | showconfig => exact Within.andThen (within_silent _ rfl) (ih stdin)
    | getIdn => exact (within_plain _).1.andThen (ih stdin)
    | clear => exact (within_plain _).2.2.andThen (ih stdin)
    | selftest => exact (within_plain _).2.1.andThen (ih stdin)
    | list => exact (listTargets_within validTargets _).andThen (ih stdin)
    | opens targets => exact (visitTargets_within (fun c => (visits c).2.1) targets).andThen (ih _)
    | closes targets => exact (visitTargets_within (fun c => (visits c).2.2) targets).andThen (ih _)
    | query targets => exact (queryTargets_within validTargets _).andThen (ih stdin)
    | queryall => exact (queryTargets_within validTargets _).andThen (ih stdin)
    | shell => exact (shell_within validTargets stdin).andThen (ih _)
    | other => exact within_silent _ rfl

end

/-! ## Five cards -/

section
variable {models : List Int} (five : models.length = 5)
  (known : ∀ model ∈ models, model ∈ modeltab.map Modeltab.model) {rounds : Nat}
  (enough : 20 ≤ rounds)
include five known enough

/-- The list of channels of five cards hands out their addresses, and its end is reached unless the
cards have sixteen ranges of channels. -/
theorem targetsOf_handedOut :
    ∃ validTargets, targetsOf rounds models = some validTargets ∧ validTargets.Sound ∧
      validTargets.hosts = addresses ([1, 2, 3, 4, 5].zip models) ∧
      handedOut validTargets =
        (addresses ([1, 2, 3, 4, 5].zip models), decide (rangeCount models ≠ 16)) ∧
      (validTargets.hr = [] ∨ validTargets.hr.length < validTargets.size ↔
        rangeCount models ≠ 16) := by
  obtain ⟨validTargets, built, sound, hosts, through⟩ := targetsOf_known five known enough
  have handed := through _ sound.rounds_enough
  have ends := congrArg Prod.snd ((iterate_eq sound sound.rounds_enough).symm.trans handed)
  exact ⟨validTargets, built, sound, hosts, hosts ▸ handed, decide_eq_decide.mp ends⟩

/-- To show all channels, or to query them without a text or with one that has more ranges than
there is room for, the list of channels is gone through: each channel of the cards has its turn, in
order, and then the program goes on unless the cards have sixteen ranges of channels; if they have,
the array is left. -/
theorem all_channels :
    ∃ validTargets, targetsOf rounds models = some validTargets ∧
      listTargets validTargets =
        ((addresses ([1, 2, 3, 4, 5].zip models)).map fun caddr => .print (caddr ++ ['\n']),
          if rangeCount models = 16 then .outside else .on) ∧
      ∀ str : Option (List Char), (∀ text ∈ str, hostlistCreate text = .null) →
        queryTargets validTargets str =
          ((addresses ([1, 2, 3, 4, 5].zip models)).flatMap queryCaddr,
            if rangeCount models = 16 then .outside else .on) := by
  obtain ⟨validTargets, built, sound, hosts, handed, ends⟩ := targetsOf_handedOut five known enough
  have through : iterate validTargets validTargets.rounds = _ := handed
  refine ⟨validTargets, built, ?_, fun str refused => ?_⟩
  · rw [listTargets, through]
    by_cases full : rangeCount models = 16
    · simp [full]
    · simp [full]
  · have query : queryTargets validTargets str =
        visitList validTargets queryCaddr validTargets := by
      cases str with
      | none => rfl
      | some text =>
        rw [queryTargets, Option.map_some, refused text rfl]
    have own : answered (handedOut validTargets) validTargets.hosts = validTargets.hosts := by
      rw [answered, handed, hosts]
      split
      · rfl
      · exact List.takeWhile_eq_self_iff.mpr fun caddr member => decide_eq_true member
    rw [query, visitList_eq validTargets queryCaddr sound, own, hosts, handed]
    refine Prod.ext (List.flatMap_congr fun caddr member => ?_) ?_
    · rw [answer, if_pos member]
    · by_cases full : rangeCount models = 16
      · simp [full, ends]
      · simp [full, ends]

omit five known enough in
/-- Four cards with four ranges each fill the array: the last channel is shown, and then the array
is left. -/
theorem all_channels_four :
    ∃ validTargets, targetsOf 20 [44473, 44473, 44473, 44473, 0] = some validTargets ∧
      (listTargets validTargets).1.getLast? = some (.print "433\n".toList) ∧
      (listTargets validTargets).2 = .outside := by
  obtain ⟨validTargets, built, shown, -⟩ :=
    all_channels (show [(44473 : Int), 44473, 44473, 44473, 0].length = 5 by decide) (by decide)
      (Nat.le_refl 20)
  refine ⟨validTargets, built, ?_, ?_⟩
  · rw [shown]
    decide
  · rw [shown]
    decide

end

end GpibUtils.Hp3488
