import GpibUtils.CSem.Text
import GpibUtils.Interaction

/-!
# The commands of ibquery

`command` in `ibquery.c` looks at the first of its words, calls the operations of the instrument
and of the process that go with it, and tells how many words it took; `main` goes through the
command line with it. The manual says what every command line does: it is a list of commands,
and each is a few operations. The code does what the manual says but for `status`, `help` and the
empty word (`commandLoop_manual`).
-/

namespace GpibUtils.Ibquery

open CSem Interaction

/-! ## The code -/

/-- A word of a command line. -/
abbrev Token := List Char

/-- `MAX_RESPONSE_LEN` -/
def maxResponseLen : Nat := 4096

/-- An operation of the instrument or of the process. -/
inductive IbOp where
  | loc
  | clr (usec : Nat)
  | wrtstr (str : Token)
  | rdstr (len : Nat)
  | qrystr (str : Token) (len : Nat)
  | rsp
  | fini
  /-- `usleep` for the seconds that a number says. -/
  | delay (seconds : Token)
  | printf (text : List Char)
  /-- Look at the string that `getopt` has left in `optarg`. -/
  | optarg
  /-- Look at the character before a word in memory. -/
  | before (word : Token)
  deriving DecidableEq

/-- What an operation gives: the buffer, the status byte, the string, or the character. -/
abbrev IbOp.Answer : IbOp → Type
  | .rdstr _ | .qrystr _ _ | .optarg => List Char
  | .rsp => UInt8
  | .before _ => Char
  | _ => Unit

/-- A program with these operations. -/
abbrev Calls (ρ : Type) := Program IbOp IbOp.Answer ρ

/-- `printf`, and what comes after it. -/
def say {ρ : Type} (text : List Char) (next : Calls ρ) : Calls ρ :=
  .call (.printf text) fun _ => next

/-- The last character of a word; before the first one when there is none. -/
def lastChar {ρ : Type} (word : Token) (next : Char → Calls ρ) : Calls ρ :=
  match word.getLast? with
  | some c => next c
  | none => .call (.before word) next

/-- The text of `help`. -/
def helpText : String :=
  "Command help:\n" ++
  "    <command>     write gpib message <command>\n" ++
  "    <query?>      write <command>, read response\n" ++
  "    quit/exit     exit shell\n" ++
  "    clear         send gpib clear command\n" ++
  "    local         send gpib local command\n" ++
  "    status MASK   read gpib status, exit if MASK matches\n" ++
  "    read/?        read gpib message\n" ++
  "    write MESSAGE write gpib message\n" ++
  "    query MESSAGE write gpib message, then read\n" ++
  "    delay SEC     delay SEC seconds\n" ++
  "    help          dispaly this help\n"

/-- `command`: the number of words taken, or an error with the exit code when it ends the program.
The first word is `av[0]`, and the others follow it. -/
def command (av0 : Token) (args : List Token) : Calls (Except Int Nat) :=
  if av0 = "local".toList then .call .loc fun _ => .result (.ok 1)
  else if av0 = "clear".toList then .call (.clr 100000) fun _ => .result (.ok 1)
  else if av0 = "query".toList then
    match args with
    | [] => say "query requires an argument\n".toList (.result (.ok 2))
    | av1 :: _ => .call (.qrystr av1 maxResponseLen) fun rsp =>
        say (rsp ++ ['\n']) (.result (.ok 2))
  else if av0 = "write".toList then
    match args with
    | [] => say "write requires an argument\n".toList (.result (.ok 2))
    | av1 :: _ => .call (.wrtstr av1) fun _ => .result (.ok 2)
  else if av0 = "read".toList ∨ av0 = "?".toList then
    .call (.rdstr maxResponseLen) fun rsp => say (rsp ++ ['\n']) (.result (.ok 1))
  else if av0 = "delay".toList then
    match args with
    | [] => say "delay requires a seconds argument\n".toList (.result (.ok 2))
    | av1 :: _ => .call (.delay av1) fun _ => .result (.ok 2)
  else if av0 = "status".toList then
    match args with
    | [] => say "status requires a mask argument\n".toList (.result (.ok 2))
    | _ :: _ => .call .optarg fun optarg =>
        let mask := (strtoul0 optarg).1.toUInt8
        .call .rsp fun status =>
          say (Nat.toDigits 10 status.toNat ++ ['\n'])
            (if status &&& mask ≠ 0 then .result (.error 1) else .result (.ok 2))
  else if av0 = "help".toList then say helpText.toList (.result (.ok 1))
  else lastChar av0 fun last =>
    if last = '?' then .call (.qrystr av0 maxResponseLen) fun rsp =>
      say (rsp ++ ['\n']) (.result (.ok 1))
    else .call (.wrtstr av0) fun _ => .result (.ok 1)

/-- The loop over the command line in `main`, in at most so many passes, and the end of `main`: the
exit code, or `none` when the passes are used up. -/
def commandLoop : Nat → List Token → Calls (Option Int)
  | 0, _ => .result none
  | _ + 1, [] => .call .fini fun _ => .result (some 0)
  | passes + 1, av0 :: args =>
    (command av0 args).bind fun
      | .ok count => commandLoop passes ((av0 :: args).drop count)
      | .error code => .result (some code)

/-! ## The manual -/

/-- A command of the manual. -/
inductive Command where
  | loc
  | clear
  | write (string : Token)
  | read
  | query (string : Token)
  | status (mask : Token)
  | delay (seconds : Token)
  /-- A word that needs another one after it and is the last. -/
  | lacking (word : Token)
  /-- Any other word. -/
  | other (word : Token)
  deriving DecidableEq

/-- The number of words of a command. -/
def Command.words : Command → Nat
  | .loc | .clear | .read | .other _ => 1
  | .write _ | .query _ | .status _ | .delay _ | .lacking _ => 2

/-- The command that begins with a word, given the word after it. -/
def Command.of (word : Token) (next : Option Token) : Command :=
  if word = "local".toList then .loc
  else if word = "clear".toList then .clear
  else if word = "read".toList ∨ word = "?".toList then .read
  else if word = "write".toList then (next.map Command.write).getD (.lacking word)
  else if word = "query".toList then (next.map Command.query).getD (.lacking word)
  else if word = "status".toList then (next.map Command.status).getD (.lacking word)
  else if word = "delay".toList then (next.map Command.delay).getD (.lacking word)
  else .other word

/-- The commands of a command line, from left to right. -/
def commands : List Token → List Command
  | [] => []
  | [word] => [.of word none]
  | word :: next :: rest =>
    let first := Command.of word (some next)
    first :: if first.words = 2 then commands rest else commands (next :: rest)

/-- Send a string to the instrument. -/
def sends {ρ : Type} (string : Token) (rest : Calls ρ) : Calls ρ :=
  .call (.wrtstr string) fun _ => rest

/-- Read an answer after sending a string, and display it. -/
def queries {ρ : Type} (string : Token) (rest : Calls ρ) : Calls ρ :=
  .call (.qrystr string maxResponseLen) fun rsp => say (rsp ++ ['\n']) rest

/-- What a word that lacks its argument is told. -/
def complaint (word : Token) : List Char :=
  if word = "delay".toList then "delay requires a seconds argument\n".toList
  else if word = "status".toList then "status requires a mask argument\n".toList
  else word ++ " requires an argument\n".toList

/-- What the manual says a command does, before the rest of the command line. -/
def Command.before (rest : Calls (Option Int)) : Command → Calls (Option Int)
  | .loc => .call .loc fun _ => rest
  | .clear => .call (.clr 100000) fun _ => rest
  | .write string => sends string rest
  | .read => .call (.rdstr maxResponseLen) fun rsp => say (rsp ++ ['\n']) rest
  | .query string => queries string rest
  | .status mask => .call .rsp fun status =>
      say (Nat.toDigits 10 status.toNat ++ ['\n'])
        (if status &&& (strtoul0 mask).1.toUInt8 ≠ 0 then .result (some 1) else rest)
  | .delay seconds => .call (.delay seconds) fun _ => rest
  | .lacking word => say (complaint word) rest
  | .other word => if word.getLast? = some '?' then queries word rest else sends word rest

/-- What the manual says a command line does: its commands in order, and then the program ends
with exit code zero. -/
def manual (tokens : List Token) : Calls (Option Int) :=
  (commands tokens).foldr (fun command rest => command.before rest)
    (.call .fini fun _ => .result (some 0))

/-- A command of which the code does what the manual says. -/
def Command.AsDocumented : Command → Prop
  | .status _ => False
  | .other word => word ≠ [] ∧ word ≠ "help".toList
  | _ => True

/-! ## The code and the manual -/

/-- The words that `command` looks for. -/
def keywords : List Token :=
  ["local".toList, "clear".toList, "query".toList, "write".toList, "read".toList, "?".toList,
    "delay".toList, "status".toList, "help".toList]

/-- A word that is none of these is looked at for its last character. -/
theorem command_other {av0 : Token} (args : List Token) (other : av0 ∉ keywords) :
    command av0 args = lastChar av0 fun last =>
      if last = '?' then .call (.qrystr av0 maxResponseLen) fun rsp =>
        say (rsp ++ ['\n']) (.result (.ok 1))
      else .call (.wrtstr av0) fun _ => .result (.ok 1) := by
  simp only [keywords, List.mem_cons, List.not_mem_nil, or_false, not_or] at other
  obtain ⟨loc, clear, query, write, read, ask, delay, status, help⟩ := other
  unfold command
  rw [if_neg loc, if_neg clear, if_neg query, if_neg write, if_neg (not_or.mpr ⟨read, ask⟩),
    if_neg delay, if_neg status, if_neg help]

/-- Such a word is a command by itself. -/
theorem of_other {word : Token} (next : Option Token) (other : word ∉ keywords) :
    Command.of word next = .other word := by
  simp only [keywords, List.mem_cons, List.not_mem_nil, or_false, not_or] at other
  obtain ⟨loc, clear, query, write, read, ask, delay, status, -⟩ := other
  unfold Command.of
  rw [if_neg loc, if_neg clear, if_neg (not_or.mpr ⟨read, ask⟩), if_neg write, if_neg query,
    if_neg status, if_neg delay]

/-- A word that `command` looks for begins a command of which the code does what the manual says, or
one that begins with another operation. -/
theorem command_keyword {av0 : Token} (args : List Token) (keyword : av0 ∈ keywords) :
    (Command.of av0 args.head?).AsDocumented ∧
        (∀ next, (command av0 args).bind next = (Command.of av0 args.head?).before
          (next (.ok (Command.of av0 args.head?).words))) ∨
      ¬ (Command.of av0 args.head?).AsDocumented ∧
        ∀ next rest, (command av0 args).bind next ≠ (Command.of av0 args.head?).before rest := by
  simp only [keywords, List.mem_cons, List.not_mem_nil, or_false] at keyword
  rcases keyword with rfl | rfl | rfl | rfl | rfl | rfl | rfl | rfl | rfl
  · exact .inl ⟨trivial, fun _ => rfl⟩
  · exact .inl ⟨trivial, fun _ => rfl⟩
  · cases args <;> exact .inl ⟨trivial, fun _ => rfl⟩
  · cases args <;> exact .inl ⟨trivial, fun _ => rfl⟩
  · exact .inl ⟨trivial, fun _ => rfl⟩
  · exact .inl ⟨trivial, fun _ => rfl⟩
  · cases args <;> exact .inl ⟨trivial, fun _ => rfl⟩
  · cases args with
    | nil => exact .inl ⟨trivial, fun _ => rfl⟩
    | cons mask later => exact .inr ⟨id, fun _ _ same => by cases same⟩
  · exact .inr ⟨fun documented => documented.2 rfl, fun _ _ same => by cases same⟩

/-- A documented command does what the manual says, and takes its words. -/
theorem command_documented {av0 : Token} {args : List Token}
    (documented : (Command.of av0 args.head?).AsDocumented)
    (next : Except Int Nat → Calls (Option Int)) :
    (command av0 args).bind next =
      (Command.of av0 args.head?).before (next (.ok (Command.of av0 args.head?).words)) := by
  by_cases keyword : av0 ∈ keywords
  · cases command_keyword args keyword with
    | inl same => exact same.2 next
    | inr differs => exact absurd documented differs.1
  · rw [of_other _ keyword] at documented ⊢
    have nonempty := List.getLast?_eq_some_getLast documented.1
    rw [command_other args keyword, lastChar, nonempty]
    by_cases question : av0.getLast documented.1 = '?'
    · simp only [Command.before, nonempty, question, if_true]
      rfl
    · simp only [Command.before, nonempty, Option.some.injEq, question, if_false]
      rfl

/-- Any other command begins with another operation than the manual says. -/
theorem command_undocumented {av0 : Token} {args : List Token}
    (undocumented : ¬ (Command.of av0 args.head?).AsDocumented)
    (next : Except Int Nat → Calls (Option Int)) (rest : Calls (Option Int)) :
    (command av0 args).bind next ≠ (Command.of av0 args.head?).before rest := by
  by_cases keyword : av0 ∈ keywords
  · cases command_keyword args keyword with
    | inl same => exact absurd same.1 undocumented
    | inr differs => exact differs.2 next rest
  · rw [of_other _ keyword] at undocumented ⊢
    have empty : av0 = [] := by
      by_contra nonempty
      refine undocumented ⟨nonempty, fun help => keyword ?_⟩
      rw [help]
      exact List.mem_of_getLast? rfl
    rw [command_other args keyword, empty]
    exact fun same => by cases same

/-- What comes after a documented command can be told from what it does. -/
theorem before_injective {command : Command} (documented : command.AsDocumented)
    {rest rest' : Calls (Option Int)} (same : command.before rest = command.before rest') :
    rest = rest' := by
  cases command with
  | loc => exact Program.next_eq same ()
  | clear => exact Program.next_eq same ()
  | write string => exact Program.next_eq same ()
  | read => exact Program.next_eq (Program.next_eq same []) ()
  | query string => exact Program.next_eq (Program.next_eq same []) ()
  | status mask => exact documented.elim
  | delay seconds => exact Program.next_eq same ()
  | lacking word => exact Program.next_eq same ()
  | other word =>
    simp only [Command.before] at same
    split at same
    · exact Program.next_eq (Program.next_eq same []) ()
    · exact Program.next_eq same ()

/-- The manual does nothing that is nothing: it begins with an operation. -/
theorem before_ne_result (command : Command) (rest : Calls (Option Int)) (value : Option Int) :
    Program.result value ≠ command.before rest := by
  cases command with
  | other word =>
    simp only [Command.before]
    split <;> exact fun same => by cases same
  | _ => exact fun same => by cases same

/-- A command is one word or two. -/
theorem words_one_or_two (command : Command) : command.words = 1 ∨ command.words = 2 := by
  cases command with
  | loc | clear | read | other => exact .inl rfl
  | write | query | status | delay | lacking => exact .inr rfl

/-- A command line begins with the command of its first word, and goes on after its words. -/
theorem commands_cons (word : Token) (args : List Token) :
    commands (word :: args) = Command.of word args.head? ::
      commands ((word :: args).drop (Command.of word args.head?).words) := by
  cases args with
  | nil =>
    rcases words_one_or_two (Command.of word none) with one | two
    · simp [commands, one]
    · simp [commands, two]
  | cons next rest =>
    rcases words_one_or_two (Command.of word (some next)) with one | two
    · simp [commands, one]
    · simp [commands, two]

/-- The manual says what the first command does, and then what the others do. -/
theorem manual_cons (word : Token) (args : List Token) :
    manual (word :: args) = (Command.of word args.head?).before
      (manual ((word :: args).drop (Command.of word args.head?).words)) := by
  rw [manual, commands_cons, List.foldr_cons]
  rfl

/-- Where every command is documented, the code does what the manual says. -/
theorem commandLoop_documented {passes : Nat} {tokens : List Token}
    (enough : tokens.length < passes)
    (documented : ∀ command ∈ commands tokens, command.AsDocumented) :
    commandLoop passes tokens = manual tokens := by
  induction passes generalizing tokens with
  | zero => omega
  | succ passes ih =>
    cases tokens with
    | nil => rfl
    | cons word args =>
      rw [commands_cons, List.forall_mem_cons] at documented
      have shorter : ((word :: args).drop (Command.of word args.head?).words).length < passes := by
        have positive := words_one_or_two (Command.of word args.head?)
        rw [List.length_drop]
        rw [List.length_cons] at enough ⊢
        omega
      rw [commandLoop, command_documented documented.1, manual_cons, ← ih shorter documented.2]

/-- Where the code does what the manual says, every command is documented. -/
theorem documented_of_commandLoop {passes : Nat} {tokens : List Token}
    (same : commandLoop passes tokens = manual tokens) :
    ∀ command ∈ commands tokens, command.AsDocumented := by
  induction passes generalizing tokens with
  | zero =>
    cases tokens with
    | nil => exact fun command member => by cases member
    | cons word args =>
      rw [manual_cons] at same
      exact absurd same (before_ne_result _ _ _)
  | succ passes ih =>
    cases tokens with
    | nil => exact fun command member => by cases member
    | cons word args =>
      rw [commandLoop, manual_cons] at same
      by_cases documented : (Command.of word args.head?).AsDocumented
      · rw [command_documented documented] at same
        rw [commands_cons, List.forall_mem_cons]
        exact ⟨documented, ih (before_injective documented same)⟩
      · exact absurd same (command_undocumented documented _ _)

end GpibUtils.Ibquery
