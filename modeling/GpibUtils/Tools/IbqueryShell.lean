import GpibUtils.Tools.Ibquery
import GpibUtils.Util.Argv
import GpibUtils.Util.Readline

/-!
# Interactive mode of ibquery

Without a command line `ibquery` reads its commands from its input, a line at a time. It does not
look at what `xreadline` returns: at the end of the input the buffer still holds the line before,
which is executed again, or is blank for ever. The loop executes every line once and comes to its
end exactly when it is left before the end of the input (`interactive_lines`).
-/

namespace GpibUtils.Ibquery

open Interaction Util Words

/-! ## The code -/

/-- The instrument and the process, with the calls of `command` made so far. -/
structure Session (μ : Type) where
  calls : List (List Token)
  machine : μ

variable {μ : Type} (perform : (operation : IbOp) → μ → Outcome μ operation.Answer)

/-- A call of `command` in the loop, which does not look at the number of words taken. -/
def Session.command (session : Session μ) (av0 : Token) (args : List Token) :
    Outcome (Session μ) Unit :=
  let calls := session.calls ++ [av0 :: args]
  match (Ibquery.command av0 args).run perform session.machine with
  | .done (.ok _) machine => .done () ⟨calls, machine⟩
  | .done (.error code) machine => .exited code ⟨calls, machine⟩
  | .exited code machine => .exited code ⟨calls, machine⟩
  | .unfinished machine => .unfinished ⟨calls, machine⟩

/-- Whether the loop is left at a word. -/
def Quits (av0 : Token) : Prop := av0 = "quit".toList ∨ av0 = "exit".toList

instance : DecidablePred Quits := fun av0 =>
  inferInstanceAs (Decidable (av0 = "quit".toList ∨ av0 = "exit".toList))

/-- The loop of interactive mode, in at most so many passes: what it comes to, or `none` when the
passes are used up. The buffer is static; allocation succeeds. -/
def interactive : Nat → List Char → List Char → Session μ → Option (Outcome (Session μ) Unit)
  | 0, _, _, _ => none
  | passes + 1, buf, stdin, session =>
    let (line, stdin) := xreadline 128 stdin
    let buf := line.getD buf
    match argvCreate [] buf with
    | none => none
    | some [] => interactive passes buf stdin session
    | some (av0 :: args) =>
      if Quits av0 then some (.done () session)
      else
        match session.command perform av0 args with
        | .done () session => interactive passes buf stdin session
        | .exited code session => some (.exited code session)
        | .unfinished session => some (.unfinished session)

/-! ## What it is for -/

/-- Lines are executed once each, in order, unless a command ends the program. -/
def executes : List (List Token) → Session μ → Outcome (Session μ) Unit
  | [], session => .done () session
  | [] :: later, session => executes later session
  | (av0 :: args) :: later, session =>
    (session.command perform av0 args).bind fun _ session => executes later session

/-- A line at which the loop is left. -/
def quitLine (line : List Token) : Bool := line.head?.any fun av0 => decide (Quits av0)

/-- The lines of an input that are commands: those before the first one at which the loop is
left. -/
def commandLines (input : List Char) : List (List Token) :=
  (inputWords input).takeWhile fun line => !quitLine line

/-! ## The loop -/

variable {perform}

/-- The words of the buffer are those of its string. -/
theorem argvCreate_space (buf : List Char) : argvCreate [] buf = some (words CSem.isSpace buf) := by
  have space : isSeparator [] = CSem.isSpace := by
    funext c
    simp [isSeparator]
  rw [argvCreate_words, space]

/-- A pass over a blank line. -/
theorem interactive_blank {passes : Nat} {buf stdin : List Char} (session : Session μ)
    (blank : words CSem.isSpace ((xreadline 128 stdin).1.getD buf) = []) :
    interactive perform (passes + 1) buf stdin session =
      interactive perform passes ((xreadline 128 stdin).1.getD buf) (xreadline 128 stdin).2
        session := by
  simp only [interactive, argvCreate_space, blank]

/-- A pass over a line at which the loop is left. -/
theorem interactive_quit {passes : Nat} {buf stdin : List Char} (session : Session μ)
    {line : List Token} (words : words CSem.isSpace ((xreadline 128 stdin).1.getD buf) = line)
    (quits : quitLine line = true) :
    interactive perform (passes + 1) buf stdin session = some (.done () session) := by
  cases line with
  | nil => cases quits
  | cons av0 args =>
    have leave : Quits av0 := of_decide_eq_true quits
    simp only [interactive, argvCreate_space, words, if_pos leave]

/-- A pass over a line that is a command. -/
theorem interactive_command {passes : Nat} {buf stdin : List Char} (session : Session μ)
    {av0 : Token} {args : List Token}
    (words : words CSem.isSpace ((xreadline 128 stdin).1.getD buf) = av0 :: args)
    (stays : quitLine (av0 :: args) = false) :
    interactive perform (passes + 1) buf stdin session =
      match session.command perform av0 args with
      | .done () session => interactive perform passes ((xreadline 128 stdin).1.getD buf)
          (xreadline 128 stdin).2 session
      | .exited code session => some (.exited code session)
      | .unfinished session => some (.unfinished session) := by
  have stay : ¬ Quits av0 := of_decide_eq_false stays
  simp only [interactive, argvCreate_space, words, if_neg stay]

/-- More passes come to the same. -/
theorem interactive_mono {passes : Nat} {buf stdin : List Char} {session : Session μ}
    {outcome : Outcome (Session μ) Unit}
    (ended : interactive perform passes buf stdin session = some outcome) (more : Nat) :
    interactive perform (passes + more) buf stdin session = some outcome := by
  induction passes generalizing buf stdin session with
  | zero => cases ended
  | succ passes ih =>
    rw [Nat.succ_add]
    cases line : words CSem.isSpace ((xreadline 128 stdin).1.getD buf) with
    | nil =>
      rw [interactive_blank session line] at ended ⊢
      exact ih ended
    | cons av0 args =>
      cases quits : quitLine (av0 :: args) with
      | true =>
        rw [interactive_quit session line quits] at ended ⊢
        exact ended
      | false =>
        rw [interactive_command session line quits] at ended ⊢
        cases called : session.command perform av0 args with
        | done value later =>
          rw [called] at ended
          exact ih ended
        | exited code later =>
          rw [called] at ended
          exact ended
        | unfinished later =>
          rw [called] at ended
          exact ended

/-- At the end of the input the loop is not left any more, when the buffer does not tell it to. -/
theorem interactive_nil {buf : List Char} (stays : quitLine (words CSem.isSpace buf) = false)
    (passes : Nat) (session last : Session μ) :
    interactive perform passes buf [] session ≠ some (.done () last) := by
  induction passes generalizing session with
  | zero => exact fun same => by cases same
  | succ passes ih =>
    have kept : quitLine (words CSem.isSpace ((xreadline 128 []).1.getD buf)) = false := stays
    cases line : words CSem.isSpace ((xreadline 128 []).1.getD buf) with
    | nil =>
      rw [interactive_blank session line]
      exact ih session
    | cons av0 args =>
      rw [line] at kept
      rw [interactive_command session line kept]
      cases session.command perform av0 args with
      | done value later => exact ih later
      | exited code later => exact fun same => by cases same
      | unfinished later => exact fun same => by cases same

section
variable {input rest : List Char} {line : List Token}

/-- A line at which the loop is left is the end of the commands. -/
theorem commandLines_quit (quits : quitLine line = true)
    (split : inputWords input =
      [line].filter (fun words => !words.isEmpty) ++ inputWords rest) :
    (inputWords input).any quitLine = true ∧ commandLines input = [] := by
  cases line with
  | nil => cases quits
  | cons av0 args =>
    rw [commandLines, split]
    simp [quits]

/-- A line that is a command comes before the others. -/
theorem commandLines_command {av0 : Token} {args : List Token}
    (stays : quitLine (av0 :: args) = false)
    (split : inputWords input =
      [av0 :: args].filter (fun words => !words.isEmpty) ++ inputWords rest) :
    (inputWords input).any quitLine = (inputWords rest).any quitLine ∧
      commandLines input = (av0 :: args) :: commandLines rest := by
  rw [commandLines, split]
  simp [stays, commandLines]

end

/-- The loop executes the lines of its input, and then goes on at its end. -/
theorem interactive_input {buf input : List Char} (short : ShortLines 127 input)
    (stays : quitLine (words CSem.isSpace buf) = false) (session : Session μ) :
    ∃ used buf', quitLine (words CSem.isSpace buf') = false ∧
      ∀ passes, interactive perform (passes + used) buf input session =
        if (inputWords input).any quitLine then
          some (executes perform (commandLines input) session)
        else
          match executes perform (commandLines input) session with
          | .done () session => interactive perform passes buf' [] session
          | .exited code session => some (.exited code session)
          | .unfinished session => some (.unfinished session) := by
  induction size : input.length using Nat.strong_induction_on generalizing input buf session with
  | _ size ih =>
    by_cases more : input = []
    · rw [more]
      exact ⟨0, buf, stays, fun passes => rfl⟩
    · obtain ⟨next, rest, read, split, later, shorter⟩ :=
        @xreadline_words 128 input (by decide) short more
      have again := fun (stays : quitLine (words CSem.isSpace next) = false) session =>
        ih rest.length (by omega) later stays session rfl
      have front : (xreadline 128 input).1.getD buf = next := by rw [read]; rfl
      have behind : (xreadline 128 input).2 = rest := by rw [read]
      cases line : words CSem.isSpace next with
      | nil =>
        have same : inputWords input = inputWords rest := by rw [split, line]; rfl
        obtain ⟨used, buf', stay, all⟩ := again (line ▸ rfl) session
        refine ⟨used + 1, buf', stay, fun passes => ?_⟩
        rw [← Nat.add_assoc, interactive_blank session (front ▸ line), front, behind, all,
          commandLines, commandLines, same]
      | cons av0 args =>
        rw [line] at split
        cases quits : quitLine (av0 :: args) with
        | true =>
          obtain ⟨quitting, none⟩ := commandLines_quit quits split
          refine ⟨1, buf, stays, fun passes => ?_⟩
          rw [interactive_quit session (front ▸ line) quits, quitting, none]
          rfl
        | false =>
          obtain ⟨quitting, taken⟩ := commandLines_command quits split
          rw [taken, quitting, executes]
          cases called : session.command perform av0 args with
          | done value next' =>
            obtain ⟨used, buf', stay, all⟩ := again (line ▸ quits) next'
            refine ⟨used + 1, buf', stay, fun passes => ?_⟩
            rw [← Nat.add_assoc, interactive_command session (front ▸ line) quits, front, behind,
              called]
            exact all passes
          | exited code ended =>
            refine ⟨1, buf, stays, fun passes => ?_⟩
            rw [interactive_command session (front ▸ line) quits, called]
            simp
          | unfinished ended =>
            refine ⟨1, buf, stays, fun passes => ?_⟩
            rw [interactive_command session (front ▸ line) quits, called]
            simp

/-- When no line tells the loop to end and every command returns, the loop is not left. -/
theorem interactive_stays {input : List Char} (short : ShortLines 127 input)
    (stays : (inputWords input).any quitLine = false) {machine : μ} {last : Session μ}
    (executed : executes perform (commandLines input) ⟨[], machine⟩ = .done () last)
    (passes : Nat) :
    interactive perform passes [] input ⟨[], machine⟩ ≠ some (.done () last) := by
  intro ended
  obtain ⟨used, buf, stay, all⟩ :=
    @interactive_input μ perform [] input short rfl ⟨[], machine⟩
  have goes := (all passes).symm.trans (interactive_mono ended used)
  rw [stays, executed] at goes
  exact interactive_nil stay passes last last goes

/-- On an input of short lines the loop comes to its end, with one call of `command` for each line
with words before the first line that begins with `quit` or `exit`, in order, and no others, exactly
when there is such a line or one of those commands does not return. -/
theorem interactive_lines {input : List Char} (short : ShortLines 127 input) (machine : μ) :
    (∃ passes, interactive perform passes [] input ⟨[], machine⟩ =
        some (executes perform (commandLines input) ⟨[], machine⟩)) ↔
      (∃ line ∈ inputWords input, quitLine line = true) ∨
        ∀ session, executes perform (commandLines input) ⟨[], machine⟩ ≠ .done () session := by
  constructor
  · intro ⟨passes, ended⟩
    by_contra neither
    rw [not_or, not_forall] at neither
    have stays : (inputWords input).any quitLine = false := by simpa using neither.1
    cases neither.2 with
    | intro last finished =>
      have executed := not_not.mp finished
      exact interactive_stays short stays executed passes (ended.trans (congrArg some executed))
  · intro leaves
    obtain ⟨used, buf, stays, all⟩ :=
      @interactive_input μ perform [] input short rfl ⟨[], machine⟩
    refine ⟨0 + used, ?_⟩
    rw [all 0]
    cases quits : (inputWords input).any quitLine with
    | true => rfl
    | false =>
      cases leaves with
      | inl leaves =>
        have found := List.any_eq_true.mpr leaves
        rw [quits] at found
        cases found
      | inr stops =>
        cases ended : executes perform (commandLines input) ⟨[], machine⟩ with
        | done value last => exact absurd ended (stops last)
        | exited code last => rfl
        | unfinished last => rfl

/-- A machine that notes its operations, and reads nothing. -/
def noting (operation : IbOp) (seen : List IbOp) : Outcome (List IbOp) operation.Answer :=
  match operation with
  | .rdstr len => .done [] (seen ++ [.rdstr len])
  | .qrystr str len => .done [] (seen ++ [.qrystr str len])
  | .optarg => .done [] (seen ++ [.optarg])
  | .rsp => .done 0 (seen ++ [.rsp])
  | .before word => .done '\x00' (seen ++ [.before word])
  | .loc => .done () (seen ++ [.loc])
  | .clr usec => .done () (seen ++ [.clr usec])
  | .wrtstr str => .done () (seen ++ [.wrtstr str])
  | .fini => .done () (seen ++ [.fini])
  | .delay seconds => .done () (seen ++ [.delay seconds])
  | .printf text => .done () (seen ++ [.printf text])

/-- A query and `quit`, with a blank line between them. -/
theorem interactive_lines_query :
    ShortLines 127 "*IDN?\n \nquit\n".toList ∧
      ∃ passes, interactive noting passes [] "*IDN?\n \nquit\n".toList ⟨[], []⟩ =
        some (executes noting (commandLines "*IDN?\n \nquit\n".toList) ⟨[], []⟩) :=
  ⟨by decide, (@interactive_lines (List IbOp) noting _ (by decide) []).mpr
    (.inl ⟨["quit".toList], by decide, by decide⟩)⟩

/-- A query that is the last line is executed again and again: the loop does not come to its end
after it. -/
theorem interactive_repeats : ¬ ∃ passes,
    interactive noting passes [] "*IDN?\n".toList ⟨[], []⟩ =
      some (executes noting (commandLines "*IDN?\n".toList) ⟨[], []⟩) := by
  intro ⟨passes, ended⟩
  exact interactive_stays (by decide) (by decide) rfl passes ended

end GpibUtils.Ibquery
