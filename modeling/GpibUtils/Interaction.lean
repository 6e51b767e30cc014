/-!
# Programs that call operations

A program is a finite tree: it has a result, or it calls an operation and goes on with the
answer. Running it on a machine performs its calls one after another; a call may end the
program, or be cut short when the bound on its running time is reached. What every operation
keeps, every program keeps.
-/

namespace Interaction

/-- What running something on a machine comes to. -/
inductive Outcome (μ α : Type) where
  /-- It returns a value. -/
  | done (value : α) (machine : μ)
  /-- It ends the process. -/
  | exited (code : Int) (machine : μ)
  /-- It is still running when its bound is reached. -/
  | unfinished (machine : μ)

namespace Outcome

variable {μ α β : Type}

/-- Go on with the value returned. -/
def bind (first : Outcome μ α) (next : α → μ → Outcome μ β) : Outcome μ β :=
  match first with
  | done value machine => next value machine
  | exited code machine => exited code machine
  | unfinished machine => unfinished machine

@[simp] theorem bind_done (value : α) (machine : μ) (next : α → μ → Outcome μ β) :
    (done value machine).bind next = next value machine := rfl

@[simp] theorem bind_exited (code : Int) (machine : μ) (next : α → μ → Outcome μ β) :
    (exited code machine : Outcome μ α).bind next = exited code machine := rfl

@[simp] theorem bind_unfinished (machine : μ) (next : α → μ → Outcome μ β) :
    (unfinished machine : Outcome μ α).bind next = unfinished machine := rfl

/-- What goes on and returns has returned before. -/
theorem bind_eq_done {first : Outcome μ α} {next : α → μ → Outcome μ β} {value : β}
    {machine : μ} :
    first.bind next = done value machine ↔
      ∃ between there, first = done between there ∧ next between there = done value machine := by
  cases first with
  | done between there =>
    constructor
    · exact fun returned => ⟨between, there, rfl, returned⟩
    · rintro ⟨_, _, same, returned⟩
      cases same
      exact returned
  | exited code there => simp [bind]
  | unfinished there => simp [bind]

/-- What holds of the machine in each of the three cases. -/
def Meets (outcome : Outcome μ α) (returns : α → μ → Prop) (exits : Int → μ → Prop)
    (waits : μ → Prop) : Prop :=
  match outcome with
  | done value machine => returns value machine
  | exited code machine => exits code machine
  | unfinished machine => waits machine

/-- What the rest meets after every value of the first part, both meet together. -/
theorem Meets.bind {first : Outcome μ α} {next : α → μ → Outcome μ β} {between : α → μ → Prop}
    {returns : β → μ → Prop} {exits : Int → μ → Prop} {waits : μ → Prop}
    (meets : first.Meets between exits waits)
    (rest : ∀ value machine, between value machine →
      (next value machine).Meets returns exits waits) :
    (first.bind next).Meets returns exits waits := by
  cases first with
  | done value machine => exact rest value machine meets
  | exited code machine => exact meets
  | unfinished machine => exact meets

/-- What is promised may be weakened. -/
theorem Meets.mono {outcome : Outcome μ α} {returns returns' : α → μ → Prop}
    {exits exits' : Int → μ → Prop} {waits waits' : μ → Prop}
    (meets : outcome.Meets returns exits waits)
    (onReturn : ∀ value machine, returns value machine → returns' value machine)
    (onExit : ∀ code machine, exits code machine → exits' code machine)
    (onWait : ∀ machine, waits machine → waits' machine) :
    outcome.Meets returns' exits' waits' := by
  cases outcome with
  | done value machine => exact onReturn value machine meets
  | exited code machine => exact onExit code machine meets
  | unfinished machine => exact onWait machine meets

/-- The same outcome, on what is made of the machine. -/
def through {ν : Type} (view : μ → ν) : Outcome μ α → Outcome ν α
  | done value machine => .done value (view machine)
  | exited code machine => .exited code (view machine)
  | unfinished machine => .unfinished (view machine)

/-- What is made of the machine meets what the machine does. -/
theorem Meets.through {ν : Type} {view : μ → ν} {outcome : Outcome μ α}
    {returns : α → ν → Prop} {exits : Int → ν → Prop} {waits : ν → Prop}
    (meets : outcome.Meets (fun value machine => returns value (view machine))
      (fun code machine => exits code (view machine)) fun machine => waits (view machine)) :
    (outcome.through view).Meets returns exits waits := by
  cases outcome with
  | done value machine => exact meets
  | exited code machine => exact meets
  | unfinished machine => exact meets

/-- Two promises that are both met. -/
theorem Meets.and {outcome : Outcome μ α} {returns returns' : α → μ → Prop}
    {exits exits' : Int → μ → Prop} {waits waits' : μ → Prop}
    (first : outcome.Meets returns exits waits) (second : outcome.Meets returns' exits' waits') :
    outcome.Meets (fun value machine => returns value machine ∧ returns' value machine)
      (fun code machine => exits code machine ∧ exits' code machine)
      fun machine => waits machine ∧ waits' machine := by
  cases outcome with
  | done value machine => exact ⟨first, second⟩
  | exited code machine => exact ⟨first, second⟩
  | unfinished machine => exact ⟨first, second⟩

/-- Every bound that is large enough lets it return, and always the same, of which something
holds. -/
def Returns (run : Nat → Outcome μ α) (returns : α → μ → Prop) : Prop :=
  ∃ value machine, returns value machine ∧
    ∃ enough, ∀ bound ≥ enough, run bound = done value machine

/-- What returns under every bound returns. -/
theorem Returns.of_done {run : Nat → Outcome μ α} {returns : α → μ → Prop} {value : α}
    {machine : μ} (returned : ∀ bound, run bound = done value machine)
    (holds : returns value machine) : Returns run returns :=
  ⟨value, machine, holds, 0, fun bound _ => returned bound⟩

/-- Two parts return when the first does, and the second from wherever the first leads. -/
theorem Returns.bind {first : Nat → Outcome μ α} {next : Nat → α → μ → Outcome μ β}
    {between : α → μ → Prop} {returns : β → μ → Prop} (front : Returns first between)
    (rest : ∀ value machine, between value machine →
      Returns (fun bound => next bound value machine) returns) :
    Returns (fun bound => (first bound).bind (next bound)) returns := by
  obtain ⟨value, machine, holds, enough, returned⟩ := front
  obtain ⟨value', machine', holds', enough', returned'⟩ := rest value machine holds
  refine ⟨value', machine', holds', max enough enough', fun bound large => ?_⟩
  show (first bound).bind (next bound) = done value' machine'
  rw [returned bound (by omega), bind_done]
  exact returned' bound (by omega)

/-- What returns does so on what is made of the machine. -/
theorem Returns.through {ν : Type} {view : μ → ν} {run : Nat → Outcome μ α}
    {returns : α → ν → Prop}
    (front : Returns run fun value machine => returns value (view machine)) :
    Returns (fun bound => (run bound).through view) returns := by
  obtain ⟨value, machine, holds, enough, returned⟩ := front
  refine ⟨value, view machine, holds, enough, fun bound large => ?_⟩
  show (run bound).through view = done value (view machine)
  rw [returned bound large, Outcome.through]

end Outcome

/-- A program with operations `ω`, their answers `ζ`, and results `ρ`. -/
inductive Program (ω : Type) (ζ : ω → Type) (ρ : Type) where
  | result (value : ρ)
  | call (operation : ω) (next : ζ operation → Program ω ζ ρ)

namespace Program

variable {ω : Type} {ζ : ω → Type} {ρ τ μ : Type}

/-- Run a program, given how its operations are performed. -/
def run (perform : (operation : ω) → μ → Outcome μ (ζ operation)) :
    Program ω ζ ρ → μ → Outcome μ ρ
  | result value, machine => .done value machine
  | call operation next, machine =>
    (perform operation machine).bind fun answer machine => (next answer).run perform machine

/-- Go on with the result of a program. -/
def bind (rest : ρ → Program ω ζ τ) : Program ω ζ ρ → Program ω ζ τ
  | result value => rest value
  | call operation next => call operation fun answer => (next answer).bind rest

/-- What comes after an operation can be told from the program, whatever the answer. -/
theorem next_eq {operation : ω} {next next' : ζ operation → Program ω ζ ρ}
    (same : call operation next = call operation next') (answer : ζ operation) :
    next answer = next' answer := by
  injection same with _ nexts
  rw [nexts]

/-- A program that goes on with the result of another runs after it. -/
theorem run_bind {perform : (operation : ω) → μ → Outcome μ (ζ operation)}
    (rest : ρ → Program ω ζ τ) (program : Program ω ζ ρ) (machine : μ) :
    (program.bind rest).run perform machine =
      (program.run perform machine).bind fun value machine => (rest value).run perform machine := by
  induction program generalizing machine with
  | result value => rfl
  | call operation next ih =>
    rw [bind, run, run]
    cases perform operation machine with
    | done answer later => exact ih answer later
    | exited code later => rfl
    | unfinished later => rfl

/-- What every operation keeps, every program keeps. -/
theorem run_keeps {perform : (operation : ω) → μ → Outcome μ (ζ operation)} {inv : μ → Prop}
    {exits : Int → μ → Prop} {waits : μ → Prop}
    (each : ∀ operation machine, inv machine →
      (perform operation machine).Meets (fun _ => inv) exits waits)
    (program : Program ω ζ ρ) {machine : μ} (start : inv machine) :
    (program.run perform machine).Meets (fun _ => inv) exits waits := by
  induction program generalizing machine with
  | result value => exact start
  | call operation next ih =>
    exact (each operation machine start).bind fun answer machine kept => ih answer kept

end Program

end Interaction
