import GpibUtils.Tools.Ics8064

/-!
# Lists of relays, all or nothing

`_validate_targets` goes over the relays of a list before anything is done with them, and accepts
those that read as 1 to 16. What it compares is an `int` that `strtoul` is narrowed to, so a number
that differs from one of these by a multiple of 2 to the 32nd is accepted too, and so is one with a
sign or white space in front. A list is acted on all or nothing exactly when none of it is mistaken
for a relay (`allOrNothing_iff`).
-/

namespace GpibUtils.Ics8064

open CSem

/-- Whether an act begins as the commands to open a relay do. -/
def Act.opening : Act → Bool
  | .wrt string => string.take 11 == "ROUTE:OPEN ".toList
  | _ => false

/-- Whether an act begins as the commands to open or close one relay do. -/
def Act.oneRelay (act : Act) : Bool := act.opening || act.closing

/-- Whether an act begins as all commands about relays do. -/
def Act.routing : Act → Bool
  | .wrt string => string.take 6 == "ROUTE:".toList
  | _ => false

/-- The command of a request for one relay. -/
def Request.command : Request → List Char → Act
  | .opens _ => routeOpen
  | .closes _ => routeClose

/-- A list is acted on all or nothing: when all of it are numbers of relays there is one command
for each, in order, and nothing else but the command that opens all in radio mode; otherwise there
is no command about relays. -/
structure AllOrNothing (radio : Nat) (request : Request) (tokens : List (List Char))
    (acts : List Act) : Prop where
  all : (∀ token ∈ tokens, IsRelay token) →
    acts.filter Act.oneRelay = tokens.map request.command ∧
      ∀ act ∈ acts, act.oneRelay = true ∨ radio ≠ 0 ∧ act = routeOpenAll
  nothing : ¬ (∀ token ∈ tokens, IsRelay token) → ∀ act ∈ acts, act.routing = false

/-- A text that reads as a number, with white space and a sign in front perhaps, which is 1 to 16
up to a multiple of 2 to the 32nd. -/
def ReadsAsRelay (token : List Char) : Prop :=
  let num := numeralOf token
  let n : Int := digitsValue num.digits
  let r := (if num.minus then -n else n) % 2 ^ 32
  num.digits ≠ [] ∧ num.rest = [] ∧ n < 2 ^ 64 ∧ 1 ≤ r ∧ r ≤ 16

instance : DecidablePred ReadsAsRelay := fun _ =>
  inferInstanceAs (Decidable (_ ≠ _ ∧ _ = _ ∧ _ < _ ∧ _ ≤ _ ∧ _ ≤ _))

/-- No list is mistaken: if all of it reads as relays, all of it are. -/
def NoneMistaken (tokens : List (List Char)) : Prop :=
  (∀ token ∈ tokens, ReadsAsRelay token) → ∀ token ∈ tokens, IsRelay token

/-- An integer is from 1 to 16 as an `int` exactly when it is modulo 2 to the 32nd. -/
theorem toInt_relay_iff (x : Int) :
    1 ≤ toInt x ∧ toInt x ≤ 16 ↔ 1 ≤ x % 2 ^ 32 ∧ x % 2 ^ 32 ≤ 16 := by
  rw [toInt, Int.bmod_def]
  split <;> omega

/-- A negated word is the negated number, modulo 2 to the 32nd. -/
theorem neg_word_emod {n : Nat} (fits : n < 2 ^ 64) :
    ((-UInt64.ofNat n).toNat : Int) % 2 ^ 32 = -(n : Int) % 2 ^ 32 := by
  rw [UInt64.toNat_neg, UInt64.toNat_ofNat_of_lt' fits, UInt64.size]
  omega

/-- What `_validate_targets` accepts reads as a relay. -/
theorem accepted_iff (token : List Char) :
    ((strtoul token).2 = [] ∧ 1 ≤ toInt (strtoul token).1.toNat ∧
      toInt (strtoul token).1.toNat ≤ 16) ↔ ReadsAsRelay token := by
  rw [toInt_relay_iff, strtoul, ReadsAsRelay]
  by_cases number : (numeralOf token).digits = []
  · simp [number]
  · by_cases large : 2 ^ 64 ≤ digitsValue (numeralOf token).digits
    · have beyond : ¬ (digitsValue (numeralOf token).digits : Int) < 2 ^ 64 := by omega
      have largest : ((-1 : UInt64).toNat : Int) % 2 ^ 32 = 2 ^ 32 - 1 := by decide
      simp only [if_neg number, if_pos large, largest]
      refine iff_of_false (fun accepted => ?_) fun reads => beyond reads.2.2.1
      exact absurd accepted.2.2 (by decide)
    · have fits : digitsValue (numeralOf token).digits < 2 ^ 64 := Nat.not_le.mp large
      have small : (digitsValue (numeralOf token).digits : Int) < 2 ^ 64 := by omega
      have value : ((if (numeralOf token).minus then
          -UInt64.ofNat (digitsValue (numeralOf token).digits)
          else UInt64.ofNat (digitsValue (numeralOf token).digits) : UInt64).toNat : Int) % 2 ^ 32 =
          (if (numeralOf token).minus then -(digitsValue (numeralOf token).digits : Int)
            else digitsValue (numeralOf token).digits) % 2 ^ 32 := by
        split
        · exact neg_word_emod fits
        · rw [UInt64.toNat_ofNat_of_lt' fits]
      simp only [if_neg number, if_neg large, value]
      constructor
      · rintro ⟨rest, low, high⟩
        exact ⟨number, rest, small, low, high⟩
      · rintro ⟨-, rest, -, low, high⟩
        exact ⟨rest, low, high⟩

/-- A list is accepted exactly when all of it reads as relays. -/
theorem validateTargets_iff {expand : List Char → List (List Char)} {targets : List Char} :
    validateTargets expand targets = true ↔ ∀ token ∈ expand targets, ReadsAsRelay token := by
  rw [validateTargets, List.all_eq_true]
  refine forall₂_congr fun token _ => ?_
  rw [← accepted_iff]
  simp

/-- A request is answered in the shell when its list is accepted. -/
theorem Request.docmd_line (radio : Nat) (expand : List Char → List (List Char))
    (request : Request) :
    (docmd radio expand request.line).2 =
      if validateTargets expand request.targets then request.acts radio expand else [] := by
  cases request <;> rfl

/-- A request is answered as an option as it is in the shell, before the other options. -/
theorem Request.secondPass_option (radio : Nat) (expand : List Char → List (List Char))
    (request : Request) (options : List Opt) (stdin : List Char) (exitVal : Int) :
    ∃ value, (secondPass radio expand (request.option :: options) stdin exitVal).1 =
      (docmd radio expand request.line).2 ++ (secondPass radio expand options stdin value).1 := by
  rw [request.docmd_line]
  cases request with
  | opens targets =>
    rw [Request.option, secondPass, Request.targets]
    split
    · exact ⟨exitVal, rfl⟩
    · exact ⟨1, rfl⟩
  | closes targets =>
    rw [Request.option, secondPass, Request.targets]
    split
    · exact ⟨exitVal, rfl⟩
    · exact ⟨1, rfl⟩

/-- In radio mode or not, one of the acts for a relay that is closed is a command for it. -/
theorem filter_closeOneRelay (radio : Nat) (relay : List Char) :
    (closeOneRelay radio relay).filter Act.oneRelay = [routeClose relay] := by
  rw [closeOneRelay]
  split
  · rfl
  · rfl

/-- The acts of a request have one command for each relay, in order. -/
theorem Request.filter_acts (radio : Nat) (expand : List Char → List (List Char))
    (request : Request) :
    (request.acts radio expand).filter Act.oneRelay =
      (expand request.targets).map request.command := by
  cases request with
  | opens targets =>
    have one : ∀ relay, (openOneRelay relay).filter Act.oneRelay = [routeOpen relay] :=
      fun _ => rfl
    simp only [Request.acts, Ics8064.openRelays, List.filter_flatMap, one]
    exact List.map_eq_flatMap.symm
  | closes targets =>
    simp only [Request.acts, Ics8064.closeRelays, List.filter_flatMap, filter_closeOneRelay]
    exact List.map_eq_flatMap.symm

/-- The acts of a request are these commands, and the one that opens all in radio mode. -/
theorem Request.mem_acts {radio : Nat} {expand : List Char → List (List Char)}
    {request : Request} {act : Act} (member : act ∈ request.acts radio expand) :
    act.oneRelay = true ∨ radio ≠ 0 ∧ act = routeOpenAll := by
  cases request with
  | opens targets =>
    obtain ⟨relay, _, done⟩ := List.mem_flatMap.mp member
    rw [List.mem_singleton.mp done]
    exact .inl rfl
  | closes targets =>
    obtain ⟨relay, _, done⟩ := List.mem_flatMap.mp member
    cases List.mem_append.mp done with
    | inl all =>
      split at all
      case isTrue mode => exact .inr ⟨mode, List.mem_singleton.mp all⟩
      case isFalse => cases all
    | inr one =>
      rw [List.mem_singleton.mp one]
      exact .inl rfl

/-- A command for a relay is about relays. -/
theorem Request.command_routing (request : Request) (token : List Char) :
    (request.command token).routing = true := by
  cases request <;> rfl

/-- The number of a relay reads as one. -/
theorem readsAsRelay_of_isRelay {token : List Char} (relay : IsRelay token) :
    ReadsAsRelay token := by
  have requested : Requested (fun _ => [token]) [] :=
    ⟨List.cons_ne_nil _ _, List.forall_mem_singleton.mpr relay⟩
  exact validateTargets_iff.mp requested.valid token List.mem_cons_self

/-- A list is acted on all or nothing, in the shell and as an option, exactly when none of it is
mistaken for a relay. -/
theorem allOrNothing_iff (radio : Nat) (expand : List Char → List (List Char))
    (request : Request) :
    (AllOrNothing radio request (expand request.targets) (docmd radio expand request.line).2 ↔
      NoneMistaken (expand request.targets)) ∧
    ∀ options stdin exitVal, ∃ value,
      (secondPass radio expand (request.option :: options) stdin exitVal).1 =
        (docmd radio expand request.line).2 ++
          (secondPass radio expand options stdin value).1 := by
  refine ⟨?_, request.secondPass_option radio expand⟩
  rw [request.docmd_line]
  constructor
  · intro acts reads
    rw [if_pos (validateTargets_iff.mpr reads)] at acts
    by_contra mistaken
    have quiet := acts.nothing mistaken
    obtain ⟨token, member, _⟩ := not_forall₂.mp mistaken
    have command : request.command token ∈ request.acts radio expand := by
      apply (List.mem_filter.mp _).1
      · exact Act.oneRelay
      · rw [request.filter_acts]
        exact List.mem_map_of_mem member
    have loud := request.command_routing token
    rw [quiet _ command] at loud
    cases loud
  · intro mistaken
    by_cases relays : ∀ token ∈ expand request.targets, IsRelay token
    · have reads := fun token member => readsAsRelay_of_isRelay (relays token member)
      rw [if_pos (validateTargets_iff.mpr reads)]
      exact ⟨fun _ => ⟨request.filter_acts radio expand, fun _ => Request.mem_acts⟩,
        fun other => absurd relays other⟩
    · have refused : ¬ validateTargets expand request.targets = true :=
        fun accepted => relays (mistaken (validateTargets_iff.mp accepted))
      rw [if_neg refused]
      exact ⟨fun all => absurd all relays, fun _ act member => nomatch member⟩

end GpibUtils.Ics8064
