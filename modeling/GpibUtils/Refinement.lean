import GpibUtils.Runs

/-!
# Systems that answer alike

A system answers each request and goes on in another state. One system stands for another when
their states are related, related states answer what is promised alike, and go on related: then the
two cannot be told apart by any run of promised requests.
-/

namespace Refinement

variable {σ τ α β : Type}

/-- The state after a request. -/
def next (serve : σ → α → β × σ) (state : σ) (request : α) : σ := (serve state request).2

/-- The answers to some requests. -/
def answers (serve : σ → α → β × σ) (state : σ) : List α → List β
  | [] => []
  | request :: later =>
    (serve state request).1 :: answers serve (next serve state request) later

/-- Related states answer every promised request alike, and go on related. -/
def Simulates (concrete : σ → α → β × σ) (abstract : τ → α → β × τ) (related : σ → τ → Prop)
    (promise : τ → α → Prop) : Prop :=
  ∀ state model request, related state model → promise model request →
    (concrete state request).1 = (abstract model request).1 ∧
      related (concrete state request).2 (abstract model request).2

variable {concrete : σ → α → β × σ} {abstract : τ → α → β × τ} {related : σ → τ → Prop}
  {promise : τ → α → Prop}

/-- A run of promised requests is answered alike, and ends in related states. -/
theorem Simulates.run (simulates : Simulates concrete abstract related promise) {state : σ}
    {model : τ} (start : related state model) {requests : List α}
    (along : Runs.Along (next abstract) promise model requests) :
    answers concrete state requests = answers abstract model requests ∧
      related (Runs.run (next concrete) state requests)
        (Runs.run (next abstract) model requests) := by
  induction requests generalizing state model with
  | nil => exact ⟨rfl, start⟩
  | cons request later ih =>
    obtain ⟨same, goes⟩ := simulates state model request start along.1
    obtain ⟨alike, ends⟩ := ih goes along.2
    exact ⟨congrArg₂ List.cons same alike, ends⟩

end Refinement
