import Rebind.Proofs.Evaluation
/-!
# Evaluations in tandem

Two evaluations, each from a store of its own, of which the second one comes to what the first one came
to.  The first one may have met a limit of its machine; then nothing is said of the second one.  So it does
not matter whether the second one needs more room than the first, and where both lead each other they
come to the same or both meet limits.
-/
namespace Rebind

/-- What an evaluation came to, whatever became of the store. -/
def outcome {α : Type} : EStateM.Result Fault Store α → Except Fault α
  | .ok a _ => .ok a
  | .error e _ => .error e

/-- Where the first evaluation returns, the second one returns what is related to that; where the first one
is given up, the second one is given up in the same way, unless a limit was met. -/
def Tandem {α β : Type} (limits : Fault → Prop) (x : Eval α) (σ : Store) (y : Eval β) (σ' : Store)
    (R : α → Store → β → Store → Prop) : Prop :=
  match x σ with
  | .ok a τ => ∃ b τ', y σ' = .ok b τ' ∧ R a τ b τ'
  | .error e _ => limits e ∨ ∃ τ', y σ' = .error e τ'

section Tandem

variable {α β γ δ : Type} {limits : Fault → Prop} {σ σ' : Store} {x : Eval α} {y : Eval β}
  {R : α → Store → β → Store → Prop}

theorem tandem_pure {a : α} {b : β} (h : R a σ b σ') : Tandem limits (pure a) σ (pure b) σ' R :=
  ⟨b, σ', rfl, h⟩

theorem tandem_throw (e : Fault) : Tandem limits (throw e) σ (throw e) σ' R := .inr ⟨σ', rfl⟩

theorem tandem_raise (c : Cause) : Tandem limits (raise c) σ (raise c) σ' R := .inr ⟨σ', rfl⟩

/-- Evaluations in tandem may be followed by such. -/
theorem Tandem.bind {f : α → Eval γ} {g : β → Eval δ} {Q : γ → Store → δ → Store → Prop}
    (h : Tandem limits x σ y σ' R) (hf : ∀ a τ b τ', R a τ b τ' → Tandem limits (f a) τ (g b) τ' Q) :
    Tandem limits (x >>= f) σ (y >>= g) σ' Q := by
  simp only [Tandem, Bind.bind, EStateM.bind] at h hf ⊢
  cases hx : x σ with
  | ok a τ =>
    rw [hx] at h
    obtain ⟨b, τ', hy, related⟩ := h
    rw [hy]
    exact hf a τ b τ' related
  | error e τ =>
    rw [hx] at h
    rcases h with limit | ⟨τ', hy⟩
    · exact .inl limit
    · rw [hy]
      exact .inr ⟨τ', rfl⟩

/-- What is known of the two ends may be weakened. -/
theorem Tandem.mono {Q : α → Store → β → Store → Prop} (h : Tandem limits x σ y σ' R)
    (hr : ∀ a τ b τ', R a τ b τ' → Q a τ b τ') : Tandem limits x σ y σ' Q := by
  simp only [Tandem] at h ⊢
  cases hx : x σ with
  | ok a τ =>
    rw [hx] at h
    obtain ⟨b, τ', hy, related⟩ := h
    exact ⟨b, τ', hy, hr a τ b τ' related⟩
  | error e τ =>
    rw [hx] at h
    exact h

/-- Only what the evaluations do in the two stores matters. -/
theorem Tandem.congr {x' : Eval α} {y' : Eval β} (h : Tandem limits x' σ y' σ' R) (left : x σ = x' σ)
    (right : y σ' = y' σ') : Tandem limits x σ y σ' R := by
  simp only [Tandem] at h ⊢
  rw [left, right]
  exact h

/-- A limit that the first evaluation met excuses the second one from everything. -/
theorem tandem_of_limit {e : Fault} {τ : Store} (met : x σ = .error e τ) (limit : limits e) :
    Tandem limits x σ y σ' R := by
  simp only [Tandem, met]
  exact .inl limit

/-- What the first evaluation came to without meeting a limit, the second one came to as well. -/
theorem Tandem.outcome_eq {y : Eval α} {R : α → Store → α → Store → Prop}
    (h : Tandem limits x σ y σ' R) (same : ∀ a τ b τ', R a τ b τ' → b = a)
    (free : ∀ e, outcome (x σ) = .error e → ¬ limits e) : outcome (y σ') = outcome (x σ) := by
  simp only [Tandem] at h
  cases hx : x σ with
  | ok a τ =>
    rw [hx] at h
    obtain ⟨b, τ', hy, related⟩ := h
    rw [hy, same a τ b τ' related]
    rfl
  | error e τ =>
    rw [hx] at h free
    rcases h with limit | ⟨τ', hy⟩
    · exact absurd limit (free e rfl)
    · rw [hy]
      rfl

end Tandem

end Rebind
