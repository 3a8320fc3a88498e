import Mathlib

/-!
Loops that run a step until it finishes, bounded by fuel. A step continues with a new state,
finishes with a result, or fails. An invariant that every continuing step keeps says what any
outcome of the loop satisfies, and a measure that every continuing step lowers says how much fuel
is enough for the loop to finish.
-/

namespace Loop

variable {σ ρ ε : Type}

/-- Run `step` from `s` for at most `fuel` iterations; `none` when the fuel runs out first. -/
def run (step : σ → Except ε (σ ⊕ ρ)) : Nat → σ → Option (Except ε ρ)
  | 0, _ => none
  | fuel + 1, s =>
    match step s with
    | .error e => some (.error e)
    | .ok (.inl next) => run step fuel next
    | .ok (.inr result) => some (.ok result)

/--
An invariant of a loop with a postcondition: from a state with `inv`, a step that continues
reaches a state with `inv`, and a step that finishes or fails gives an outcome `post` accepts.
-/
structure Invariant (step : σ → Except ε (σ ⊕ ρ)) (inv : σ → Prop) (post : Except ε ρ → Prop) :
    Prop where
  /-- A continuing step keeps the invariant. -/
  continues : ∀ {s next}, inv s → step s = .ok (.inl next) → inv next
  /-- A finishing step meets the postcondition. -/
  finishes : ∀ {s result}, inv s → step s = .ok (.inr result) → post (.ok result)
  /-- A failing step meets the postcondition. -/
  fails : ∀ {s e}, inv s → step s = .error e → post (.error e)

/-- `t` is a state the loop reaches from `s`, one continuing step after another. -/
inductive Reaches (step : σ → Except ε (σ ⊕ ρ)) : σ → σ → Prop
  | refl (s : σ) : Reaches step s s
  | tail {s t u : σ} : Reaches step s t → step t = .ok (.inl u) → Reaches step s u

section Rules

variable {step : σ → Except ε (σ ⊕ ρ)}

theorem run_succ (fuel : Nat) (s : σ) :
    run step (fuel + 1) s = match step s with
      | .error e => some (.error e)
      | .ok (.inl next) => run step fuel next
      | .ok (.inr result) => some (.ok result) := rfl

/-- A property that every continuing step keeps holds of every state the loop reaches. -/
theorem Reaches.holds {inv : σ → Prop}
    (continues : ∀ {s next}, inv s → step s = .ok (.inl next) → inv next) {s t : σ}
    (reached : Reaches step s t) (holds : inv s) : inv t := by
  -- Induction on the steps; each one keeps the property.
  induction reached with
  | refl => exact holds
  | tail _ stepped kept => exact continues kept stepped

/-- Every outcome of a loop started in a state with an invariant meets its postcondition. -/
theorem Invariant.run {inv : σ → Prop} {post : Except ε ρ → Prop}
    (invariant : Invariant step inv post) :
    ∀ fuel s, inv s → ∀ out, Loop.run step fuel s = some out → post out := by
  -- Induction on the fuel; each iteration is one of the three cases of the invariant.
  intro fuel
  induction fuel with
  | zero => intro s _ out ran; simp [Loop.run] at ran
  | succ fuel ih =>
    intro s holds out ran
    rw [run_succ] at ran
    cases stepped : step s with
    | error e =>
      rw [stepped] at ran
      cases ran
      exact invariant.fails holds stepped
    | ok next =>
      cases next with
      | inl next =>
        rw [stepped] at ran
        exact ih next (invariant.continues holds stepped) out ran
      | inr result =>
        rw [stepped] at ran
        cases ran
        exact invariant.finishes holds stepped

/--
A loop started in a state with an invariant finishes within any fuel above a measure that every
continuing step from a state with the invariant lowers.
-/
theorem Invariant.run_isSome {inv : σ → Prop} {post : Except ε ρ → Prop}
    (invariant : Invariant step inv post) (measure : σ → Nat)
    (lowers : ∀ {s next}, inv s → step s = .ok (.inl next) → measure next < measure s) :
    ∀ fuel s, inv s → measure s < fuel → (Loop.run step fuel s).isSome := by
  -- Induction on the fuel: a continuing step uses one unit and lowers the measure by one at least.
  intro fuel
  induction fuel with
  | zero => intro s _ enough; omega
  | succ fuel ih =>
    intro s holds enough
    rw [run_succ]
    cases stepped : step s with
    | error e => rfl
    | ok next =>
      cases next with
      | inl next =>
        have lower := lowers holds stepped
        exact ih next (invariant.continues holds stepped) (by omega)
      | inr result => rfl

/-- With fuel above the measure, a loop started in a state with an invariant has an outcome, and
every outcome meets the postcondition. -/
theorem Invariant.run_spec {inv : σ → Prop} {post : Except ε ρ → Prop}
    (invariant : Invariant step inv post) (measure : σ → Nat)
    (lowers : ∀ {s next}, inv s → step s = .ok (.inl next) → measure next < measure s)
    {fuel : Nat} {s : σ} (holds : inv s) (enough : measure s < fuel) :
    ∃ out, Loop.run step fuel s = some out ∧ post out := by
  obtain ⟨out, ran⟩ := Option.isSome_iff_exists.mp (invariant.run_isSome measure lowers fuel s holds
    enough)
  exact ⟨out, ran, invariant.run fuel s holds out ran⟩

end Rules

end Loop
