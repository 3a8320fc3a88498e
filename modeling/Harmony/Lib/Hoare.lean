import Mathlib

/-!
Loop rules for code in the `Except` monad. A counted loop, `for i := 0; i < n; i++`, is a
`foldlM` over `List.range n`; if every iteration from a state satisfying the invariant returns a
state satisfying it one iteration on, the loop returns, and its result satisfies it at `n`.
-/

namespace Except

variable {ε α β : Type}

/-- `pure` returns. -/
@[simp] theorem pure_eq_ok (a : α) : (pure a : Except ε α) = .ok a := rfl

/-- Code after a step that returned runs on the returned value. -/
@[simp] theorem ok_bind (a : α) (f : α → Except ε β) : (Except.ok a >>= f) = f a := rfl

/-- The rule for a counted loop whose invariant `inv k` describes the state after `k` iterations. -/
theorem foldlM_range {f : α → Nat → Except ε α} (inv : Nat → α → Prop) {n : Nat} {init : α}
    (start : inv 0 init)
    (step : ∀ k a, k < n → inv k a → ∃ a', f a k = .ok a' ∧ inv (k + 1) a') :
    ∃ a, (List.range n).foldlM f init = .ok a ∧ inv n a := by
  induction n with
  | zero => exact ⟨init, rfl, start⟩
  | succ n ih =>
    -- The first `n` iterations, then iteration `n` from where they leave the state.
    obtain ⟨a, ran, holds⟩ := ih fun k a below => step k a (by omega)
    obtain ⟨a', stepped, holds'⟩ := step n a (by omega) holds
    refine ⟨a', ?_, holds'⟩
    rw [List.range_succ, List.foldlM_append, ran]
    show List.foldlM f a [n] = _
    rw [List.foldlM_cons, stepped]
    rfl

/-- A loop whose invariant does not depend on how many iterations have run. -/
theorem foldlM_range_const {f : α → Nat → Except ε α} (inv : α → Prop) {n : Nat} {init : α}
    (start : inv init) (step : ∀ k a, k < n → inv a → ∃ a', f a k = .ok a' ∧ inv a') :
    ∃ a, (List.range n).foldlM f init = .ok a ∧ inv a :=
  foldlM_range (fun _ => inv) start step

end Except
