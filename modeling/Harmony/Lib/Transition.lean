import Mathlib

/-! Labelled transition systems: runs with their outputs, reachable states, and invariants. -/

namespace Transition

variable {σ ε ω : Type}

/-- A run of a labelled step relation: each element is an event with the output its step gave. -/
inductive Run (step : σ → ε → ω → σ → Prop) : σ → List (ε × ω) → σ → Prop
  | nil (s : σ) : Run step s [] s
  | cons {s t u : σ} {event : ε} {output : ω} {trace : List (ε × ω)} :
      step s event output t → Run step t trace u → Run step s ((event, output) :: trace) u

/-- The states that some run from an initial state reaches. -/
inductive Reachable (step : σ → ε → ω → σ → Prop) (init : σ → Prop) : σ → Prop
  | init {s : σ} : init s → Reachable step init s
  | step {s t : σ} {event : ε} {output : ω} :
      Reachable step init s → step s event output t → Reachable step init t

/-- A property of states that holds initially and that every step keeps. -/
structure Invariant (step : σ → ε → ω → σ → Prop) (init : σ → Prop) (inv : σ → Prop) :
    Prop where
  /-- Every initial state has the property. -/
  holds_init : ∀ s, init s → inv s
  /-- A step from a state with the property reaches one with it. -/
  preserved : ∀ {s t : σ} {event : ε} {output : ω}, inv s → step s event output t → inv t

section Rules

variable {step : σ → ε → ω → σ → Prop} {init : σ → Prop}

/-- A run from a reachable state ends in a reachable state. -/
theorem Run.reachable {s u : σ} {trace : List (ε × ω)} (run : Run step s trace u)
    (start : Reachable step init s) : Reachable step init u := by
  induction run with
  | nil => exact start
  | cons moved _ ih => exact ih (.step start moved)

/-- An invariant holds in every reachable state. -/
theorem Invariant.reachable {inv : σ → Prop} (invariant : Invariant step init inv) {s : σ}
    (reached : Reachable step init s) : inv s := by
  induction reached with
  | init initial => exact invariant.holds_init _ initial
  | step _ moved ih => exact invariant.preserved ih moved

/--
A property kept by every step from a reachable state holds in every reachable state: the steps
may use what is already known of reachable states.
-/
theorem Reachable.induction {inv : σ → Prop} (holds_init : ∀ s, init s → inv s)
    (preserved : ∀ {s t : σ} {event : ε} {output : ω},
      Reachable step init s → inv s → step s event output t → inv t)
    {s : σ} (reached : Reachable step init s) : inv s := by
  induction reached with
  | init initial => exact holds_init _ initial
  | step earlier moved ih => exact preserved earlier ih moved

/--
Every step of a run that starts in a reachable state starts in a reachable state itself, so a
fact about single steps from reachable states covers every output of the run.
-/
theorem Run.step_reachable {s u : σ} {trace : List (ε × ω)} (run : Run step s trace u)
    (start : Reachable step init s) :
    ∀ entry ∈ trace, ∃ t t', Reachable step init t ∧ step t entry.1 entry.2 t' := by
  induction run with
  | nil => simp
  | @cons s t u event output trace moved _ ih =>
    intro entry member
    rcases List.mem_cons.mp member with first | later
    · subst first
      exact ⟨s, t, start, moved⟩
    · exact ih (.step start moved) entry later

/--
Along a run from a state with property `inv`, where every admitted step keeps `inv` and raises a
potential by the cost of its output, the potential rises by the total cost of the run's outputs.
-/
theorem Run.potential_sum {inv : σ → Prop} {admitted : ε → Prop} (potential : σ → Nat)
    (cost : ω → Nat)
    (preserved : ∀ {s t : σ} {event : ε} {output : ω}, inv s → admitted event →
      step s event output t → inv t ∧ potential t = potential s + cost output)
    {s u : σ} {trace : List (ε × ω)} (run : Run step s trace u) (start : inv s)
    (admits : ∀ entry ∈ trace, admitted entry.1) :
    inv u ∧ potential u = potential s + (trace.map fun entry => cost entry.2).sum := by
  induction run with
  | nil => exact ⟨start, rfl⟩
  | @cons s t u event output trace moved _ ih =>
    obtain ⟨kept, raised⟩ := preserved start (admits _ List.mem_cons_self) moved
    obtain ⟨final, total⟩ := ih kept fun entry member => admits entry (List.mem_cons_of_mem _ member)
    refine ⟨final, ?_⟩
    simp only [total, raised, List.map_cons, List.sum_cons]
    omega

end Rules

end Transition
