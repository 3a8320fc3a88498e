import Mathlib

/-!
An undo log. Every change to a state appends entries that say how to take it back, and reverting
to a mark undoes the entries after it, newest first. Undoing may fail (a Go panic), so it runs in
`Except`.

Where undoing one entry commutes with an abstraction of the state, so does undoing a stretch of
the log: a concrete store's log is shown to restore its abstract state that way.
-/

namespace Journal

variable {ε S V E : Type}

/-- Undo `entries`, newest first. -/
def undo (revert : E → S → Except ε S) (entries : List E) (s : S) : Except ε S :=
  entries.foldrM revert s

@[simp] theorem undo_nil (revert : E → S → Except ε S) (s : S) : undo revert [] s = .ok s := rfl

/-- Undoing a stretch undoes its newer entries first, and its oldest entry last. -/
theorem undo_cons (revert : E → S → Except ε S) (e : E) (entries : List E) (s : S) :
    undo revert (e :: entries) s = undo revert entries s >>= revert e := by
  simp [undo]

/-- Undoing one entry. -/
@[simp] theorem undo_singleton (revert : E → S → Except ε S) (e : E) (s : S) :
    undo revert [e] s = revert e s := by
  simp [undo]

/-- Undoing two stretches undoes the newer one first. -/
theorem undo_append (revert : E → S → Except ε S) (older newer : List E) (s : S) :
    undo revert (older ++ newer) s = undo revert newer s >>= undo revert older := by
  rw [undo, List.foldrM_append]
  rfl

section Simulation

variable (view : S → V) (revert : E → S → Except ε S) (revertView : E → V → Except ε V)
  (good : S → Prop)

/-- Undoing entries that each keep a property of the state keeps it. -/
theorem undo_keeps (entries : List E)
    (keeps : ∀ e ∈ entries, ∀ s t, good s → revert e s = .ok t → good t) :
    ∀ s t, good s → undo revert entries s = .ok t → good t := by
  induction entries with
  | nil =>
    intro s t holds undone
    cases undone
    exact holds
  | cons e entries ih =>
    intro s t holds undone
    rw [undo_cons] at undone
    -- The newer entries are undone first, from a state that keeps the property.
    cases newer : undo revert entries s with
    | error _ =>
      rw [newer] at undone
      cases undone
    | ok u =>
      rw [newer] at undone
      exact keeps e List.mem_cons_self u t
        (ih (fun e' mem => keeps e' (List.mem_cons_of_mem e mem)) s u holds newer) undone

/--
Undoing commutes with `view` when undoing each entry does, on states with a property that undoing
keeps: the abstract state's log, undone, gives the abstraction of the undone store.
-/
theorem undo_map (entries : List E)
    (commutes : ∀ e ∈ entries, ∀ s, good s → (revert e s).map view = revertView e (view s))
    (keeps : ∀ e ∈ entries, ∀ s t, good s → revert e s = .ok t → good t) :
    ∀ s, good s → (undo revert entries s).map view = undo revertView entries (view s) := by
  induction entries with
  | nil => intro s _; rfl
  | cons e entries ih =>
    intro s holds
    have newer := ih (fun e' mem => commutes e' (List.mem_cons_of_mem e mem))
      (fun e' mem => keeps e' (List.mem_cons_of_mem e mem)) s holds
    rw [undo_cons, undo_cons, ← newer]
    cases undone : undo revert entries s with
    | error _ => rfl
    | ok u =>
      -- The oldest entry is undone last, from a state that still has the property.
      have kept := undo_keeps revert good entries
        (fun e' mem => keeps e' (List.mem_cons_of_mem e mem)) s u holds undone
      exact commutes e List.mem_cons_self u kept

end Simulation

end Journal
