import Mathlib

/-!
Go's `math/rand` global source as shuffling uses it: `Seed` sets its state, and each `Shuffle`
reorders a slice by a permutation of its indices and advances the state.

The generator itself is left abstract: a `Rand` carries the fact that every shuffle it makes is a
permutation, which is all that the swaps of `rand.Shuffle` guarantee.
-/

namespace Go

/-- A seeded source of shuffles with state `σ`. -/
structure Rand (σ : Type) where
  /-- The state `rand.Seed` sets. -/
  Seed : UInt64 → σ
  /-- The order `rand.Shuffle(n, swap)` leaves indices `0 … n-1` in, and the next state. -/
  Shuffle : σ → Nat → List Nat × σ
  /-- The swaps of a shuffle only reorder the indices. -/
  shuffle_perm : ∀ s n, (Shuffle s n).1.Perm (List.range n)

namespace Rand

variable {α σ : Type}

/-- The list read in a given order of its indices. -/
def permute (l : List α) (order : List Nat) : List α := order.filterMap (l[·]?)

/-- Reading a list in the order of its indices gives the list back. -/
theorem permute_range (l : List α) : permute l (List.range l.length) = l := by
  unfold permute
  induction l using List.reverseRecOn with
  | nil => rfl
  | append_singleton xs x ih =>
    rw [List.length_append, List.length_singleton, List.range_succ, List.filterMap_append]
    -- The indices below the last read the front of the list, which the induction gives back.
    have front : (List.range xs.length).filterMap (fun i => (xs ++ [x])[i]?) =
        (List.range xs.length).filterMap (xs[·]?) := by
      apply List.filterMap_congr
      intro i member
      rw [List.getElem?_append_left (List.mem_range.mp member)]
    rw [front, ih]
    simp

/-- Reading a list in any permutation of its indices is a permutation of it. -/
theorem permute_perm (l : List α) {order : List Nat} (reordered : order.Perm (List.range l.length)) :
    (permute l order).Perm l := by
  have read := reordered.filterMap (l[·]?)
  rw [← permute, ← permute, permute_range] at read
  exact read

/-- A shuffle of two indices keeps them or swaps them. -/
theorem Shuffle_two (R : Rand σ) (s : σ) : (R.Shuffle s 2).1 = [0, 1] ∨ (R.Shuffle s 2).1 = [1, 0] := by
  have drawn := R.shuffle_perm s 2
  match order : (R.Shuffle s 2).1, drawn.length_eq with
  | [i, j], _ =>
    rw [order] at drawn
    have hi : i < 2 := List.mem_range.mp (drawn.subset (by simp))
    have hj : j < 2 := List.mem_range.mp (drawn.subset (by simp))
    have distinct : i ≠ j := by simpa using drawn.nodup_iff.mpr List.nodup_range
    -- Two distinct indices below two are zero and one, in some order.
    have : (i = 0 ∧ j = 1) ∨ (i = 1 ∧ j = 0) := by omega
    rcases this with ⟨rfl, rfl⟩ | ⟨rfl, rfl⟩ <;> simp

/-- A shuffle of a list is a permutation of it. -/
theorem permute_shuffle_perm (R : Rand σ) (s : σ) (l : List α) :
    (permute l (R.Shuffle s l.length).1).Perm l :=
  permute_perm l (R.shuffle_perm s l.length)

end Rand

end Go
