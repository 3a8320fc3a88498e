import Mathlib

/-!
A list of containers and the elements they hold together, `L.flatMap nodes`. Replacing one
container changes the whole only as the replacement changes that container: what it gives up is
given up by the whole, and what it takes in is taken in by the whole. A loop that rewrites the
containers one index after another has, after `n` steps, the first `n` rewritten and the rest as
they were.
-/

namespace List

variable {α β γ δ : Type}

/--
Replacing container `i` by one that, together with `removed`, holds what it held and `extra`
leaves the whole, together with `removed`, holding what it held and `extra`.
-/
theorem flatMap_set_perm (nodes : β → List α) {L : List β} {i : Nat} {b : β} (b' : β)
    {removed extra : List α} (found : L[i]? = some b)
    (replaced : (nodes b' ++ removed).Perm (nodes b ++ extra)) :
    ((L.set i b').flatMap nodes ++ removed).Perm (L.flatMap nodes ++ extra) := by
  classical
  obtain ⟨within, rfl⟩ := getElem?_eq_some_iff.mp found
  -- Both lists are the containers before `i`, container `i`, and the containers after it.
  have split : L = L.take i ++ L[i] :: L.drop (i + 1) := by
    rw [← drop_eq_getElem_cons within, take_append_drop]
  rw [set_eq_take_append_cons_drop, if_pos within]
  conv => rhs; rw [split]
  simp only [flatMap_append, flatMap_cons, perm_iff_count, count_append] at replaced ⊢
  intro a
  have counted := replaced a
  omega

/-- Replacing a container by one with the same key keeps the list of keys. -/
theorem map_set_of_eq (f : β → γ) {L : List β} {i : Nat} {b : β} (b' : β) (found : L[i]? = some b)
    (same : f b' = f b) : (L.set i b').map f = L.map f := by
  obtain ⟨within, rfl⟩ := getElem?_eq_some_iff.mp found
  have within' : i < (L.map f).length := by rwa [length_map]
  rw [map_set, same, ← getElem_map f (h := within')]
  exact set_getElem_self within'

/-- Changing the container at an index the list holds is replacing it. -/
theorem modify_of_getElem? {L : List β} {i : Nat} {b : β} (g : β → β) (found : L[i]? = some b) :
    L.modify i g = L.set i (g b) := by
  rw [modify_eq_set_getElem?, found]
  rfl

/-- The first `n` elements mapped and the rest as they were, element by element. -/
theorem getElem?_map_take_append_drop (f : β → β) (L : List β) (n i : Nat) :
    ((L.take n).map f ++ L.drop n)[i]? = L[i]?.map fun b => if i < n then f b else b := by
  have prefixLength : ((L.take n).map f).length = min n L.length := by simp
  rw [getElem?_append, prefixLength]
  by_cases before : i < n
  · by_cases within : i < L.length
    · rw [if_pos (by omega)]
      simp [before, within]
    · -- Past the end on both sides.
      rw [if_neg (by omega), getElem?_eq_none (by simp; omega), getElem?_eq_none (by omega)]
      rfl
  · rw [if_neg (by omega), getElem?_drop]
    by_cases long : n ≤ L.length
    · rw [show n + (i - min n L.length) = i by omega]
      simp [before]
    · rw [getElem?_eq_none (by omega), getElem?_eq_none (by omega)]
      rfl

/-- Mapping element `n` too extends the mapped prefix by one. -/
theorem set_map_take_append_drop (f : β → β) {L : List β} {n : Nat} (within : n < L.length) :
    ((L.take n).map f ++ L.drop n).set n (f L[n]) = (L.take (n + 1)).map f ++ L.drop (n + 1) := by
  have prefixLength : ((L.take n).map f).length = n := by
    simp only [length_map, length_take]
    omega
  rw [drop_eq_getElem_cons within, set_append_right _ _ prefixLength.le, prefixLength, Nat.sub_self,
    set_cons_zero, take_add_one, getElem?_eq_getElem within, Option.toList_some, map_append,
    map_singleton, append_assoc, singleton_append]

/-- A list got by changing each element, keeping what `p` reads of it, still reads the same. -/
theorem map_eq_map_of_getElem? {L L' : List β} {f : Nat → β → β}
    (pointwise : ∀ i, L'[i]? = L[i]?.map (f i)) (p : β → γ) (kept : ∀ i b, p (f i b) = p b) :
    L'.map p = L.map p := by
  apply ext_getElem?
  intro i
  rw [getElem?_map, getElem?_map, pointwise]
  cases L[i]? <;> simp [kept]

/-- Lists with the same image have the same length. -/
theorem length_eq_of_map_eq {f : β → γ} {g : δ → γ} {L : List β} {L' : List δ}
    (same : L.map f = L'.map g) : L.length = L'.length := by
  simpa using congrArg length same

end List
