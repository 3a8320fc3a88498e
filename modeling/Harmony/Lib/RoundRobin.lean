import Mathlib

/-!
Dealing a list round `m` seats, as the loop `for i, x := range xs { seat[i % m] = append(seat[i %
m], x) }` does: seat `b` gets the elements at the positions `≡ b (mod m)`, in order. Every element
lands on a seat below `m`, and seats differ by at most one element, the earlier seats getting the
extra ones.
-/

namespace List

variable {α : Type}

/-- What a deal of `xs`, whose first element is number `k`, gives seat `b` of `m`. -/
def roundRobin (m : Nat) (xs : List α) (k b : Nat) : List α :=
  ((xs.zipIdx k).filter (fun p => p.2 % m == b)).map Prod.fst

@[simp] theorem roundRobin_nil (m k b : Nat) : roundRobin m ([] : List α) k b = [] := rfl

/-- The first element goes to seat `k % m`, and the rest are dealt from `k + 1`. -/
theorem roundRobin_cons (m : Nat) (x : α) (xs : List α) (k b : Nat) :
    roundRobin m (x :: xs) k b = (if k % m = b then [x] else []) ++ roundRobin m xs (k + 1) b := by
  by_cases seat : k % m = b <;> simp [roundRobin, List.zipIdx_cons, seat]

/-- The last element of a deal from `0` goes to seat `length % m`. -/
theorem roundRobin_concat (m : Nat) (xs : List α) (x : α) (b : Nat) :
    roundRobin m (xs ++ [x]) 0 b =
      roundRobin m xs 0 b ++ (if xs.length % m = b then [x] else []) := by
  by_cases seat : xs.length % m = b <;>
    simp [roundRobin, List.zipIdx_append, List.filter_append, seat]

/-- Seat `b` of `m` gets one element per full round, and one more if the last round reaches it. -/
theorem length_roundRobin {m : Nat} (seated : 0 < m) (xs : List α) {b : Nat} (within : b < m) :
    (roundRobin m xs 0 b).length = xs.length / m + if b < xs.length % m then 1 else 0 := by
  induction xs using List.reverseRecOn with
  | nil => simp
  | append_singleton xs x ih =>
    rw [roundRobin_concat, List.length_append, ih, List.length_append, List.length_singleton]
    have below := Nat.mod_lt xs.length seated
    have split := Nat.div_add_mod xs.length m
    -- Element number `n` completes a round exactly when it goes to the last seat.
    by_cases wrap : xs.length % m + 1 = m
    · have next : (xs.length + 1) / m = xs.length / m + 1 ∧ (xs.length + 1) % m = 0 :=
        (Nat.div_mod_unique seated).mpr ⟨by rw [Nat.mul_add]; omega, seated⟩
      rw [next.1, next.2]
      split_ifs <;> simp only [List.length_singleton, List.length_nil] <;> omega
    · have next : (xs.length + 1) / m = xs.length / m ∧ (xs.length + 1) % m = xs.length % m + 1 :=
        (Nat.div_mod_unique seated).mpr ⟨by omega, by omega⟩
      rw [next.1, next.2]
      split_ifs <;> simp only [List.length_singleton, List.length_nil] <;> omega

/-- No seat gets more than one element more than another. -/
theorem length_roundRobin_le_succ {m : Nat} (seated : 0 < m) (xs : List α) {b b' : Nat}
    (within : b < m) (within' : b' < m) :
    (roundRobin m xs 0 b).length ≤ (roundRobin m xs 0 b').length + 1 := by
  rw [length_roundRobin seated xs within, length_roundRobin seated xs within']
  split_ifs <;> omega

/-- An earlier seat gets no fewer elements than a later one. -/
theorem length_roundRobin_antitone {m : Nat} (seated : 0 < m) (xs : List α) {b b' : Nat}
    (earlier : b ≤ b') (within' : b' < m) :
    (roundRobin m xs 0 b').length ≤ (roundRobin m xs 0 b).length := by
  rw [length_roundRobin seated xs (Nat.lt_of_le_of_lt earlier within'),
    length_roundRobin seated xs within']
  split_ifs <;> omega

end List
