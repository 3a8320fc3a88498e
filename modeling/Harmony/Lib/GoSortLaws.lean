import Harmony.Lib.GoSort
import Harmony.Lib.GoHeapLaws

/-!
The order laws of Go 1.12's `sort.Slice`: for a `Less` that is a strict weak order, the sort
permutes the slice and leaves it in order, no element less than one before it.

Every part of the sort only exchanges positions of the segment it is given (`Within`), so what
holds of every element of a segment (`Holds`) and the order of a segment it does not touch
(`Sorted`) survive it. The partition is proved as Go's comments state its invariants: one
structure per loop, a lemma for one iteration and one for the exit. The heapsort is the heap of
`container/heap` for the reversed order, on the slice from `first`.
-/

namespace Go.Sorting

open Go.Heap

variable {α : Type} {less : α → α → Bool}

/-! ## Reordering a segment -/

/-- `ys` is `xs` with only the positions in `[a, b)` exchanged among themselves. -/
structure Within (a b : Nat) (xs ys : List α) : Prop where
  perm : ys.Perm xs
  outside : ∀ k, (k < a ∨ b ≤ k) → ys[k]? = xs[k]?

namespace Within

variable {a b : Nat} {xs ys zs : List α}

theorem refl (a b : Nat) (xs : List α) : Within a b xs xs := ⟨List.Perm.refl xs, fun _ _ => rfl⟩

theorem trans (first : Within a b xs ys) (second : Within a b ys zs) : Within a b xs zs :=
  ⟨second.perm.trans first.perm, fun k off => (second.outside k off).trans (first.outside k off)⟩

theorem widen (inner : Within a b xs ys) {a' b' : Nat} (low : a' ≤ a) (high : b ≤ b') :
    Within a' b' xs ys :=
  ⟨inner.perm, fun k off => inner.outside k (by omega)⟩

theorem length_eq (moved : Within a b xs ys) : ys.length = xs.length := moved.perm.length_eq

/-- An exchange of two positions of the segment. -/
theorem swap {i j : Nat} (hi : a ≤ i ∧ i < b) (hj : a ≤ j ∧ j < b) : Within a b xs (swap xs i j) :=
  ⟨swap_perm xs i j, fun _ off => getElem?_swap_of_ne (by omega) (by omega)⟩

/-- The segment itself is permuted. -/
theorem segment_perm (moved : Within a b xs ys) :
    ((ys.take b).drop a).Perm ((xs.take b).drop a) := by
  by_cases ordered : a ≤ b
  · -- Around the segment the two lists agree, so the permutation is of the segment.
    have front : ys.take a = xs.take a := List.ext_getElem? fun k => by
      simp only [List.getElem?_take]
      split
      · exact moved.outside k (.inl ‹_›)
      · rfl
    have back : ys.drop b = xs.drop b := List.ext_getElem? fun k => by
      simp only [List.getElem?_drop]
      exact moved.outside (b + k) (.inr (by omega))
    have split_list (zs : List α) : zs = zs.take a ++ (zs.take b).drop a ++ zs.drop b := by
      conv_lhs => rw [← List.take_append_drop b zs, ← List.take_append_drop a (zs.take b)]
      rw [List.take_take, Nat.min_eq_left ordered]
    have whole := moved.perm
    rw [split_list ys, split_list xs, front, back] at whole
    exact (List.perm_append_left_iff _).mp ((List.perm_append_right_iff _).mp whole)
  · rw [List.drop_eq_nil_of_le (by simp; omega), List.drop_eq_nil_of_le (by simp; omega)]

end Within

/-! ## What holds on a segment -/

/-- Every element at a position in `[a, b)` satisfies `P`. -/
def Holds (P : α → Prop) (a b : Nat) (xs : List α) : Prop :=
  ∀ k x, a ≤ k → k < b → xs[k]? = some x → P x

namespace Holds

variable {P Q : α → Prop} {a b : Nat} {xs ys : List α}

theorem empty (P : α → Prop) {a b : Nat} (xs : List α) (none : b ≤ a) : Holds P a b xs :=
  fun _ _ low high _ => absurd low (by omega)

theorem imp (holds : Holds P a b xs) (implies : ∀ x, P x → Q x) : Holds Q a b xs :=
  fun k x low high found => implies x (holds k x low high found)

theorem mono (holds : Holds P a b xs) {a' b' : Nat} (low : a ≤ a') (high : b' ≤ b) :
    Holds P a' b' xs :=
  fun k x low' high' found => holds k x (by omega) (by omega) found

theorem union {c : Nat} (first : Holds P a b xs) (second : Holds P b c xs) : Holds P a c xs :=
  fun k x low high found => if h : k < b then first k x low h found
    else second k x (by omega) high found

/-- One position. -/
theorem single {k : Nat} (holds : ∀ x, xs[k]? = some x → P x) : Holds P k (k + 1) xs :=
  fun k' x low high found => holds x (by rwa [show k' = k by omega] at found)

theorem at_single {k : Nat} (holds : Holds P k (k + 1) xs) {x : α} (found : xs[k]? = some x) :
    P x :=
  holds k x le_rfl (by omega) found

/-- A segment on which the two lists agree. -/
theorem congr (holds : Holds P a b xs) (agree : ∀ k, a ≤ k → k < b → ys[k]? = xs[k]?) :
    Holds P a b ys :=
  fun k x low high found => holds k x low high (by rwa [agree k low high] at found)

end Holds

/-- A reordering of a segment keeps what holds on it: its elements are the same. -/
theorem Within.holds {P : α → Prop} {a b : Nat} {xs ys : List α} (moved : Within a b xs ys)
    (holds : Holds P a b xs) : Holds P a b ys := by
  intro k x low high found
  have inside : x ∈ (ys.take b).drop a := by
    rw [List.mem_iff_getElem?]
    exact ⟨k - a, by rw [List.getElem?_drop, List.getElem?_take, if_pos (by omega),
      Nat.add_sub_cancel' low]; exact found⟩
  obtain ⟨i, there⟩ := List.mem_iff_getElem?.mp (moved.segment_perm.mem_iff.mp inside)
  rw [List.getElem?_drop, List.getElem?_take] at there
  split at there
  · exact holds (a + i) x (by omega) ‹_› there
  · cases there

/-- A reordering of a segment keeps what holds outside it. -/
theorem Within.holds_outside {P : α → Prop} {a b c d : Nat} {xs ys : List α}
    (moved : Within a b xs ys) (holds : Holds P c d xs) (apart : d ≤ a ∨ b ≤ c) :
    Holds P c d ys :=
  holds.congr fun k low high => moved.outside k (by omega)

/-! ## Order -/

variable (less) in
/-- The positions `[a, b)` are in order: none is less than a position before it. -/
def Sorted (a b : Nat) (xs : List α) : Prop :=
  ∀ i j, a ≤ i → i < j → j < b → lessAt less xs j i = false

/-- A segment of at most one position is in order. -/
theorem sorted_of_le {a b : Nat} (xs : List α) (short : b ≤ a + 1) : Sorted less a b xs :=
  fun _ _ _ _ _ => absurd ‹_› (by omega)

/-- A reordering of a segment keeps the order of the positions it does not touch. -/
theorem Within.sorted_outside {a b c d : Nat} {xs ys : List α} (moved : Within a b xs ys)
    (sorted : Sorted less c d xs) (apart : d ≤ a ∨ b ≤ c) : Sorted less c d ys := by
  intro i j low before high
  simp only [lessAt, moved.outside i (by omega), moved.outside j (by omega)]
  exact sorted i j low before high

/-- A segment in order, read as a list. -/
theorem sorted_zero_length {xs : List α} (sorted : Sorted less 0 xs.length xs) :
    xs.Pairwise fun x y => less y x = false := by
  rw [List.pairwise_iff_getElem]
  intro i j hi hj before
  have := sorted i j (Nat.zero_le _) before hj
  rwa [lessAt_of_getElem? (List.getElem?_eq_getElem hj) (List.getElem?_eq_getElem hi)] at this

/-- A list in order is in order as a segment. -/
theorem sorted_of_pairwise {xs : List α} (sorted : xs.Pairwise fun x y => less y x = false) :
    Sorted less 0 xs.length xs := by
  intro i j _ before high
  rw [lessAt_of_getElem? (List.getElem?_eq_getElem high) (List.getElem?_eq_getElem (by omega))]
  exact List.pairwise_iff_getElem.mp sorted i j (by omega) high before

/-! ## Loops over ranges -/

/-- An invariant of a loop over `[s, s + n)` that each iteration carries from `i` to `i + 1`. -/
theorem foldl_range'_induction {β : Type} (f : β → Nat → β) (P : Nat → β → Prop) {s n : Nat}
    {x : β} (start : P s x) (step : ∀ i y, s ≤ i → i < s + n → P i y → P (i + 1) (f y i)) :
    P (s + n) ((List.range' s n).foldl f x) := by
  induction n generalizing s x with
  | zero => exact start
  | succ n ih =>
    rw [List.range'_succ, List.foldl_cons, show s + (n + 1) = s + 1 + n by omega]
    exact ih (step s x le_rfl (by omega) start) fun i y low high => step i y (by omega) (by omega)

/-- An invariant of a loop from `n - 1` down to `0` that each iteration carries from `i + 1` to `i`. -/
theorem foldl_range_reverse_induction {β : Type} (f : β → Nat → β) (P : Nat → β → Prop) {n : Nat}
    {x : β} (start : P n x) (step : ∀ i y, i < n → P (i + 1) y → P i (f y i)) :
    P 0 ((List.range n).reverse.foldl f x) := by
  induction n generalizing x with
  | zero => exact start
  | succ n ih =>
    rw [List.range_succ, List.reverse_append, List.reverse_singleton, List.singleton_append,
      List.foldl_cons]
    exact ih (step n x (by omega) start) fun i y below => step i y (by omega)

/-! ## Scans -/

/-- Where `for ; i < j && p(i); i++` stops: `p` held on `[i, r)`, and fails at `r` unless `r = j`. -/
structure StopsUp (p : Nat → Bool) (i j r : Nat) : Prop where
  low : i ≤ r
  high : r ≤ j
  passed : ∀ k, i ≤ k → k < r → p k = true
  stop : r = j ∨ p r = false

/-- Where `for ; i < j && p(j-1); j--` stops: `p` held on `[r, j)`, and fails at `r - 1` unless `r = i`. -/
structure StopsDown (p : Nat → Bool) (i j r : Nat) : Prop where
  low : i ≤ r
  high : r ≤ j
  passed : ∀ k, r ≤ k → k < j → p k = true
  stop : r = i ∨ p (r - 1) = false

theorem scanUp_stops (p : Nat → Bool) {j : Nat} :
    ∀ (fuel i : Nat), i ≤ j → j - i ≤ fuel → StopsUp p i j (scanUp p j fuel i) := by
  intro fuel
  induction fuel with
  | zero =>
    intro i le enough
    show StopsUp p i j i
    exact ⟨le_rfl, le, fun k low high => absurd high (by omega), .inl (by omega)⟩
  | succ fuel ih =>
    intro i le enough
    unfold scanUp
    by_cases go : i < j ∧ p i = true
    · rw [if_pos go]
      have rest := ih (i + 1) (by omega) (by omega)
      refine ⟨by have := rest.low; omega, rest.high, fun k low high => ?_, rest.stop⟩
      by_cases first : k = i
      · exact first ▸ go.2
      · exact rest.passed k (by omega) high
    · rw [if_neg go]
      refine ⟨le_rfl, le, fun k low high => absurd high (by omega), ?_⟩
      by_cases below : i < j
      · exact .inr (by simpa [below] using go)
      · exact .inl (by omega)

theorem scanDown_stops (p : Nat → Bool) {i : Nat} :
    ∀ (fuel j : Nat), i ≤ j → j - i ≤ fuel → StopsDown p i j (scanDown p i fuel j) := by
  intro fuel
  induction fuel with
  | zero =>
    intro j le enough
    show StopsDown p i j j
    exact ⟨le, le_rfl, fun k low high => absurd high (by omega), .inl (by omega)⟩
  | succ fuel ih =>
    intro j le enough
    unfold scanDown
    by_cases go : i < j ∧ p (j - 1) = true
    · rw [if_pos go]
      have rest := ih (j - 1) (by omega) (by omega)
      refine ⟨rest.low, by have := rest.high; omega, fun k low high => ?_, rest.stop⟩
      by_cases last : k = j - 1
      · exact last ▸ go.2
      · exact rest.passed k low (by omega)
    · rw [if_neg go]
      refine ⟨le, le_rfl, fun k low high => absurd high (by omega), ?_⟩
      by_cases below : i < j
      · exact .inr (by simpa [below] using go)
      · exact .inl (by omega)

/-! ## Insertion sort -/

section Insertion

variable {a : Nat}

theorem insertDown_within (k : Nat) (data : List α) :
    Within a (a + k + 1) data (insertDown less a k data) := by
  induction k generalizing data with
  | zero => exact .refl _ _ _
  | succ k ih =>
    unfold insertDown
    split
    · exact (Within.swap (by omega) (by omega)).trans ((ih _).widen le_rfl (by omega))
    · exact .refl _ _ _

variable (less) in
/--
The inner loop of `insertionSort` at `j`, inserting the element that was at `top`: the positions
below `j` and those above it are each in order, none above is less than one below, and the moving
element at `j` is less than every element above it.
-/
structure Inserting (a j top : Nat) (data : List α) : Prop where
  below : Sorted less a j data
  above : Sorted less (j + 1) (top + 1) data
  across : ∀ l m, a ≤ l → l < j → j < m → m ≤ top → lessAt less data m l = false
  moving : ∀ m, j < m → m ≤ top → lessAt less data j m = true

/-- One exchange moves the element one position down. -/
theorem Inserting.swap {j top : Nat} {data : List α} (inserting : Inserting less a (j + 1) top data)
    (bound : top < data.length) (low : a ≤ j) (within : j + 1 ≤ top)
    (lt : lessAt less data (j + 1) j = true) :
    Inserting less a j top (swap data (j + 1) j) := by
  have hj : j < data.length := by omega
  have hj' : j + 1 < data.length := by omega
  -- Only `j` and `j + 1` change: they exchange their elements.
  have read (u v : Nat) : lessAt less (Go.Heap.swap data (j + 1) j) u v =
      lessAt less data (swapped (j + 1) j u) (swapped (j + 1) j v) := lessAt_swap hj' hj u v
  have apart : j + 1 ≠ j := by omega
  constructor
  · intro l m low' before high
    rw [read]
    simp only [swapped, show l ≠ j by omega, show m ≠ j by omega, show l ≠ j + 1 by omega,
      show m ≠ j + 1 by omega, if_false]
    exact inserting.below l m low' before (by omega)
  · intro l m low' before high
    rw [read]
    by_cases first : l = j + 1
    · subst first
      simp only [swapped, show m ≠ j by omega, show m ≠ j + 1 by omega, apart, if_false, if_true]
      exact inserting.across j m low (by omega) (by omega) (by omega)
    · simp only [swapped, show m ≠ j by omega, show m ≠ j + 1 by omega, show l ≠ j by omega,
        first, if_false]
      exact inserting.above l m (by omega) before high
  · intro l m low' before after high
    rw [read]
    simp only [swapped, show l ≠ j by omega, show l ≠ j + 1 by omega, if_false]
    by_cases first : m = j + 1
    · subst first
      simp only [if_true, apart, if_false]
      exact inserting.below l j low' (by omega) (by omega)
    · simp only [first, show m ≠ j by omega, if_false]
      exact inserting.across l m low' (by omega) (by omega) high
  · intro m after high
    rw [read]
    by_cases first : m = j + 1
    · subst first
      simp only [swapped, if_true, show j ≠ j + 1 by omega, apart, if_false]
      exact lt
    · simp only [swapped, if_true, first, show m ≠ j by omega, if_false]
      exact inserting.moving m (by omega) high

/-- Where the element stops, the positions up to `top` are in order. -/
theorem Inserting.finish (order : StrictWeak less) {j top : Nat} {data : List α}
    (inserting : Inserting less a j top data) (bound : top < data.length) (low : a ≤ j)
    (within : j ≤ top) (stop : j = a ∨ lessAt less data j (j - 1) = false) :
    Sorted less a (top + 1) data := by
  intro l m low' before high
  by_cases lower : m < j
  · exact inserting.below l m low' before lower
  by_cases upper : j < l
  · exact inserting.above l m upper before high
  by_cases here : m = j
  · -- The element is not less than the one before it, which is not less than any before that.
    subst here
    rcases stop with rfl | stop
    · omega
    by_cases next : l = m - 1
    · exact next ▸ stop
    · exact order.lessAt_negTrans (by omega) stop
        (inserting.below l (m - 1) low' (by omega) (by omega))
  by_cases there : l = j
  · subst there
    exact order.lessAt_asymm (inserting.moving m (by omega) (by omega))
  · exact inserting.across l m low' (by omega) (by omega) (by omega)

/-- Inserting the element at `a + k` into the order below it. -/
theorem insertDown_sorted (order : StrictWeak less) (k top : Nat) {data : List α}
    (bound : top < data.length) (within : a + k ≤ top) (inserting : Inserting less a (a + k) top data) :
    Sorted less a (top + 1) (insertDown less a k data) := by
  induction k generalizing data with
  | zero => exact inserting.finish order bound le_rfl within (.inl rfl)
  | succ k ih =>
    rw [show a + (k + 1) = a + k + 1 by omega] at inserting within
    unfold insertDown
    split
    · rename_i lt
      exact ih (by simpa using bound) (by omega) (inserting.swap bound (by omega) within lt)
    · rename_i stop
      exact inserting.finish order bound (by omega) within (.inr (by simpa using stop))

/-- Go's `insertionSort` puts `[a, b)` in order, reordering only that segment. -/
theorem insertionSort_spec (order : StrictWeak less) {data : List α} {b : Nat}
    (bound : b ≤ data.length) :
    Within a b data (insertionSort less data a b) ∧ Sorted less a b (insertionSort less data a b) := by
  by_cases short : b ≤ a + 1
  · have none : b - (a + 1) = 0 := by omega
    simp only [insertionSort, none, List.range'_zero, List.foldl_nil]
    exact ⟨.refl _ _ _, sorted_of_le _ short⟩
  -- After the iteration for `i`, the positions up to `i` are in order.
  have loop := foldl_range'_induction (fun data i => insertDown less a (i - a) data)
    (fun i data' => Within a b data data' ∧ Sorted less a i data') (s := a + 1) (n := b - (a + 1))
    (x := data) ⟨.refl _ _ _, sorted_of_le _ le_rfl⟩ fun i data' low high holds => by
      have length := holds.1.length_eq
      refine ⟨holds.1.trans ((insertDown_within (i - a) data').widen le_rfl (by omega)), ?_⟩
      apply insertDown_sorted order (i - a) i (by omega) (by omega)
      rw [show a + (i - a) = i by omega]
      exact ⟨holds.2, fun _ _ _ _ _ => absurd ‹_› (by omega),
        fun _ _ _ _ _ _ => absurd ‹_› (by omega), fun _ _ _ => absurd ‹_› (by omega)⟩
  rw [show a + 1 + (b - (a + 1)) = b by omega] at loop
  exact loop

end Insertion

variable (less) in
/-- The ShellSort pass of gap 6 only exchanges positions of `[a, b)`. -/
theorem shellPass_within {a b : Nat} (data : List α) :
    Within a b data ((List.range' (a + 6) (b - (a + 6))).foldl
      (fun data i => if lessAt less data i (i - 6) then swap data i (i - 6) else data) data) := by
  have loop := foldl_range'_induction
    (fun data i => if lessAt less data i (i - 6) then swap data i (i - 6) else data)
    (fun _ data' => Within a b data data') (s := a + 6) (n := b - (a + 6)) (x := data)
    (.refl _ _ _) fun i data' low high holds => by
      split
      · exact holds.trans (.swap (by omega) (by omega))
      · exact holds
  exact loop

/-- The end of `quickSort` puts `[a, b)` in order. -/
theorem shellInsertionSort_spec (order : StrictWeak less) {data : List α} {a b : Nat}
    (bound : b ≤ data.length) :
    Within a b data (shellInsertionSort less data a b) ∧
      Sorted less a b (shellInsertionSort less data a b) := by
  unfold shellInsertionSort
  split
  · have shell : Within a b data _ := shellPass_within less data
    have sorted := insertionSort_spec order (a := a) (b := b) (by rw [shell.length_eq]; exact bound)
    exact ⟨shell.trans sorted.1, sorted.2⟩
  · exact ⟨.refl _ _ _, sorted_of_le _ (by omega)⟩

/-! ## Median of three -/

/-- `medianOfThree` leaves `m1` not greater than `m2`, exchanging only the three positions. -/
theorem medianOfThree_ordered (order : StrictWeak less) {data : List α} {m1 m0 m2 : Nat}
    (d10 : m1 ≠ m0) (d21 : m2 ≠ m1) (d20 : m2 ≠ m0) (h0 : m0 < data.length)
    (h1 : m1 < data.length) (h2 : m2 < data.length) :
    lessAt less (medianOfThree less data m1 m0 m2) m2 m1 = false := by
  unfold medianOfThree
  -- After the first exchange `m0` is not greater than `m1`.
  set first := if lessAt less data m1 m0 then swap data m1 m0 else data with first_def
  have first_length : first.length = data.length := by rw [first_def]; split <;> simp
  have ordered : lessAt less first m1 m0 = false := by
    rw [first_def]
    split
    · rename_i lt
      rw [lessAt_swap h1 h0]
      simp only [swapped, if_true, d10, if_false]
      exact order.lessAt_asymm lt
    · rename_i stays
      simpa using stays
  dsimp only
  split
  · rename_i second
    split
    · -- Three exchanges: `m2` holds what `m1` held, `m1` what `m0` held.
      rw [lessAt_swap (by simpa [first_length] using h1) (by simpa [first_length] using h0),
        lessAt_swap (by simpa [first_length] using h2) (by simpa [first_length] using h1)]
      simp only [swapped, d21, d20, d10, Ne.symm d10, Ne.symm d20, if_true, if_false]
      exact ordered
    · rw [lessAt_swap (by simpa [first_length] using h2) (by simpa [first_length] using h1)]
      simp only [swapped, d21, if_true, if_false]
      exact order.lessAt_asymm second
  · rename_i stays
    simpa using stays

theorem medianOfThree_within {a b : Nat} (data : List α) {m1 m0 m2 : Nat}
    (h1 : a ≤ m1 ∧ m1 < b) (h0 : a ≤ m0 ∧ m0 < b) (h2 : a ≤ m2 ∧ m2 < b) :
    Within a b data (medianOfThree less data m1 m0 m2) := by
  unfold medianOfThree
  have first : Within a b data (if lessAt less data m1 m0 then swap data m1 m0 else data) := by
    split
    · exact .swap h1 h0
    · exact .refl _ _ _
  generalize (if lessAt less data m1 m0 then swap data m1 m0 else data) = data' at first
  dsimp only
  split
  · split
    · exact first.trans ((Within.swap h2 h1).trans (.swap h1 h0))
    · exact first.trans (.swap h2 h1)
  · exact first

/-! ## Heapsort -/

section Heap

variable (less) in
/-- The reversed order: `heapSort` keeps the greatest element at the top of its heap. -/
def greater (x y : α) : Bool := less y x

theorem strictWeak_greater (order : StrictWeak less) : StrictWeak (greater less) :=
  ⟨fun a b lt => order.asymm b a lt, fun a b c first second => order.negTrans c b a second first⟩

theorem lessAt_greater (h : List α) (i j : Nat) : lessAt (greater less) h i j = lessAt less h j i := by
  unfold lessAt greater
  cases h[i]? <;> cases h[j]? <;> rfl

/-- `Less` reads only the elements at the two positions. -/
theorem lessAt_congr {h h' : List α} {i j i' j' : Nat} (hi : h[i]? = h'[i']?) (hj : h[j]? = h'[j']?) :
    lessAt less h i j = lessAt less h' i' j' := by
  simp only [lessAt, hi, hj]

/-- The slice from `first`, read by `Less` at offset positions. -/
theorem lessAt_drop (data : List α) (first i j : Nat) :
    lessAt less data (first + i) (first + j) = lessAt less (data.drop first) i j := by
  simp only [lessAt, List.getElem?_drop]

/-- An exchange of offset positions exchanges positions of the slice from `first`. -/
theorem swap_drop {data : List α} {first : Nat} (within : first ≤ data.length) (i j : Nat) :
    swap data (first + i) (first + j) = data.take first ++ swap (data.drop first) i j := by
  have taken : (data.take first).length = first := by simp [within]
  conv_lhs => rw [← List.take_append_drop first data]
  unfold swap
  simp only [List.getElem?_append_right (by omega : (data.take first).length ≤ first + i),
    List.getElem?_append_right (by omega : (data.take first).length ≤ first + j), taken,
    Nat.add_sub_cancel_left]
  split
  · rw [List.set_append_right _ _ (by omega), List.set_append_right _ _ (by simp [within])]
    simp [taken]
  · rfl

/-- `siftDown` on the heap at `first` is `container/heap`'s `down` for the reversed order. -/
theorem siftDownLoop_eq (hi first : Nat) {data : List α} (within : first ≤ data.length)
    (fuel root : Nat) :
    siftDownLoop less hi first fuel data root =
      data.take first ++ downLoop (greater less) hi fuel (data.drop first) root := by
  induction fuel generalizing data root with
  | zero => simp [siftDownLoop, downLoop]
  | succ fuel ih =>
    simp only [siftDownLoop, downLoop, lessAt_drop, lessAt_greater]
    split_ifs
    all_goals first
      | rw [List.take_append_drop]
      | rw [ih (by simpa using within), swap_drop within, List.take_left' (by simp [within]),
          List.drop_left' (by simp [within])]

/-- A loop that changes only the slice from `first` is the same loop on that slice. -/
theorem foldl_offset {β : Type} (F : List α → β → List α) (G : List α → β → List α) (first : Nat)
    (offset : ∀ data x, first ≤ data.length → F data x = data.take first ++ G (data.drop first) x)
    (steps : List β) (data : List α) (within : first ≤ data.length) :
    steps.foldl F data = data.take first ++ steps.foldl G (data.drop first) := by
  induction steps generalizing data with
  | nil => simp
  | cons x rest ih =>
    have taken : (data.take first).length = first := by simp [within]
    rw [List.foldl_cons, List.foldl_cons, ih (F data x) (by rw [offset data x within]; simp; omega),
      offset data x within, List.take_left' taken, List.drop_left' taken]

/-- A reordering of the slice from `a` reorders the same positions of the whole list. -/
theorem within_offset {data g : List α} {a n : Nat} (within : a ≤ data.length)
    (moved : Within 0 n (data.drop a) g) : Within a (a + n) data (data.take a ++ g) := by
  have taken : (data.take a).length = a := by simp [within]
  refine ⟨?_, fun k off => ?_⟩
  · calc (data.take a ++ g).Perm (data.take a ++ data.drop a) := moved.perm.append_left _
      _ = data := List.take_append_drop a data
  · rcases off with before | after
    · rw [List.getElem?_append_left (by omega), List.getElem?_take, if_pos before]
    · rw [List.getElem?_append_right (by omega), taken, moved.outside _ (.inr (by omega)),
        List.getElem?_drop, Nat.add_sub_cancel' (by omega)]

/-- The order of the slice from `a` is the order of the same positions of the whole list. -/
theorem sorted_offset {data g : List α} {a n : Nat} (within : a ≤ data.length)
    (sorted : Sorted less 0 n g) : Sorted less a (a + n) (data.take a ++ g) := by
  have taken : (data.take a).length = a := by simp [within]
  intro i j low before high
  have shifted : lessAt less (data.take a ++ g) j i = lessAt less g (j - a) (i - a) :=
    lessAt_congr (by rw [List.getElem?_append_right (by omega), taken])
      (by rw [List.getElem?_append_right (by omega), taken])
  rw [shifted]
  exact sorted (i - a) (j - a) (Nat.zero_le _) (by omega) (by omega)

/-- A sift of the first `n` positions reorders only them. -/
theorem downLoop_within (order' : α → α → Bool) (n fuel : Nat) (h : List α) (i : Nat) :
    Within 0 n h (downLoop order' n fuel h i) := by
  rw [downLoop_eq]
  exact ⟨downLoopAt_perm _ _ _, fun k off => downLoopAt_getElem?_of_le _ _ _ (by omega)⟩

/-- The first loop of `heapSort`: sifting every node from `(hi - 1) / 2` down builds a heap. -/
theorem heapBuild_spec (order : StrictWeak less) {hi : Nat} {g : List α} (bound : hi ≤ g.length) :
    Within 0 hi g ((List.range ((hi - 1) / 2 + 1)).reverse.foldl
        (fun g i => downLoop (greater less) hi hi g i) g) ∧
      Ordered (greater less) hi ((List.range ((hi - 1) / 2 + 1)).reverse.foldl
        (fun g i => downLoop (greater less) hi hi g i) g) := by
  -- No node past `(hi - 1) / 2` has a child: the leaves are heaps.
  have leaves : OrderedFrom (greater less) ((hi - 1) / 2 + 1) hi g := by
    intro c positive below within
    unfold parent at within
    omega
  apply foldl_range_reverse_induction _
    (fun i g' => Within 0 hi g g' ∧ OrderedFrom (greater less) i hi g') ⟨.refl _ _ _, leaves⟩
  intro i g' _ ⟨moved, heap⟩
  -- Node `i` sifts down over subtrees that are already heaps.
  have sifting : DownOrder (greater less) i hi g' i :=
    ⟨le_rfl, fun c positive below within off => heap c positive below (by omega),
      fun none => absurd none (by omega)⟩
  refine ⟨moved.trans (downLoop_within _ hi hi g' i), ?_⟩
  rw [downLoop_eq]
  exact downLoopAt_ordered (strictWeak_greater order) hi (by rw [moved.length_eq]; exact bound) (by omega) sifting

variable (less) in
/--
The second loop of `heapSort` with `k` elements left in the heap: they are a heap for the reversed
order, the positions from `k` to `hi` hold the greatest elements in order, and none of these is
less than an element of the heap.
-/
structure Popping (hi k : Nat) (g : List α) : Prop where
  heap : Ordered (greater less) k g
  sorted : Sorted less k hi g
  across : ∀ j l, j < k → k ≤ l → l < hi → lessAt less g l j = false

/-- One iteration moves the top of the heap, its greatest element, to the end of the heap. -/
theorem Popping.pop (order : StrictWeak less) {hi i : Nat} {g : List α} (bound : hi ≤ g.length)
    (within : i < hi) (popping : Popping less hi (i + 1) g) :
    Within 0 (i + 1) g (downLoop (greater less) i i (swap g 0 i) 0) ∧
      Popping less hi i (downLoop (greater less) i i (swap g 0 i) 0) := by
  have h0 : 0 < g.length := by omega
  have hi' : i < g.length := by omega
  set popped := downLoop (greater less) i i (swap g 0 i) 0 with popped_def
  have moved : Within 0 (i + 1) g popped :=
    (Within.swap (by omega) (by omega)).trans ((downLoop_within _ i i _ 0).widen le_rfl (by omega))
  -- The sift stops below `i`, where the old top now waits.
  have kept (k : Nat) (later : i ≤ k) : popped[k]? = (swap g 0 i)[k]? := by
    rw [popped_def, downLoop_eq]
    exact downLoopAt_getElem?_of_le _ _ _ later
  have top (k : Nat) (later : i ≤ k) : popped[k]? = g[if k = i then 0 else k]? := by
    rw [kept k later, getElem?_swap h0 hi']
    simp only [swapped]
    split_ifs <;> first | rfl | omega
  -- The top is not less than anything in the heap, and nothing after the heap is less than it.
  have greatest := popping.heap.root_least (strictWeak_greater order) (by omega)
  have summit : Holds (fun x => ∀ y, g[0]? = some y → less y x = false ∧
      ∀ l z, i + 1 ≤ l → l < hi → g[l]? = some z → less z x = false) 0 (i + 1) g := by
    intro k x _ below found y root
    refine ⟨?_, fun l z low high at_l => ?_⟩
    · have := greatest k below
      rwa [lessAt_greater, lessAt_of_getElem? root found] at this
    · have := popping.across k l below low high
      rwa [lessAt_of_getElem? at_l found] at this
  have sifting : DownOrder (greater less) 0 i (swap g 0 i) 0 := by
    refine ⟨le_rfl, ?_, fun none => absurd none (by omega)⟩
    intro c positive below _ off
    have above := parent_lt positive
    rw [lessAt_swap h0 hi']
    simp only [swapped, show c ≠ i by omega, show c ≠ 0 by omega, off,
      show parent c ≠ i by omega, if_false]
    exact popping.heap c positive (by omega) (Nat.zero_le _)
  refine ⟨moved, ⟨?_, ?_, ?_⟩⟩
  · rw [popped_def, downLoop_eq]
    exact downLoopAt_ordered (strictWeak_greater order) i (by simp; omega) (by omega) sifting
  · -- From `i` on nothing moved but the old top, which is not less than anything before it.
    intro j l low before high
    rw [lessAt_congr (top l (by omega)) (top j low), if_neg (by omega)]
    by_cases first : j = i
    · rw [if_pos first]
      exact popping.across 0 l (by omega) (by omega) high
    · rw [if_neg first]
      exact popping.sorted j l (by omega) before high
  · -- Below `i` the heap holds what it held, without its top.
    intro j l below low high
    have hj : j < popped.length := by rw [moved.length_eq]; omega
    obtain ⟨y, root⟩ : ∃ y, g[0]? = some y := ⟨_, List.getElem?_eq_getElem h0⟩
    obtain ⟨notTop, notAfter⟩ := moved.holds summit j _ (Nat.zero_le _) (by omega)
      (List.getElem?_eq_getElem hj) y root
    by_cases first : l = i
    · rw [lessAt_of_getElem? (by rw [top l low, if_pos first]; exact root)
        (List.getElem?_eq_getElem hj)]
      exact notTop
    · obtain ⟨z, at_l⟩ : ∃ z, g[l]? = some z := ⟨_, List.getElem?_eq_getElem (by omega)⟩
      rw [lessAt_of_getElem? (by rw [top l low, if_neg first]; exact at_l)
        (List.getElem?_eq_getElem hj)]
      exact notAfter l z (by omega) high at_l

/-- Go's `heapSort` puts `[a, b)` in order, reordering only that segment. -/
theorem heapSort_spec (order : StrictWeak less) {data : List α} {a b : Nat} (ordered : a ≤ b)
    (bound : b ≤ data.length) :
    Within a b data (heapSort less data a b) ∧ Sorted less a b (heapSort less data a b) := by
  have within : a ≤ data.length := by omega
  -- Both loops only touch the slice from `a`, on which they are `container/heap`'s sifts.
  have build := foldl_offset (fun data i => siftDown less data i (b - a) a)
    (fun g i => downLoop (greater less) (b - a) (b - a) g i) a
    (fun data i inside => siftDownLoop_eq (b - a) a inside (b - a) i)
    (List.range ((b - a - 1) / 2 + 1)).reverse data within
  have pop := foldl_offset (fun data i => siftDown less (swap data a (a + i)) 0 i a)
    (fun g i => downLoop (greater less) i i (swap g 0 i) 0) a
    (fun data i inside => by
      have exchanged := swap_drop inside 0 i
      rw [Nat.add_zero] at exchanged
      have taken : (data.take a).length = a := by simp [inside]
      rw [siftDown, siftDownLoop_eq i a (by simp; omega), exchanged, List.take_left' taken,
        List.drop_left' taken])
    (List.range (b - a)).reverse
    ((List.range ((b - a - 1) / 2 + 1)).reverse.foldl (fun data i => siftDown less data i (b - a) a)
      data) (by rw [build]; simp; omega)
  have taken : (data.take a).length = a := by simp [within]
  have shape : heapSort less data a b = data.take a ++
      (List.range (b - a)).reverse.foldl (fun g i => downLoop (greater less) i i (swap g 0 i) 0)
        ((List.range ((b - a - 1) / 2 + 1)).reverse.foldl
          (fun g i => downLoop (greater less) (b - a) (b - a) g i) (data.drop a)) := by
    unfold heapSort
    dsimp only
    rw [pop, build, List.take_left' taken, List.drop_left' taken]
  -- On the slice: a heap is built, then popped into order from the end.
  have slice : (data.drop a).length ≥ b - a := by simp; omega
  obtain ⟨built, heap⟩ := heapBuild_spec order slice
  have popping := foldl_range_reverse_induction
    (fun g i => downLoop (greater less) i i (swap g 0 i) 0)
    (fun k g => Within 0 (b - a) (data.drop a) g ∧ Popping less (b - a) k g)
    ⟨built, heap, sorted_of_le _ (by omega), fun _ _ _ _ _ => absurd ‹_› (by omega)⟩
    fun i g below ⟨moved, holds⟩ => by
      have step := holds.pop order (by rw [moved.length_eq]; exact slice) below
      exact ⟨moved.trans (step.1.widen le_rfl (by omega)), step.2⟩
  rw [shape]
  have whole := within_offset within popping.1
  have sorted : Sorted less a (a + (b - a)) (data.take a ++ _) := sorted_offset within popping.2.sorted
  rw [show a + (b - a) = b by omega] at whole sorted
  exact ⟨whole, sorted⟩

end Heap

/-! ## The partition -/

section Partition

/-- An exchanged position reads the other one. -/
theorem swap_getElem?_left {h : List α} {i j : Nat} (hi : i < h.length) (hj : j < h.length) :
    (swap h i j)[i]? = h[j]? := by
  rw [getElem?_swap hi hj]
  unfold swapped
  split_ifs <;> simp_all

theorem swap_getElem?_right {h : List α} {i j : Nat} (hi : i < h.length) (hj : j < h.length) :
    (swap h i j)[j]? = h[i]? := by
  rw [getElem?_swap hi hj]
  simp [swapped]

/-- A segment an exchange does not reach. -/
theorem Holds.swap_apart {P : α → Prop} {a b i j : Nat} {h : List α} (holds : Holds P a b h)
    (hi : i < a ∨ b ≤ i) (hj : j < a ∨ b ≤ j) : Holds P a b (swap h i j) :=
  holds.congr fun _ _ _ => getElem?_swap_of_ne (by omega) (by omega)

/-- The position an exchange writes into holds what the other position held. -/
theorem Holds.swap_into {P : α → Prop} {i j : Nat} {h : List α} (hi : i < h.length)
    (hj : j < h.length) (holds : Holds P j (j + 1) h) : Holds P i (i + 1) (swap h i j) :=
  .single fun x found => holds.at_single (by rwa [swap_getElem?_left hi hj] at found)

theorem Holds.swap_into_right {P : α → Prop} {i j : Nat} {h : List α} (hi : i < h.length)
    (hj : j < h.length) (holds : Holds P i (i + 1) h) : Holds P j (j + 1) (swap h i j) :=
  .single fun x found => holds.at_single (by rwa [swap_getElem?_right hi hj] at found)

variable {lo hi : Nat} {p : α}

/-- Reading the pivot's comparisons at positions as a property of the elements there. -/
theorem holds_of_lessAt_left {data : List α} (pivot : data[lo]? = some p) {a b : Nat} {v : Bool}
    (each : ∀ k, a ≤ k → k < b → lessAt less data lo k = v) : Holds (fun x => less p x = v) a b data :=
  fun k x low high found => by
    have := each k low high
    rwa [lessAt_of_getElem? pivot found] at this

theorem holds_of_lessAt_right {data : List α} (pivot : data[lo]? = some p) {a b : Nat} {v : Bool}
    (each : ∀ k, a ≤ k → k < b → lessAt less data k lo = v) : Holds (fun x => less x p = v) a b data :=
  fun k x low high found => by
    have := each k low high
    rwa [lessAt_of_getElem? found pivot] at this

theorem irrefl_of_strictWeak (order : StrictWeak less) (x : α) : less x x = false := by
  cases lt : less x x with
  | false => rfl
  | true => rw [← lt]; exact order.asymm x x lt

variable (less) in
/--
Go's invariants of `doPivot`'s main loop, with the pivot `p` at `lo`: the elements up to `a` are
less than it, those in `[a, b)` not greater, those in `[c, hi - 1)` greater, and the last one not
less, as the median of three left it.
-/
structure Scanning (lo hi : Nat) (p : α) (a b c : Nat) (data : List α) : Prop where
  bounds : lo < a ∧ a ≤ b ∧ b ≤ c ∧ c < hi
  pivot : data[lo]? = some p
  lower : Holds (fun x => less x p = true) (lo + 1) a data
  notAbove : Holds (fun x => less p x = false) a b data
  upper : Holds (fun x => less p x = true) c (hi - 1) data
  last : Holds (fun x => less x p = false) (hi - 1) hi data

/--
`doPivot`'s main loop keeps Go's invariants and stops with `b = c`; the gap `c - b` bounds the
iterations, as each exchange narrows it by two.
-/
theorem partitionLoop_spec {a : Nat} :
    ∀ (fuel : Nat) (data : List α) (b c : Nat), hi ≤ data.length → c - b ≤ fuel →
      Scanning less lo hi p a b c data →
      Within (lo + 1) (hi - 1) data (partitionLoop less lo fuel (data, b, c)).1 ∧
        Scanning less lo hi p a (partitionLoop less lo fuel (data, b, c)).2.1
          (partitionLoop less lo fuel (data, b, c)).2.2 (partitionLoop less lo fuel (data, b, c)).1 ∧
        (partitionLoop less lo fuel (data, b, c)).2.1 = (partitionLoop less lo fuel (data, b, c)).2.2 := by
  intro fuel
  induction fuel with
  | zero =>
    intro data b c _ enough scanning
    exact ⟨.refl _ _ _, scanning, by have := scanning.bounds; show b = c; omega⟩
  | succ fuel ih =>
    intro data b c bound enough scanning
    obtain ⟨⟨low, ab, bc, ch⟩, pivot, lower, notAbove, upper, last⟩ := scanning
    simp only [partitionLoop]
    -- `b` passes the elements not greater than the pivot, then `c` the greater ones from the top.
    have up := scanUp_stops (fun b => !lessAt less data lo b) (c - b) b bc le_rfl
    generalize scanUp (fun b => !lessAt less data lo b) c (c - b) b = b' at up ⊢
    have down := scanDown_stops (fun i => lessAt less data lo i) (c - b') c up.high le_rfl
    generalize scanDown (fun i => lessAt less data lo i) b' (c - b') c = c' at down ⊢
    have passed : Holds (fun x => less p x = false) a b' data :=
      notAbove.union (holds_of_lessAt_left pivot fun k low high => by
        simpa using up.passed k low high)
    have skipped : Holds (fun x => less p x = true) c' (hi - 1) data :=
      (holds_of_lessAt_left pivot fun k low high => down.passed k low high).union upper
    split
    · -- The scans met: the loop stops with `b = c`.
      dsimp only
      exact ⟨.refl _ _ _, ⟨⟨low, by have := up.low; omega, down.low, by
        have := down.high; omega⟩, pivot, lower, passed, by
          rwa [show c' = b' by have := down.low; omega] at skipped ⊢, last⟩, by
        have := down.low; omega⟩
    · rename_i apart
      have within := down.high
      have above := up.low
      -- `b` stopped at a greater element and `c` at one not greater: they are exchanged.
      have greaterAt : lessAt less data lo b' = true := by
        rcases up.stop with same | stop
        · have := down.high; omega
        · simpa using stop
      have notAboveAt : lessAt less data lo (c' - 1) = false := by
        rcases down.stop with same | stop
        · omega
        · exact stop
      have distinct : b' < c' - 1 := by
        by_contra close
        rw [show c' - 1 = b' by omega, greaterAt] at notAboveAt
        cases notAboveAt
      have hb : b' < data.length := by omega
      have hc : c' - 1 < data.length := by omega
      have moved : Within (lo + 1) (hi - 1) data (swap data b' (c' - 1)) :=
        .swap (by omega) (by omega)
      obtain ⟨moved', scanning', met⟩ := ih (swap data b' (c' - 1)) (b' + 1) (c' - 1)
        (by simpa using bound) (by omega)
        ⟨⟨low, by omega, by omega, by omega⟩,
          by rw [getElem?_swap_of_ne (by omega) (by omega)]; exact pivot,
          lower.swap_apart (by omega) (by omega),
          ((passed.mono le_rfl le_rfl).swap_apart (by omega) (by omega)).union
            (Holds.swap_into hb hc (holds_of_lessAt_left pivot fun k low high => by
              rw [show k = c' - 1 by omega]; exact notAboveAt)),
          (Holds.swap_into_right hb hc (holds_of_lessAt_left pivot fun k low high => by
              rw [show k = b' by omega]; exact greaterAt)).union
            ((skipped.mono (by omega) le_rfl).swap_apart (by omega) (by omega)),
          last.swap_apart (by omega) (by omega)⟩
      exact ⟨moved.trans moved', scanning', met⟩

variable (less) in
/--
The invariants after the main loop, with the block `[b, c)` of elements equal to the pivot that
the test for duplicates and the protecting loop gather: below `a` less than the pivot, `[a, b)` not
greater, `[c, hi)` not less.
-/
structure Gathered (lo hi : Nat) (p : α) (a b c : Nat) (data : List α) : Prop where
  bounds : lo < a ∧ a ≤ b ∧ b ≤ c ∧ c ≤ hi
  pivot : data[lo]? = some p
  lower : Holds (fun x => less x p = true) (lo + 1) a data
  notAbove : Holds (fun x => less p x = false) a b data
  equal : Holds (fun x => less x p = false ∧ less p x = false) b c data
  notBelow : Holds (fun x => less x p = false) c hi data

/-- Where the main loop stops, no element is gathered yet. -/
theorem Scanning.gathered (order : StrictWeak less) {a b : Nat} {data : List α}
    (scanning : Scanning less lo hi p a b b data) : Gathered less lo hi p a b b data :=
  ⟨⟨scanning.bounds.1, scanning.bounds.2.1, le_rfl, by have := scanning.bounds; omega⟩,
    scanning.pivot, scanning.lower, scanning.notAbove, .empty _ _ le_rfl,
    (scanning.upper.imp fun x greater => order.asymm p x greater).union scanning.last⟩

/-- An element not greater than the pivot and not less than it is equal to it. -/
theorem Holds.equal_of {a b : Nat} {data : List α}
    (notAbove : Holds (fun x => less p x = false) a b data)
    (notBelow : Holds (fun x => less x p = false) a b data) :
    Holds (fun x => less x p = false ∧ less p x = false) a b data :=
  fun k x low high found => ⟨notBelow k x low high found, notAbove k x low high found⟩

namespace Gathered

variable {a b c : Nat} {data : List α}

/-- An element below `[b, c)` that is not less than the pivot joins the block. -/
theorem extend_down (gathered : Gathered less lo hi p a b c data)
    (bound : hi ≤ data.length) (notLess : lessAt less data (b - 1) lo = false) (far : lo + 1 < b) :
    Gathered less lo hi p a (b - 1) c data := by
  obtain ⟨⟨low, ab, bc, ch⟩, pivot, lower, notAbove, equal, notBelow⟩ := gathered
  -- Below `a` every element is less than the pivot, so `b - 1` is not below `a`.
  have reached : a ≤ b - 1 := by
    by_contra short
    have := lower (b - 1) _ (by omega) (by omega) (List.getElem?_eq_getElem (by omega))
    rw [lessAt_of_getElem? (List.getElem?_eq_getElem (by omega)) pivot, this] at notLess
    cases notLess
  refine ⟨⟨low, reached, by omega, ch⟩, pivot, lower, notAbove.mono le_rfl (by omega), ?_, notBelow⟩
  refine Holds.union (Holds.equal_of (notAbove.mono (by omega) le_rfl) ?_) equal
  rw [show b = b - 1 + 1 by omega]
  exact holds_of_lessAt_right pivot fun k low high => by rw [show k = b - 1 by omega]; exact notLess

/-- The last element, when equal to the pivot, is exchanged into the block from above. -/
theorem extend_last (gathered : Gathered less lo hi p a b c data)
    (bound : hi ≤ data.length) (notAboveLast : lessAt less data lo (hi - 1) = false) (room : c < hi) :
    Gathered less lo hi p a b (c + 1) (swap data c (hi - 1)) := by
  obtain ⟨⟨low, ab, bc, ch⟩, pivot, lower, notAbove, equal, notBelow⟩ := gathered
  have hc : c < data.length := by omega
  have hl : hi - 1 < data.length := by omega
  have last : Holds (fun x => less x p = false ∧ less p x = false) (hi - 1) hi data :=
    Holds.equal_of (by
      rw [show hi = hi - 1 + 1 by omega]
      exact holds_of_lessAt_left pivot fun k low high => by
        rw [show k = hi - 1 by omega]; exact notAboveLast) (notBelow.mono (by omega) le_rfl)
  refine ⟨⟨low, ab, by omega, by omega⟩,
    by rw [getElem?_swap_of_ne (by omega) (by omega)]; exact pivot,
    lower.swap_apart (by omega) (by omega), notAbove.swap_apart (by omega) (by omega),
    (equal.swap_apart (by omega) (by omega)).union
      (Holds.swap_into hc hl (by rw [show hi - 1 + 1 = hi by omega]; exact last)), ?_⟩
  -- What was at `c` goes to the top, and the elements between stay.
  by_cases top : c + 1 = hi
  · exact .empty _ _ (by omega)
  · have moved := Holds.swap_into_right hc hl (notBelow.mono le_rfl (by omega))
    rw [show hi - 1 + 1 = hi by omega] at moved
    have between : Holds (fun x => less x p = false) (c + 1) (hi - 1) data :=
      notBelow.mono (by omega) (by omega)
    exact (between.swap_apart (by omega) (by omega)).union moved

/-- The middle element, when equal to the pivot, is exchanged into the block from below. -/
theorem extend_middle (gathered : Gathered less lo hi p a b c data)
    (bound : hi ≤ data.length) {m : Nat} (notLess : lessAt less data m lo = false)
    (inside : lo < m ∧ m < b) :
    Gathered less lo hi p a (b - 1) c (swap data m (b - 1)) := by
  obtain ⟨⟨low, ab, bc, ch⟩, pivot, lower, notAbove, equal, notBelow⟩ := gathered
  have hm : m < data.length := by omega
  have hb : b - 1 < data.length := by omega
  -- Below `a` every element is less than the pivot, so `m` is not below `a`.
  have reached : a ≤ m := by
    by_contra short
    have := lower m _ (by omega) (by omega) (List.getElem?_eq_getElem hm)
    rw [lessAt_of_getElem? (List.getElem?_eq_getElem hm) pivot, this] at notLess
    cases notLess
  have middle : Holds (fun x => less x p = false ∧ less p x = false) m (m + 1) data :=
    Holds.equal_of (notAbove.mono reached (by omega))
      (holds_of_lessAt_right pivot fun k low high => by rw [show k = m by omega]; exact notLess)
  refine ⟨⟨low, by omega, by omega, ch⟩,
    by rw [getElem?_swap_of_ne (by omega) (by omega)]; exact pivot,
    lower.swap_apart (by omega) (by omega), ?_, ?_, notBelow.swap_apart (by omega) (by omega)⟩
  · -- `m` takes what was at `b - 1`, not greater than the pivot.
    by_cases same : m = b - 1
    · subst same
      exact (notAbove.mono le_rfl (by omega)).congr fun k _ _ => getElem?_swap_of_ne (by omega) (by omega)
    · refine ((notAbove.mono le_rfl (by omega)).swap_apart (by omega) (by omega)).union
        ((Holds.swap_into hm hb (notAbove.mono (by omega) (by omega))).union ?_)
      exact (notAbove.mono (by omega) (by omega)).swap_apart (by omega) (by omega)
  · have moved := Holds.swap_into_right hm hb middle
    rw [show b - 1 + 1 = b by omega] at moved
    exact moved.union (equal.swap_apart (by omega) (by omega))

end Gathered

/--
The test for points equal to the pivot keeps the invariants. It runs only when fewer than a
quarter of the elements are greater than the pivot, so `b` is past the middle.
-/
theorem testDuplicates_spec {a b c : Nat} {data : List α}
    (gathered : Gathered less lo hi p a b c data) (bound : hi ≤ data.length) (room : c < hi)
    (far : (lo + hi) / 2 + 2 < b) :
    Within (lo + 1) hi data (testDuplicates less data lo ((lo + hi) / 2) b c hi).1 ∧
      Gathered less lo hi p a (testDuplicates less data lo ((lo + hi) / 2) b c hi).2.1
        (testDuplicates less data lo ((lo + hi) / 2) b c hi).2.2.1
        (testDuplicates less data lo ((lo + hi) / 2) b c hi).1 := by
  have bounds := gathered.bounds
  unfold testDuplicates
  -- The last element.
  obtain ⟨data₁, c₁, dups₁, first, moved₁, gathered₁⟩ : ∃ data₁ c₁ dups₁,
      (if !lessAt less data lo (hi - 1) then (swap data c (hi - 1), c + 1, 1) else (data, c, 0)) =
        (data₁, c₁, dups₁) ∧ Within (lo + 1) hi data data₁ ∧ Gathered less lo hi p a b c₁ data₁ := by
    split
    · rename_i equal
      exact ⟨_, _, _, rfl, .swap (by omega) (by omega),
        gathered.extend_last bound (by simpa using equal) room⟩
    · exact ⟨_, _, _, rfl, .refl _ _ _, gathered⟩
  have length₁ : hi ≤ data₁.length := by rw [moved₁.length_eq]; exact bound
  rw [first]
  dsimp only
  -- The element below `b`.
  obtain ⟨b₂, dups₂, second, gathered₂, below⟩ : ∃ b₂ dups₂,
      (if !lessAt less data₁ (b - 1) lo then (b - 1, dups₁ + 1) else (b, dups₁)) = (b₂, dups₂) ∧
        Gathered less lo hi p a b₂ c₁ data₁ ∧ b - 1 ≤ b₂ := by
    split
    · rename_i equal
      exact ⟨_, _, rfl, gathered₁.extend_down length₁ (by simpa using equal) (by omega), le_rfl⟩
    · exact ⟨_, _, rfl, gathered₁, by omega⟩
  rw [second]
  dsimp only
  -- The middle element.
  split
  · rename_i equal
    exact ⟨moved₁.trans (.swap (by omega) (by have := gathered₂.bounds; omega)),
      gathered₂.extend_middle length₁ (by simpa using equal) ⟨by omega, by omega⟩⟩
  · exact ⟨moved₁, gathered₂⟩

/--
The loop that protects against duplicates keeps the invariants and stops with `a = b`: then
everything below `b` is less than the pivot.
-/
theorem protectLoop_spec {c : Nat} :
    ∀ (fuel : Nat) (data : List α) (a b : Nat), hi ≤ data.length → b - a ≤ fuel →
      Gathered less lo hi p a b c data →
      Within (lo + 1) hi data (protectLoop less lo fuel (data, a, b)).1 ∧
        Gathered less lo hi p (protectLoop less lo fuel (data, a, b)).2.1
          (protectLoop less lo fuel (data, a, b)).2.2 c (protectLoop less lo fuel (data, a, b)).1 ∧
        (protectLoop less lo fuel (data, a, b)).2.1 = (protectLoop less lo fuel (data, a, b)).2.2 := by
  intro fuel
  induction fuel with
  | zero =>
    intro data a b _ enough gathered
    exact ⟨.refl _ _ _, gathered, by have := gathered.bounds; show a = b; omega⟩
  | succ fuel ih =>
    intro data a b bound enough gathered
    obtain ⟨⟨low, ab, bc, ch⟩, pivot, lower, notAbove, equal, notBelow⟩ := gathered
    simp only [protectLoop]
    -- `b` passes the elements equal to the pivot from the top, `a` the lesser ones from below.
    have down := scanDown_stops (fun i => !lessAt less data i lo) (b - a) b ab le_rfl
    generalize scanDown (fun i => !lessAt less data i lo) a (b - a) b = b' at down ⊢
    have up := scanUp_stops (fun i => lessAt less data i lo) (b' - a) a down.low le_rfl
    generalize scanUp (fun i => lessAt less data i lo) b' (b' - a) a = a' at up ⊢
    have within := up.high
    have above := down.high
    have lower' : Holds (fun x => less x p = true) (lo + 1) a' data :=
      lower.union (holds_of_lessAt_right pivot fun k low high => up.passed k low high)
    have equal' : Holds (fun x => less x p = false ∧ less p x = false) b' c data :=
      (Holds.equal_of (notAbove.mono down.low le_rfl) (holds_of_lessAt_right pivot fun k low high => by
        simpa using down.passed k low high)).union equal
    split
    · -- The scans met.
      dsimp only
      exact ⟨.refl _ _ _, ⟨⟨by have := up.low; omega, within, by omega, ch⟩, pivot, lower',
        .empty _ _ (by omega), by rwa [show b' = a' by omega] at equal' ⊢, notBelow⟩, by omega⟩
    · rename_i apart
      have low' := up.low
      -- `a` stopped at an element equal to the pivot and `b` above one less than it.
      have notLessAt : lessAt less data a' lo = false := by
        rcases up.stop with same | stop
        · omega
        · exact stop
      have lessAt_top : lessAt less data (b' - 1) lo = true := by
        rcases down.stop with same | stop
        · omega
        · simpa using stop
      have distinct : a' < b' - 1 := by
        by_contra close
        rw [show b' - 1 = a' by omega, notLessAt] at lessAt_top
        cases lessAt_top
      have ha : a' < data.length := by omega
      have hb : b' - 1 < data.length := by omega
      have equalAt : Holds (fun x => less x p = false ∧ less p x = false) a' (a' + 1) data :=
        Holds.equal_of (notAbove.mono (by omega) (by omega))
          (holds_of_lessAt_right pivot fun k low high => by rw [show k = a' by omega]; exact notLessAt)
      have moved : Within (lo + 1) hi data (swap data a' (b' - 1)) := .swap (by omega) (by omega)
      have top := Holds.swap_into_right ha hb equalAt
      rw [show b' - 1 + 1 = b' by omega] at top
      obtain ⟨moved', gathered', met⟩ := ih (swap data a' (b' - 1)) (a' + 1) (b' - 1)
        (by simpa using bound) (by omega)
        ⟨⟨by omega, by omega, by omega, ch⟩,
          by rw [getElem?_swap_of_ne (by omega) (by omega)]; exact pivot,
          (lower'.swap_apart (by omega) (by omega)).union
            (Holds.swap_into ha hb (holds_of_lessAt_right pivot fun k low high => by
              rw [show k = b' - 1 by omega]; exact lessAt_top)),
          (notAbove.mono (by omega) (by omega)).swap_apart (by omega) (by omega),
          top.union ((equal'.mono le_rfl le_rfl).swap_apart (by omega) (by omega)),
          notBelow.swap_apart (by omega) (by omega)⟩
      exact ⟨moved.trans moved', gathered', met⟩

variable (less) in
/--
What `doPivot` returns: `[lo, midlo)` not greater than the pivot, the block `[midlo, midhi)`
equal to it, and `[midhi, hi)` not less than it.
-/
structure Partitioned (lo midlo midhi hi : Nat) (p : α) (data : List α) : Prop where
  bounds : lo ≤ midlo ∧ midlo < midhi ∧ midhi ≤ hi
  low : Holds (fun x => less p x = false) lo midlo data
  mid : Holds (fun x => less x p = false ∧ less p x = false) midlo midhi data
  high : Holds (fun x => less x p = false) midhi hi data

/-- The pivot exchanged to the bottom of the block leaves the segment partitioned around it. -/
theorem Gathered.partitioned (order : StrictWeak less) {a b c : Nat} {data : List α}
    (gathered : Gathered less lo hi p a b c data) (bound : hi ≤ data.length) :
    Partitioned less lo (b - 1) c hi p (swap data lo (b - 1)) := by
  obtain ⟨⟨low, ab, bc, ch⟩, pivot, lower, notAbove, equal, notBelow⟩ := gathered
  have hl : lo < data.length := by omega
  have hb : b - 1 < data.length := by omega
  -- Everything strictly between the pivot and `b` is not greater than it.
  have notGreater : Holds (fun x => less p x = false) (lo + 1) b data :=
    (lower.imp fun x smaller => order.asymm x p smaller).union notAbove
  have self : Holds (fun x => less x p = false ∧ less p x = false) (b - 1) (b - 1 + 1)
      (swap data lo (b - 1)) :=
    .single fun x found => by
      rw [swap_getElem?_right hl hb, pivot, Option.some.injEq] at found
      subst found
      exact ⟨irrefl_of_strictWeak order p, irrefl_of_strictWeak order p⟩
  refine ⟨⟨by omega, by omega, ch⟩, ?_, ?_, notBelow.swap_apart (by omega) (by omega)⟩
  · by_cases bottom : b - 1 = lo
    · exact .empty _ _ (by omega)
    · exact (Holds.swap_into hl hb (notGreater.mono (by omega) (by omega))).union
        ((notGreater.mono (by omega) (by omega)).swap_apart (by omega) (by omega))
  · rw [show b - 1 + 1 = b by omega] at self
    exact self.union (equal.swap_apart (by omega) (by omega))

/-- Go's `doPivot` partitions `[lo, hi)` around a pivot, reordering only that segment. -/
theorem doPivot_spec (order : StrictWeak less) {data : List α} (wide : 12 < hi - lo)
    (bound : hi ≤ data.length) :
    ∃ p, Within lo hi data (doPivot less data lo hi).1 ∧
      Partitioned less lo (doPivot less data lo hi).2.1 (doPivot less data lo hi).2.2 hi p
        (doPivot less data lo hi).1 := by
  suffices ∀ d mlo mhi, doPivot less data lo hi = (d, mlo, mhi) →
      ∃ p, Within lo hi data d ∧ Partitioned less lo mlo mhi hi p d from this _ _ _ rfl
  intro d mlo mhi result
  unfold doPivot at result
  extract_lets m s first second ninther median pivot a at result
  have hm : m = (lo + hi) / 2 := rfl
  have hs : s = (hi - lo) / 8 := rfl
  have hp : lo = pivot := rfl
  clear_value pivot
  subst hp
  -- The medians only exchange positions of the segment, and leave the last not below the first.
  have ninthered : Within lo hi data ninther := by
    show Within lo hi data (if 40 < hi - lo then _ else data)
    split
    · exact ((medianOfThree_within data (by omega) (by omega) (by omega)).trans
        (medianOfThree_within _ (by omega) (by omega) (by omega))).trans
        (medianOfThree_within _ (by omega) (by omega) (by omega))
    · exact .refl _ _ _
  have medianed : Within lo hi ninther median := medianOfThree_within _ (by omega) (by omega) (by omega)
  have length₂ : median.length = data.length := medianed.length_eq.trans ninthered.length_eq
  have lastNotBelow : lessAt less median (hi - 1) lo = false :=
    medianOfThree_ordered order (by omega) (by omega) (by omega) (by rw [ninthered.length_eq]; omega)
      (by rw [ninthered.length_eq]; omega) (by rw [ninthered.length_eq]; omega)
  obtain ⟨p, pivot⟩ : ∃ p, median[lo]? = some p := ⟨_, List.getElem?_eq_getElem (by omega)⟩
  -- Go's invariants hold when the main loop starts.
  have skipped : StopsUp (fun a => lessAt less median a lo) (lo + 1) (hi - 1) a :=
    scanUp_stops _ _ _ (by omega) le_rfl
  have scanning : Scanning less lo hi p a a (hi - 1) median :=
    ⟨⟨by have := skipped.low; omega, le_rfl, skipped.high, by omega⟩, pivot,
      holds_of_lessAt_right pivot skipped.passed, .empty _ _ le_rfl, .empty _ _ le_rfl, by
        rw [show hi = hi - 1 + 1 by omega]
        exact holds_of_lessAt_right pivot fun k low high => by
          rw [show k = hi - 1 by omega]; exact lastNotBelow⟩
  obtain ⟨moved₃, scanning₃, met⟩ := partitionLoop_spec (hi - lo) median a (hi - 1) (by omega)
    (by have := skipped.low; omega) scanning
  generalize partitionLoop less lo (hi - lo) (median, a, hi - 1) = r at result moved₃ scanning₃ met
  obtain ⟨data₃, b₃, c₃⟩ := r
  dsimp only at result moved₃ scanning₃ met
  subst met
  have length₃ : data₃.length = data.length := moved₃.length_eq.trans length₂
  have bounds₃ := scanning₃.bounds
  -- The test for duplicates.
  obtain ⟨data₄, b₄, c₄, protect, tested, moved₄, gathered₄⟩ : ∃ data₄ b₄ c₄ protect,
      (if (!decide (hi - b₃ < 5) && decide (hi - b₃ < (hi - lo) / 4)) = true then
        testDuplicates less data₃ lo m b₃ b₃ hi else (data₃, b₃, b₃, decide (hi - b₃ < 5))) =
        (data₄, b₄, c₄, protect) ∧ Within (lo + 1) hi data₃ data₄ ∧
        Gathered less lo hi p a b₄ c₄ data₄ := by
    split
    · rename_i few
      simp only [Bool.and_eq_true, Bool.not_eq_true', decide_eq_false_iff_not, decide_eq_true_eq]
        at few
      exact ⟨_, _, _, _, rfl, testDuplicates_spec (scanning₃.gathered order) (by omega) (by omega)
        (by omega)⟩
    · exact ⟨_, _, _, _, rfl, .refl _ _ _, scanning₃.gathered order⟩
  rw [tested] at result
  dsimp only at result
  have length₄ : data₄.length = data.length := moved₄.length_eq.trans length₃
  -- The loop that protects against duplicates.
  obtain ⟨data₅, a₅, b₅, guarded, moved₅, gathered₅⟩ : ∃ data₅ a₅ b₅,
      (if protect = true then protectLoop less lo (hi - lo) (data₄, a, b₄) else (data₄, a, b₄)) =
        (data₅, a₅, b₅) ∧ Within (lo + 1) hi data₄ data₅ ∧ Gathered less lo hi p a₅ b₅ c₄ data₅ := by
    split
    · obtain ⟨moved, gathered, -⟩ := protectLoop_spec (hi - lo) data₄ a b₄ (by omega)
        (by have := gathered₄.bounds; omega) gathered₄
      exact ⟨_, _, _, rfl, moved, gathered⟩
    · exact ⟨_, _, _, rfl, .refl _ _ _, gathered₄⟩
  rw [guarded] at result
  dsimp only at result
  simp only [Prod.mk.injEq] at result
  obtain ⟨rfl, rfl, rfl⟩ := result
  have bounds₅ := gathered₅.bounds
  refine ⟨p, ?_, gathered₅.partitioned order (by rw [moved₅.length_eq]; omega)⟩
  -- The pivot goes to the bottom of the block.
  exact ((ninthered.trans medianed).trans ((moved₃.widen (by omega) (by omega)).trans
    ((moved₄.widen (by omega) le_rfl).trans (moved₅.widen (by omega) le_rfl)))).trans
    (.swap (by omega) (by omega))

end Partition

/-! ## Quicksort -/

section Quick

namespace Partitioned

variable {lo midlo midhi hi : Nat} {p : α} {data data' : List α}

/-- Sorting the lower side keeps the partition. -/
theorem within_low (parts : Partitioned less lo midlo midhi hi p data)
    (moved : Within lo midlo data data') : Partitioned less lo midlo midhi hi p data' :=
  ⟨parts.bounds, moved.holds parts.low, moved.holds_outside parts.mid (.inr le_rfl),
    moved.holds_outside parts.high (.inr parts.bounds.2.1.le)⟩

/-- Sorting the upper side keeps the partition. -/
theorem within_high (parts : Partitioned less lo midlo midhi hi p data)
    (moved : Within midhi hi data data') : Partitioned less lo midlo midhi hi p data' :=
  ⟨parts.bounds, moved.holds_outside parts.low (.inl parts.bounds.2.1.le),
    moved.holds_outside parts.mid (.inl le_rfl), moved.holds parts.high⟩

/-- Both sides in order make the whole segment ordered: nothing after the lower side is less. -/
theorem sorted (order : StrictWeak less) (parts : Partitioned less lo midlo midhi hi p data)
    (low : Sorted less lo midlo data) (high : Sorted less midhi hi data) :
    Sorted less lo hi data := by
  obtain ⟨⟨_, _, _⟩, lower, middle, upper⟩ := parts
  -- Up to the block nothing is greater than the pivot, and from it on nothing is less.
  have notAbove : Holds (fun x => less p x = false) lo midhi data :=
    lower.union (middle.imp fun _ equal => equal.2)
  have notBelow : Holds (fun x => less x p = false) midlo hi data :=
    (middle.imp fun _ equal => equal.1).union upper
  intro i j first before last
  by_cases bothLow : j < midlo
  · exact low i j first before bothLow
  by_cases bothHigh : midhi ≤ i
  · exact high i j bothHigh before last
  cases lt : lessAt less data j i with
  | false => rfl
  | true =>
    obtain ⟨hj, hi'⟩ := lt_length_of_lessAt lt
    have atI := notAbove i _ first (by omega) (List.getElem?_eq_getElem hi')
    have atJ := notBelow j _ (by omega) last (List.getElem?_eq_getElem hj)
    rw [lessAt_of_getElem? (List.getElem?_eq_getElem hj) (List.getElem?_eq_getElem hi'),
      order.negTrans _ _ _ atJ atI] at lt
    cases lt

end Partitioned

/-- Go's `quickSort` puts `[a, b)` in order, reordering only that segment, at every depth bound. -/
theorem quickSort_spec (order : StrictWeak less) :
    ∀ (maxDepth : Nat) (data : List α) (a b : Nat), a ≤ b → b ≤ data.length →
      Within a b data (quickSort less maxDepth data a b) ∧
        Sorted less a b (quickSort less maxDepth data a b) := by
  intro maxDepth
  induction maxDepth with
  | zero =>
    intro data a b ordered bound
    unfold quickSort
    split
    · exact heapSort_spec order ordered bound
    · exact shellInsertionSort_spec order bound
  | succ maxDepth ih =>
    intro data a b ordered bound
    unfold quickSort
    split
    · rename_i wide
      obtain ⟨p, moved, parts⟩ := doPivot_spec order wide bound
      generalize doPivot less data a b = pivoted at moved parts
      obtain ⟨data₁, mlo, mhi⟩ := pivoted
      dsimp only at moved parts ⊢
      have bounds := parts.bounds
      have length₁ := moved.length_eq
      -- Go recurses into the smaller side and loops on the larger; either way both get sorted.
      split
      · obtain ⟨moved₂, low₂⟩ := ih data₁ a mlo (by omega) (by omega)
        obtain ⟨moved₃, high₃⟩ := ih _ mhi b (by omega) (by rw [moved₂.length_eq]; omega)
        refine ⟨moved.trans ((moved₂.widen le_rfl (by omega)).trans (moved₃.widen (by omega) le_rfl)),
          ?_⟩
        exact ((parts.within_low moved₂).within_high moved₃).sorted order
          (moved₃.sorted_outside low₂ (.inl bounds.2.1.le)) high₃
      · obtain ⟨moved₂, high₂⟩ := ih data₁ mhi b (by omega) (by omega)
        obtain ⟨moved₃, low₃⟩ := ih _ a mlo (by omega) (by rw [moved₂.length_eq]; omega)
        refine ⟨moved.trans ((moved₂.widen (by omega) le_rfl).trans (moved₃.widen le_rfl (by omega))),
          ?_⟩
        exact ((parts.within_high moved₂).within_low moved₃).sorted order low₃
          (moved₃.sorted_outside high₂ (.inr bounds.2.1.le))
    · exact shellInsertionSort_spec order bound

/-- Go's `sort.Slice`, for a strict weak order, permutes the slice into order. -/
theorem Slice_sorted (order : StrictWeak less) (data : List α) :
    (Slice less data).Perm data ∧ (Slice less data).Pairwise fun x y => less y x = false := by
  obtain ⟨moved, sorted⟩ := quickSort_spec order (maxDepth data.length) data 0 data.length
    (Nat.zero_le _) le_rfl
  refine ⟨moved.perm, sorted_zero_length ?_⟩
  rw [show (Slice less data).length = data.length from moved.length_eq]
  exact sorted

end Quick

/-! ## Orders, ties and short slices -/

section Results

/-- Comparing keys by `<` is a strict weak order. -/
theorem strictWeak_of_key {β : Type} [LinearOrder β] (key : α → β) :
    StrictWeak fun x y => decide (key x < key y) :=
  ⟨fun a b lt => by simp only [decide_eq_true_eq, decide_eq_false_iff_not] at lt ⊢; exact lt_asymm lt,
    fun a b c first second => by
      simp only [decide_eq_false_iff_not, not_lt] at first second ⊢
      exact second.trans first⟩

/-- `cmp x y == .lt` for a transitive comparison is a strict weak order. -/
theorem strictWeak_of_transCmp (cmp : α → α → Ordering) [Std.TransCmp cmp] :
    StrictWeak fun x y => cmp x y == .lt := by
  constructor
  · intro a b lt
    rw [@Std.OrientedCmp.eq_swap _ cmp _ b a]
    simp only [beq_iff_eq] at lt
    simp [lt]
  · -- Not less is transitive: it is `cmp` read the other way round, and not above is transitive.
    intro a b c first second
    have first' : cmp b a ≠ .gt := by
      rw [@Std.OrientedCmp.eq_swap _ cmp _ b a]
      cases h : cmp a b <;> simp_all
    have second' : cmp c b ≠ .gt := by
      rw [@Std.OrientedCmp.eq_swap _ cmp _ c b]
      cases h : cmp b c <;> simp_all
    have := Std.TransCmp.le_trans second' first'
    rw [@Std.OrientedCmp.eq_swap _ cmp _ c a] at this
    cases h : cmp a c <;> simp_all

/-- Without ties, `sort.Slice`'s order is the only one: any ordered permutation is its result. -/
theorem Slice_eq_of_sorted (order : StrictWeak less) {data ys : List α}
    (untied : ∀ x ∈ data, ∀ y ∈ data, less x y = false → less y x = false → x = y)
    (sorted : ys.Pairwise fun x y => less y x = false) (reordered : ys.Perm data) :
    Slice less data = ys := by
  obtain ⟨perm, ordered⟩ := Slice_sorted order data
  exact List.Perm.eq_of_pairwise (fun x y inSlice inYs first second =>
      untied x (perm.subset inSlice) y (reordered.subset inYs) second first)
    ordered sorted (perm.trans reordered.symm)

/-- Without ties, `sort.Slice`'s result does not depend on the slice's order. -/
theorem Slice_eq_of_perm (order : StrictWeak less) {data data' : List α} (reordered : data.Perm data')
    (untied : ∀ x ∈ data, ∀ y ∈ data, less x y = false → less y x = false → x = y) :
    Slice less data = Slice less data' :=
  Slice_eq_of_sorted order untied (Slice_sorted order data').2 ((Slice_sorted order data').1.trans
    reordered.symm)

theorem Slice_nil : Slice less ([] : List α) = [] := rfl

theorem Slice_singleton (x : α) : Slice less [x] = [x] := rfl

/-- Of two elements, `sort.Slice` exchanges them exactly when the second is less than the first. -/
theorem Slice_pair (x y : α) : Slice less [x, y] = if less y x then [y, x] else [x, y] := by
  -- Two elements go straight to the insertion sort, whose one step compares them.
  have small : Slice less [x, y] = insertDown less 0 1 [x, y] := rfl
  rw [small, insertDown]
  cases lt : less y x <;> simp [lessAt, lt, swap, insertDown]

/-- A segment already in order has no position less than the one before it. -/
theorem insertDown_of_sorted {a : Nat} (k : Nat) {data : List α}
    (sorted : Sorted less a (a + k + 1) data) : insertDown less a k data = data := by
  cases k with
  | zero => rfl
  | succ k =>
    unfold insertDown
    rw [if_neg (by rw [sorted (a + k) (a + k + 1) (by omega) (by omega) (by omega)]; simp)]

/-- On at most 12 elements already in order, `sort.Slice` moves nothing. -/
theorem Slice_of_sorted (data : List α) (short : data.length ≤ 12)
    (sorted : Sorted less 0 data.length data) : Slice less data = data := by
  -- With no more than 12 elements, `quickSort` goes straight to the ShellSort pass and insertion.
  have small : ∀ maxDepth, quickSort less maxDepth data 0 data.length =
      shellInsertionSort less data 0 data.length := by
    intro maxDepth
    cases maxDepth <;> simp only [quickSort, if_neg (show ¬ 12 < data.length - 0 by omega)]
  rw [Slice, small]
  unfold shellInsertionSort
  split
  · have shell := foldl_range'_induction
      (fun data i => if lessAt less data i (i - 6) then swap data i (i - 6) else data)
      (fun _ data' => data' = data) (s := 0 + 6) (n := data.length - (0 + 6)) (x := data) rfl
      fun i data' low high same => by
        subst same
        rw [if_neg (by rw [sorted (i - 6) i (Nat.zero_le _) (by omega) (by omega)]; simp)]
    dsimp only
    rw [shell]
    have insertion := foldl_range'_induction (fun data i => insertDown less 0 (i - 0) data)
      (fun _ data' => data' = data) (s := 0 + 1) (n := data.length - (0 + 1)) (x := data) rfl
      fun i data' low high same => by
        subst same
        exact insertDown_of_sorted (i - 0) fun j k first before last =>
          sorted j k first before (by omega)
    exact insertion
  · rfl

end Results

end Go.Sorting
