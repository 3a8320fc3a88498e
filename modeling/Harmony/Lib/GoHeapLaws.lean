import Harmony.Lib.GoHeap

/-!
The order laws of Go's `container/heap`. For a `Less` that is a strict weak order, `Push`, `Pop`,
`Remove` and `Init` leave the first `n` elements in heap order, every element no less than its
parent, and each only permutes the slice; `Pop` and `Remove` return the element they were asked
for, and the root of a heap is least.

The sifts are proved as the rotor heap proofs do: an order with one exception at the moving
position (`DownOrder`, `UpOrder`), a lemma for one swap, and one for the stop. `OrderedFrom lo`
is the order on the subtrees rooted at `lo` and after, which `Init` builds from the leaves up.
-/

namespace Go.Heap

variable {α : Type} (less : α → α → Bool)

/-- What the heap needs of `Less`: a strict weak order. -/
structure StrictWeak : Prop where
  asymm : ∀ a b, less a b = true → less b a = false
  negTrans : ∀ a b c, less a b = false → less b c = false → less a c = false

/-- The parent of a position, `(j - 1) / 2` as `up` computes it. -/
def parent (j : Nat) : Nat := (j - 1) / 2

/--
The heap order on the subtrees rooted at `lo` and after, over the first `n` elements: no position
whose parent is at or after `lo` is less than its parent.
-/
def OrderedFrom (lo n : Nat) (h : List α) : Prop :=
  ∀ c, 0 < c → c < n → lo ≤ parent c → lessAt less h c (parent c) = false

/-- Go's heap invariant over the first `n` elements. -/
def Ordered (n : Nat) (h : List α) : Prop := OrderedFrom less 0 n h

/-! ## Positions -/

theorem parent_lt {j : Nat} (positive : 0 < j) : parent j < j := by
  unfold parent
  omega

theorem parent_eq_iff {c i : Nat} (positive : 0 < c) : parent c = i ↔ c = 2 * i + 1 ∨ c = 2 * i + 2 := by
  unfold parent
  omega

/-- The position a swap of `i` and `j` reads each position from. -/
def swapped (i j k : Nat) : Nat := if k = j then i else if k = i then j else k

/-- The child `down` compares with: the right one when it is in range and less than the left. -/
def smallerChild (n : Nat) (h : List α) (i : Nat) : Nat :=
  if 2 * i + 1 + 1 < n ∧ lessAt less h (2 * i + 1 + 1) (2 * i + 1) then 2 * i + 1 + 1 else 2 * i + 1

/--
What `down` needs when the element it moves is at `i`, in a sift from `lo`: every pair of the
subtrees from `lo` whose parent is not `i` in order, and `i`'s children not less than `i`'s
parent.
-/
structure DownOrder (lo n : Nat) (h : List α) (i : Nat) : Prop where
  within : lo ≤ i
  except : ∀ c, 0 < c → c < n → lo ≤ parent c → parent c ≠ i → lessAt less h c (parent c) = false
  grand : lo < i → ∀ c, 0 < c → c < n → parent c = i → lessAt less h c (parent i) = false

/--
What `up` needs when the element it moves is at `j`: every pair but `j` and its parent in order,
and `j`'s children not less than `j`'s parent.
-/
structure UpOrder (n : Nat) (h : List α) (j : Nat) : Prop where
  except : ∀ c, 0 < c → c < n → c ≠ j → lessAt less h c (parent c) = false
  grand : 0 < j → ∀ c, 0 < c → c < n → parent c = j → lessAt less h c (parent j) = false

/-! ## Swaps -/

variable {less}

@[simp] theorem length_swap (h : List α) (i j : Nat) : (swap h i j).length = h.length := by
  unfold swap
  split <;> simp

theorem getElem?_swap {h : List α} {i j : Nat} (hi : i < h.length) (hj : j < h.length) (k : Nat) :
    (swap h i j)[k]? = h[swapped i j k]? := by
  unfold swap swapped
  rw [List.getElem?_eq_getElem hi, List.getElem?_eq_getElem hj]
  simp only [List.getElem?_set]
  by_cases kj : k = j
  · subst kj
    simp [List.getElem?_eq_getElem hi, hj]
  · by_cases ki : k = i
    · subst ki
      simp [Ne.symm kj, List.getElem?_eq_getElem hj, kj, hi]
    · simp [Ne.symm kj, Ne.symm ki, kj, ki]

/-- A swap leaves every other position as it was, in range or not. -/
theorem getElem?_swap_of_ne {h : List α} {i j k : Nat} (ki : k ≠ i) (kj : k ≠ j) :
    (swap h i j)[k]? = h[k]? := by
  unfold swap
  split <;> simp [Ne.symm ki, Ne.symm kj]

theorem swap_perm (h : List α) (i j : Nat) : (swap h i j).Perm h := by
  unfold swap
  split
  · rename_i a b first second
    have hi : i < h.length := (List.getElem?_eq_some_iff.mp first).1
    have hj : j < h.length := (List.getElem?_eq_some_iff.mp second).1
    rw [(List.getElem?_eq_some_iff.mp first).2.symm, (List.getElem?_eq_some_iff.mp second).2.symm]
    exact List.set_set_perm hi hj
  · exact List.Perm.refl h

theorem lessAt_swap {h : List α} {i j : Nat} (hi : i < h.length) (hj : j < h.length) (a b : Nat) :
    lessAt less (swap h i j) a b = lessAt less h (swapped i j a) (swapped i j b) := by
  simp only [lessAt, getElem?_swap hi hj]

/-! ## The order on elements, read at positions -/

theorem lessAt_of_getElem? {h : List α} {i j : Nat} {a b : α} (hi : h[i]? = some a)
    (hj : h[j]? = some b) : lessAt less h i j = less a b := by
  simp [lessAt, hi, hj]

/-- A position is less than another only when both are in range. -/
theorem lt_length_of_lessAt {h : List α} {i j : Nat} (lt : lessAt less h i j = true) :
    i < h.length ∧ j < h.length := by
  unfold lessAt at lt
  split at lt
  · rename_i first second
    exact ⟨(List.getElem?_eq_some_iff.mp first).1, (List.getElem?_eq_some_iff.mp second).1⟩
  · cases lt

theorem StrictWeak.lessAt_asymm (order : StrictWeak less) {h : List α} {i j : Nat}
    (lt : lessAt less h i j = true) : lessAt less h j i = false := by
  obtain ⟨hi, hj⟩ := lt_length_of_lessAt lt
  rw [lessAt_of_getElem? (List.getElem?_eq_getElem hi) (List.getElem?_eq_getElem hj)] at lt
  rw [lessAt_of_getElem? (List.getElem?_eq_getElem hj) (List.getElem?_eq_getElem hi)]
  exact order.asymm _ _ lt

theorem StrictWeak.lessAt_irrefl (order : StrictWeak less) (h : List α) (i : Nat) :
    lessAt less h i i = false := by
  cases lt : lessAt less h i i with
  | false => rfl
  | true => rw [← lt]; exact order.lessAt_asymm lt

theorem StrictWeak.lessAt_negTrans (order : StrictWeak less) {h : List α} {i j k : Nat}
    (hj : j < h.length) (first : lessAt less h i j = false) (second : lessAt less h j k = false) :
    lessAt less h i k = false := by
  cases lt : lessAt less h i k with
  | false => rfl
  | true =>
    obtain ⟨hi, hk⟩ := lt_length_of_lessAt lt
    have getI := List.getElem?_eq_getElem hi
    have getJ := List.getElem?_eq_getElem hj
    have getK := List.getElem?_eq_getElem hk
    rw [lessAt_of_getElem? getI getJ] at first
    rw [lessAt_of_getElem? getJ getK] at second
    rw [lessAt_of_getElem? getI getK] at lt
    rw [← lt, order.negTrans _ _ _ first second]

theorem StrictWeak.lessAt_trans (order : StrictWeak less) {h : List α} {i j k : Nat}
    (first : lessAt less h i j = true) (second : lessAt less h j k = true) :
    lessAt less h i k = true := by
  -- Were `i` not less than `k`, negative transitivity through `k` would make `i` not less than `j`.
  cases lt : lessAt less h i k with
  | true => rfl
  | false =>
    have back := order.lessAt_asymm second
    rw [order.lessAt_negTrans (lt_length_of_lessAt second).2 lt back] at first
    cases first

/-! ## `down` -/

theorem downLoopAt_succ (n fuel : Nat) (h : List α) (i : Nat) :
    downLoopAt less n (fuel + 1) h i =
      if n ≤ 2 * i + 1 then (h, i)
      else if lessAt less h (smallerChild less n h i) i then
        downLoopAt less n fuel (swap h i (smallerChild less n h i)) (smallerChild less n h i)
      else (h, i) := by
  show (if n ≤ 2 * i + 1 then (h, i)
    else if (!lessAt less h (smallerChild less n h i) i) = true then (h, i)
    else downLoopAt less n fuel (swap h i (smallerChild less n h i)) (smallerChild less n h i)) = _
  cases lessAt less h (smallerChild less n h i) i <;> rfl

theorem downLoop_eq (n fuel : Nat) (h : List α) (i : Nat) :
    downLoop less n fuel h i = (downLoopAt less n fuel h i).1 := by
  induction fuel generalizing h i with
  | zero => rfl
  | succ fuel ih =>
    rw [downLoopAt_succ]
    show (if n ≤ 2 * i + 1 then h
      else if (!lessAt less h (smallerChild less n h i) i) = true then h
      else downLoop less n fuel (swap h i (smallerChild less n h i)) (smallerChild less n h i)) = _
    by_cases stop : n ≤ 2 * i + 1
    · simp only [stop, if_true]
    · simp only [stop, if_false]
      cases lessAt less h (smallerChild less n h i) i
      · rfl
      · exact ih _ _

section Child

variable {n : Nat} {h : List α} {i : Nat}

theorem smallerChild_parent : parent (smallerChild less n h i) = i := by
  unfold smallerChild parent
  split <;> omega

theorem smallerChild_bounds (inner : 2 * i + 1 < n) :
    i < smallerChild less n h i ∧ smallerChild less n h i < n := by
  unfold smallerChild
  split <;> omega

/-- No child of `i` is less than the one `down` compares with. -/
theorem StrictWeak.smallerChild_least (order : StrictWeak less) {c : Nat} (positive : 0 < c)
    (below : c < n) (child : parent c = i) : lessAt less h c (smallerChild less n h i) = false := by
  rcases (parent_eq_iff positive).mp child with rfl | rfl
  · unfold smallerChild
    split
    · rename_i right
      exact order.lessAt_asymm right.2
    · exact order.lessAt_irrefl h _
  · unfold smallerChild
    split
    · exact order.lessAt_irrefl h _
    · rename_i left
      simpa [below] using left

end Child

variable {lo n : Nat} {h : List α} {i : Nat}

/-- One swap of `down` moves the exception to the child it swapped with. -/
theorem DownOrder.move (order : StrictWeak less) (sifting : DownOrder less lo n h i)
    (bound : n ≤ h.length) (inner : 2 * i + 1 < n)
    (lt : lessAt less h (smallerChild less n h i) i = true) :
    DownOrder less lo n (swap h i (smallerChild less n h i)) (smallerChild less n h i) := by
  obtain ⟨deeper, below⟩ : i < smallerChild less n h i ∧ smallerChild less n h i < n :=
    smallerChild_bounds inner
  have child : parent (smallerChild less n h i) = i := smallerChild_parent
  have least : ∀ c, 0 < c → c < n → parent c = i →
      lessAt less h c (smallerChild less n h i) = false :=
    fun c positive within child => order.smallerChild_least positive within child
  generalize smallerChild less n h i = j at deeper below child lt least ⊢
  have hi : i < h.length := by omega
  have hj : j < h.length := by omega
  refine ⟨by have := sifting.within; omega, ?_, ?_⟩
  · intro c positive within_n within_lo off
    rw [lessAt_swap hi hj]
    by_cases cj : c = j
    · -- The element that moved down is not less than the child that moved up.
      subst cj
      simp only [swapped, child, if_true, show i ≠ c by omega, if_false]
      exact order.lessAt_asymm lt
    by_cases ci : c = i
    · -- The child that moved up is not less than `i`'s parent.
      subst ci
      have up := parent_lt positive
      simp only [swapped, cj, if_true, if_false, show parent c ≠ j by omega,
        show parent c ≠ c by omega]
      exact sifting.grand (by omega) j (by omega) below child
    by_cases sibling : parent c = i
    · simp only [swapped, cj, ci, if_false, sibling, show i ≠ j by omega, if_true]
      -- The sibling is not less than the smaller child that moved up.
      exact least c positive within_n sibling
    · simp only [swapped, cj, ci, if_false, show parent c ≠ j from off, sibling]
      exact sifting.except c positive within_n within_lo sibling
  · intro _ c positive within_n parent_j
    rw [lessAt_swap hi hj, child]
    have deeper_c : j < c := parent_j ▸ parent_lt positive
    simp only [swapped, show c ≠ j by omega, show c ≠ i by omega, show i ≠ j by omega, if_false,
      if_true]
    rw [← parent_j]
    exact sifting.except c positive within_n (by have := sifting.within; omega) (by omega)

/-- Where `down` stops, no child is less than the element. -/
theorem DownOrder.finish (order : StrictWeak less) (sifting : DownOrder less lo n h i)
    (bound : n ≤ h.length)
    (stop : n ≤ 2 * i + 1 ∨ lessAt less h (smallerChild less n h i) i = false) :
    OrderedFrom less lo n h := by
  intro c positive below within
  by_cases child : parent c = i
  · have inner : 2 * i + 1 < n := by
      rcases (parent_eq_iff positive).mp child with rfl | rfl <;> omega
    have settled : lessAt less h (smallerChild less n h i) i = false := by
      rcases stop with leaf | settled
      · omega
      · exact settled
    have : smallerChild less n h i < n := (smallerChild_bounds inner).2
    rw [child]
    exact order.lessAt_negTrans (by omega) (order.smallerChild_least positive below child) settled
  · exact sifting.except c positive below within child

/-- `down` with fuel for every level below `i` restores the order on the subtrees from `lo`. -/
theorem downLoopAt_ordered (order : StrictWeak less) (fuel : Nat) (bound : n ≤ h.length)
    (enough : n ≤ fuel + i) (sifting : DownOrder less lo n h i) :
    OrderedFrom less lo n (downLoopAt less n fuel h i).1 := by
  induction fuel generalizing h i with
  | zero => exact sifting.finish order bound (.inl (by omega))
  | succ fuel ih =>
    rw [downLoopAt_succ]
    by_cases leaf : n ≤ 2 * i + 1
    · simp only [leaf, if_true]
      exact sifting.finish order bound (.inl leaf)
    · simp only [leaf, if_false]
      cases lt : lessAt less h (smallerChild less n h i) i with
      | false => exact sifting.finish order bound (.inr lt)
      | true =>
        have deeper : i < smallerChild less n h i := (smallerChild_bounds (by omega)).1
        exact ih (by simpa using bound) (by omega) (sifting.move order bound (by omega) lt)

/-- `down` touches nothing from `n` on. -/
theorem downLoopAt_getElem?_of_le (fuel : Nat) (h : List α) (i : Nat) {k : Nat} (outside : n ≤ k) :
    (downLoopAt less n fuel h i).1[k]? = h[k]? := by
  induction fuel generalizing h i with
  | zero => rfl
  | succ fuel ih =>
    rw [downLoopAt_succ]
    by_cases leaf : n ≤ 2 * i + 1
    · simp [leaf]
    · simp only [leaf, if_false]
      cases lt : lessAt less h (smallerChild less n h i) i with
      | false => rfl
      | true =>
        have below : smallerChild less n h i < n := (smallerChild_bounds (by omega)).2
        simp only [if_true]
        rw [ih, getElem?_swap_of_ne (by omega) (by omega)]

theorem downLoopAt_perm (fuel : Nat) (h : List α) (i : Nat) :
    (downLoopAt less n fuel h i).1.Perm h := by
  induction fuel generalizing h i with
  | zero => exact List.Perm.refl h
  | succ fuel ih =>
    rw [downLoopAt_succ]
    split
    · exact List.Perm.refl h
    · split
      · exact (ih _ _).trans (swap_perm h i _)
      · exact List.Perm.refl h

/-! ## `up` -/

theorem upLoop_succ (fuel : Nat) (h : List α) (j : Nat) :
    upLoop less (fuel + 1) h j =
      if j = 0 then h
      else if lessAt less h j (parent j) then upLoop less fuel (swap h (parent j) j) (parent j)
      else h := by
  show (if parent j = j ∨ (!lessAt less h j (parent j)) = true then h
    else upLoop less fuel (swap h (parent j) j) (parent j)) = _
  by_cases root : j = 0
  · subst root
    simp [parent]
  · have moved : parent j ≠ j := by unfold parent; omega
    cases lessAt less h j (parent j) <;> simp [root, moved]

/-- One swap of `up` moves the exception to the parent it swapped with. -/
theorem UpOrder.move (order : StrictWeak less) {j : Nat} (sifting : UpOrder less n h j)
    (bound : n ≤ h.length) (within : j < n) (positive : 0 < j)
    (lt : lessAt less h j (parent j) = true) :
    UpOrder less n (swap h (parent j) j) (parent j) := by
  have above := parent_lt positive
  generalize parent_j : parent j = i at above lt
  have hi : i < h.length := by omega
  have hj : j < h.length := by omega
  -- Not less than `i`, with `j` less than `i`, a position is not less than `j` either.
  have under : ∀ c, lessAt less h c i = false → lessAt less h c j = false := by
    intro c settled
    cases lt' : lessAt less h c j with
    | false => rfl
    | true => rw [order.lessAt_trans lt' lt] at settled; cases settled
  constructor
  · intro c positive_c within_c off
    rw [lessAt_swap hi hj]
    by_cases cj : c = j
    · subst cj
      simp only [swapped, parent_j, if_true, show i ≠ c by omega, if_false]
      exact order.lessAt_asymm lt
    by_cases child : parent c = j
    · -- A child of `j` is not less than `i`, where the element of `j` now is.
      have deeper := parent_lt positive_c
      simp only [swapped, cj, show c ≠ i by omega, if_false, child, if_true]
      have := sifting.grand positive c positive_c within_c child
      rwa [parent_j] at this
    by_cases sibling : parent c = i
    · simp only [swapped, cj, off, if_false, sibling, show i ≠ j by omega, if_true]
      have := sifting.except c positive_c within_c cj
      rw [sibling] at this
      exact under c this
    · simp only [swapped, cj, off, if_false, child, sibling]
      exact sifting.except c positive_c within_c cj
  · intro positive_i c positive_c within_c child
    have grandparent := parent_lt positive_i
    rw [lessAt_swap hi hj]
    have settled_i : lessAt less h i (parent i) = false :=
      sifting.except i positive_i (by omega) (by omega)
    by_cases cj : c = j
    · subst cj
      simp only [swapped, if_true, show parent i ≠ c by omega, show parent i ≠ i by omega,
        if_false]
      exact settled_i
    · -- The sibling of `j` reaches `i`'s parent through `i`.
      have deeper := parent_lt positive_c
      simp only [swapped, cj, show c ≠ i by omega, if_false, show parent i ≠ j by omega,
        show parent i ≠ i by omega]
      have settled_c := sifting.except c positive_c within_c cj
      rw [child] at settled_c
      exact order.lessAt_negTrans hi settled_c settled_i

/-- Where `up` stops, the element is not less than its parent. -/
theorem UpOrder.finish {j : Nat} (sifting : UpOrder less n h j)
    (stop : j = 0 ∨ lessAt less h j (parent j) = false) : Ordered less n h := by
  intro c positive below _
  by_cases cj : c = j
  · subst cj
    rcases stop with root | settled
    · omega
    · exact settled
  · exact sifting.except c positive below cj

/-- `up` with fuel for every level above `j` restores the heap order. -/
theorem upLoop_ordered (order : StrictWeak less) (fuel : Nat) {j : Nat} (bound : n ≤ h.length)
    (within : j < n) (enough : j ≤ fuel) (sifting : UpOrder less n h j) :
    Ordered less n (upLoop less fuel h j) := by
  induction fuel generalizing h j with
  | zero => exact sifting.finish (.inl (by omega))
  | succ fuel ih =>
    rw [upLoop_succ]
    by_cases root : j = 0
    · simp only [root, if_true]
      exact sifting.finish (.inl root)
    · simp only [root, if_false]
      cases lt : lessAt less h j (parent j) with
      | false => exact sifting.finish (.inr lt)
      | true =>
        have above := parent_lt (show 0 < j by omega)
        exact ih (by simpa using bound) (by omega) (by omega)
          (sifting.move order bound within (by omega) lt)

/-- `up` touches nothing after `j`. -/
theorem upLoop_getElem?_of_lt (fuel : Nat) (h : List α) {j k : Nat} (after : j < k) :
    (upLoop less fuel h j)[k]? = h[k]? := by
  induction fuel generalizing h j with
  | zero => rfl
  | succ fuel ih =>
    rw [upLoop_succ]
    split
    · rfl
    · rename_i root
      split
      · have above := parent_lt (show 0 < j by omega)
        rw [ih _ (by omega), getElem?_swap_of_ne (by omega) (by omega)]
      · rfl

theorem upLoop_perm (fuel : Nat) (h : List α) (j : Nat) : (upLoop less fuel h j).Perm h := by
  induction fuel generalizing h j with
  | zero => exact List.Perm.refl h
  | succ fuel ih =>
    rw [upLoop_succ]
    split
    · exact List.Perm.refl h
    · split
      · exact (ih _ _).trans (swap_perm h _ j)
      · exact List.Perm.refl h

/-! ## The order as a whole -/

/-- The order below `n` reads only the first `n` elements. -/
theorem OrderedFrom.congr {h' : List α} (heap : OrderedFrom less lo n h)
    (agree : ∀ k < n, h'[k]? = h[k]?) : OrderedFrom less lo n h' := by
  intro c positive below within
  have above := parent_lt positive
  have same : lessAt less h' c (parent c) = lessAt less h c (parent c) := by
    simp only [lessAt, agree c below, agree (parent c) (by omega)]
  rw [same]
  exact heap c positive below within

theorem OrderedFrom.mono {m : Nat} (heap : OrderedFrom less lo n h) (shorter : m ≤ n) :
    OrderedFrom less lo m h :=
  fun c positive below within => heap c positive (by omega) within

/-- Nothing in a heap is less than its root. -/
theorem Ordered.root_least (order : StrictWeak less) (heap : Ordered less n h) (bound : n ≤ h.length) :
    ∀ k < n, lessAt less h k 0 = false := by
  intro k
  -- Up the path to the root, each position is not less than its parent.
  induction k using Nat.strong_induction_on with
  | _ k ih =>
    intro below
    by_cases root : k = 0
    · subst root
      exact order.lessAt_irrefl h 0
    · have above := parent_lt (show 0 < k by omega)
      exact order.lessAt_negTrans (by omega) (heap k (by omega) below (Nat.zero_le _))
        (ih (parent k) above (by omega))

/-- A heap is ready for `up` at any position. -/
theorem Ordered.upOrder (order : StrictWeak less) (heap : Ordered less n h) (bound : n ≤ h.length)
    (j : Nat) : UpOrder less n h j := by
  constructor
  · exact fun c positive below _ => heap c positive below (Nat.zero_le _)
  · intro positive c positive_c below child
    have deeper := parent_lt positive_c
    have settled_c := heap c positive_c below (Nat.zero_le _)
    rw [child] at settled_c
    exact order.lessAt_negTrans (by omega) settled_c (heap j positive (by omega) (Nat.zero_le _))

/-- The last element taken off a slice whose other elements are in heap order. -/
theorem takeLast_spec {x : α} (last : h[h.length - 1]? = some x)
    (heap : Ordered less (h.length - 1) h) :
    (h.getLast?.map fun y => (y, h.dropLast)) = some (x, h.dropLast) ∧
      Ordered less h.dropLast.length h.dropLast ∧ (x :: h.dropLast).Perm h := by
  rw [← List.getLast?_eq_getElem?] at last
  refine ⟨by rw [last]; rfl, ?_, ?_⟩
  · rw [List.length_dropLast]
    exact heap.congr fun k below => by simp [below]
  · have whole := List.dropLast_append_getLast? x last
    calc (x :: h.dropLast).Perm (h.dropLast ++ [x]) := (List.perm_append_singleton x _).symm
      _ = h := whole

/-! ## `Push`, `Pop` and `Init` -/

/-- `Push` keeps the heap order, with one element more. -/
theorem Push_ordered (order : StrictWeak less) (heap : Ordered less h.length h) (x : α) :
    Ordered less (h.length + 1) (Push less h x) := by
  unfold Push up
  apply upLoop_ordered order _ (by simp) (by omega) le_rfl
  constructor
  · intro c positive below off
    have above := parent_lt positive
    have same : lessAt less (h ++ [x]) c (parent c) = lessAt less h c (parent c) := by
      simp only [lessAt, List.getElem?_append_left (show c < h.length by omega),
        List.getElem?_append_left (show parent c < h.length by omega)]
    rw [same]
    exact heap c positive (by omega) (Nat.zero_le _)
  · intro positive c positive_c below child
    rcases (parent_eq_iff positive_c).mp child with rfl | rfl <;> omega

theorem Push_perm (h : List α) (x : α) : (Push less h x).Perm (h ++ [x]) := upLoop_perm _ _ _

@[simp] theorem length_Push (h : List α) (x : α) : (Push less h x).length = h.length + 1 := by
  simp [(Push_perm h x).length_eq]

/-- `Pop` returns the root and keeps the heap order on the rest. -/
theorem Pop_spec (order : StrictWeak less) (heap : Ordered less h.length h) {x : α}
    (root : h[0]? = some x) :
    ∃ rest, Pop less h = some (x, rest) ∧ Ordered less rest.length rest ∧ (x :: rest).Perm h := by
  have nonempty : 0 < h.length := (List.getElem?_eq_some_iff.mp root).1
  have hn : h.length - 1 < h.length := by omega
  -- The last element goes to the root and sifts down through the first `length - 1`.
  have sifting : DownOrder less 0 (h.length - 1) (swap h 0 (h.length - 1)) 0 := by
    refine ⟨le_rfl, ?_, fun none => absurd none (by omega)⟩
    intro c positive below _ off
    have above := parent_lt positive
    rw [lessAt_swap (by omega) hn]
    simp only [swapped, show c ≠ h.length - 1 by omega, show c ≠ 0 by omega, off,
      show parent c ≠ h.length - 1 by omega, if_false]
    exact heap c positive (by omega) (Nat.zero_le _)
  have ordered := downLoopAt_ordered order (h.length - 1) (by simp) (by omega) sifting
  set sifted := (downLoopAt less (h.length - 1) (h.length - 1) (swap h 0 (h.length - 1)) 0).1
    with sifted_def
  have perm : sifted.Perm h :=
    (downLoopAt_perm (n := h.length - 1) _ _ _).trans (swap_perm h 0 (h.length - 1))
  -- The old root waits at the end, which the sift does not reach.
  have last : sifted[sifted.length - 1]? = some x := by
    rw [perm.length_eq, sifted_def, downLoopAt_getElem?_of_le _ _ _ le_rfl,
      getElem?_swap (by omega) hn]
    simpa [swapped] using root
  obtain ⟨popped, rest_ordered, rest_perm⟩ :=
    takeLast_spec last (by rw [perm.length_eq]; exact ordered)
  refine ⟨_, ?_, rest_ordered, rest_perm.trans perm⟩
  unfold Pop down
  rw [List.getLast?_eq_getElem?, List.getElem?_eq_getElem (by omega)]
  simp only [downLoop_eq]
  exact popped

theorem foldl_down_ordered (order : StrictWeak less) (len m : Nat) (g : List α)
    (length : g.length = len) (heap : OrderedFrom less m len g) :
    ((List.range m).reverse.foldl (fun h i => down less h i h.length) g).length = len ∧
      Ordered less len ((List.range m).reverse.foldl (fun h i => down less h i h.length) g) := by
  induction m generalizing g with
  | zero => exact ⟨length, heap⟩
  | succ m ih =>
    simp only [List.range_succ, List.reverse_append, List.reverse_singleton, List.singleton_append,
      List.foldl_cons]
    -- Node `m` sifts down over subtrees that are already heaps.
    have sifting : DownOrder less m len g m :=
      ⟨le_rfl, fun c positive below within off => heap c positive below (by omega),
        fun none => absurd none (by omega)⟩
    apply ih
    · unfold down
      rw [downLoop_eq, (downLoopAt_perm _ _ _).length_eq, length]
    · unfold down
      rw [downLoop_eq, length]
      exact downLoopAt_ordered order len (by omega) (by omega) sifting

/-- `Init` puts any slice in heap order. -/
theorem Init_ordered (order : StrictWeak less) (h : List α) : Ordered less h.length (Init less h) := by
  -- No position's parent is at or after the last inner node: the leaves are heaps.
  have leaves : OrderedFrom less (h.length / 2) h.length h := by
    intro c positive below within
    unfold parent at within
    omega
  exact (foldl_down_ordered order h.length (h.length / 2) h rfl leaves).2

theorem Init_perm (h : List α) : (Init less h).Perm h := by
  unfold Init
  generalize (List.range (h.length / 2)).reverse = order
  induction order generalizing h with
  | nil => exact List.Perm.refl h
  | cons i rest ih =>
    rw [List.foldl_cons]
    exact (ih _).trans (by unfold down; rw [downLoop_eq]; exact downLoopAt_perm _ _ _)

@[simp] theorem length_Init (h : List α) : (Init less h).length = h.length :=
  (Init_perm h).length_eq

/-! ## `Remove` -/

section Remove

/-- After the last element is swapped into `i`, every pair away from `i` is as it was. -/
theorem swapLast_except (heap : Ordered less h.length h) (inside : i < h.length - 1) {c : Nat}
    (positive : 0 < c) (below : c < h.length - 1) (off : c ≠ i) (off_parent : parent c ≠ i) :
    lessAt less (swap h i (h.length - 1)) c (parent c) = false := by
  have above := parent_lt positive
  rw [lessAt_swap (by omega) (by omega)]
  simp only [swapped, show c ≠ h.length - 1 by omega, off, off_parent,
    show parent c ≠ h.length - 1 by omega, if_false]
  exact heap c positive (by omega) (Nat.zero_le _)

/-- After the swap, `i`'s children are still not less than `i`'s parent. -/
theorem swapLast_grand (order : StrictWeak less) (heap : Ordered less h.length h)
    (inside : i < h.length - 1) (positive : 0 < i) {c : Nat} (positive_c : 0 < c)
    (below : c < h.length - 1) (child : parent c = i) :
    lessAt less (swap h i (h.length - 1)) c (parent i) = false := by
  have above := parent_lt positive
  have deeper := parent_lt positive_c
  rw [lessAt_swap (by omega) (by omega)]
  simp only [swapped, show c ≠ h.length - 1 by omega, show c ≠ i by omega,
    show parent i ≠ h.length - 1 by omega, show parent i ≠ i by omega, if_false]
  have settled_c := heap c positive_c (by omega) (Nat.zero_le _)
  rw [child] at settled_c
  exact order.lessAt_negTrans (by omega) settled_c (heap i positive (by omega) (Nat.zero_le _))

/--
When the element swapped into `i` is less than `i`'s parent, no child of `i` is less than it: the
children are not less than that parent.
-/
theorem swapLast_children (order : StrictWeak less) (heap : Ordered less h.length h)
    (inside : i < h.length - 1) (positive : 0 < i)
    (rising : lessAt less (swap h i (h.length - 1)) i (parent i) = true) {c : Nat}
    (positive_c : 0 < c) (below : c < h.length - 1) (child : parent c = i) :
    lessAt less (swap h i (h.length - 1)) c i = false := by
  have above := parent_lt positive
  have deeper := parent_lt positive_c
  have grand := swapLast_grand order heap inside positive positive_c below child
  cases lt : lessAt less (swap h i (h.length - 1)) c i with
  | false => rfl
  | true => rw [order.lessAt_trans lt rising] at grand; cases grand

/-- The last element, swapped into `i` and sifted down or up, leaves the first `length - 1` ordered. -/
theorem removeSift_ordered (order : StrictWeak less) (heap : Ordered less h.length h)
    (inside : i < h.length - 1) :
    Ordered less (h.length - 1)
      (if i < (downLoopAt less (h.length - 1) (h.length - 1) (swap h i (h.length - 1)) i).2
        then (downLoopAt less (h.length - 1) (h.length - 1) (swap h i (h.length - 1)) i).1
        else up less (downLoopAt less (h.length - 1) (h.length - 1) (swap h i (h.length - 1)) i).1 i) := by
  have bound : h.length - 1 ≤ (swap h i (h.length - 1)).length := by simp
  by_cases rising : 0 < i ∧ lessAt less (swap h i (h.length - 1)) i (parent i) = true
  · -- The element is less than its parent: `down` cannot move it, and `up` takes it up.
    have children : ∀ c, 0 < c → c < h.length - 1 → parent c = i →
        lessAt less (swap h i (h.length - 1)) c i = false :=
      fun c positive_c below child =>
        swapLast_children order heap inside rising.1 rising.2 (c := c) positive_c below child
    have stays : downLoopAt less (h.length - 1) (h.length - 1) (swap h i (h.length - 1)) i =
        (swap h i (h.length - 1), i) := by
      rw [show h.length - 1 = (h.length - 2) + 1 by omega, downLoopAt_succ,
        show h.length - 2 + 1 = h.length - 1 by omega]
      split
      · rfl
      · rename_i inner
        obtain ⟨deeper, below⟩ :
            i < smallerChild less (h.length - 1) (swap h i (h.length - 1)) i ∧
              smallerChild less (h.length - 1) (swap h i (h.length - 1)) i < h.length - 1 :=
          smallerChild_bounds (by omega)
        rw [children _ (by omega) below smallerChild_parent]
        rfl
    rw [stays]
    simp only [lt_irrefl, if_false]
    apply upLoop_ordered order i bound inside le_rfl
    constructor
    · intro c positive_c below off
      by_cases child : parent c = i
      · rw [child]
        exact children c positive_c below child
      · exact swapLast_except heap inside positive_c below off child
    · exact fun positive c positive_c below child =>
        swapLast_grand order heap inside positive positive_c below child
  · -- The element is not less than its parent: `down` restores the order, and `up` on a heap
    -- changes nothing that matters.
    have sifting : DownOrder less 0 (h.length - 1) (swap h i (h.length - 1)) i := by
      refine ⟨Nat.zero_le _, ?_, ?_⟩
      · intro c positive_c below _ off
        by_cases ci : c = i
        · subst ci
          cases settled : lessAt less (swap h c (h.length - 1)) c (parent c) with
          | false => rfl
          | true => exact absurd ⟨positive_c, settled⟩ rising
        · exact swapLast_except heap inside positive_c below ci off
      · exact fun positive c positive_c below child =>
          swapLast_grand order heap inside positive positive_c below child
    have sifted := downLoopAt_ordered order (h.length - 1) bound (by omega) sifting
    split
    · exact sifted
    · apply upLoop_ordered order i (by rw [(downLoopAt_perm _ _ _).length_eq]; exact bound) inside
        le_rfl
      exact Ordered.upOrder order sifted (by rw [(downLoopAt_perm _ _ _).length_eq]; exact bound) i

variable (less) in
/-- The sifts of `Remove` only permute the slice, and leave the removed element at the end. -/
theorem removeSift_last {x : α} (found : h[i]? = some x) (inside : i < h.length - 1) :
    (if i < (downLoopAt less (h.length - 1) (h.length - 1) (swap h i (h.length - 1)) i).2
        then (downLoopAt less (h.length - 1) (h.length - 1) (swap h i (h.length - 1)) i).1
        else up less (downLoopAt less (h.length - 1) (h.length - 1) (swap h i (h.length - 1)) i).1 i
      ).Perm h ∧
    (if i < (downLoopAt less (h.length - 1) (h.length - 1) (swap h i (h.length - 1)) i).2
        then (downLoopAt less (h.length - 1) (h.length - 1) (swap h i (h.length - 1)) i).1
        else up less (downLoopAt less (h.length - 1) (h.length - 1) (swap h i (h.length - 1)) i).1 i
      )[h.length - 1]? = some x := by
  have perm : (downLoopAt less (h.length - 1) (h.length - 1) (swap h i (h.length - 1)) i).1.Perm h :=
    (downLoopAt_perm _ _ _).trans (swap_perm h i (h.length - 1))
  have last : (downLoopAt less (h.length - 1) (h.length - 1) (swap h i (h.length - 1)) i).1[
      h.length - 1]? = some x := by
    rw [downLoopAt_getElem?_of_le _ _ _ le_rfl, getElem?_swap (by omega) (by omega)]
    simpa [swapped] using found
  split
  · exact ⟨perm, last⟩
  · unfold up
    exact ⟨(upLoop_perm _ _ _).trans perm, by rw [upLoop_getElem?_of_lt _ _ inside]; exact last⟩

end Remove

/-- `Remove` returns the element at `i` and keeps the heap order on the rest. -/
theorem Remove_spec (order : StrictWeak less) (heap : Ordered less h.length h) {x : α}
    (found : h[i]? = some x) :
    ∃ rest, Remove less h i = some (x, rest) ∧ Ordered less rest.length rest ∧
      (x :: rest).Perm h := by
  have inside : i < h.length := (List.getElem?_eq_some_iff.mp found).1
  unfold Remove
  rw [if_neg (by omega)]
  by_cases last : h.length - 1 = i
  · -- The last element goes without a sift.
    simp only [last, ne_eq, not_true_eq_false, if_false]
    obtain ⟨popped, ordered, perm⟩ :=
      takeLast_spec (by rw [last]; exact found) (heap.mono (by omega))
    exact ⟨_, popped, ordered, perm⟩
  · simp only [ne_eq, last, not_false_eq_true, if_true]
    obtain ⟨perm, moved⟩ := removeSift_last less found (by omega)
    obtain ⟨popped, ordered, rest_perm⟩ :=
      takeLast_spec (by rw [perm.length_eq]; exact moved)
        (by rw [perm.length_eq]; exact removeSift_ordered order heap (by omega))
    exact ⟨_, popped, ordered, rest_perm.trans perm⟩

end Go.Heap
