import Harmony.Proofs.Sync.StateSync
import Harmony.Lib.Compare

/-!
The longest-run scan of state sync: `getHowManyMaxConsensus` over peers and
`GetHowManyMaxConsensus` over candidate blocks. Both comparators are total preorders, so in a list
sorted by one every group of equal elements is one run. The scan compares each element only with
the first of the current run, and on such a list it answers the size of the largest group and the
index where the first group of that size starts.
-/

namespace Harmony

open Go

namespace StateSync

section Groups

variable {β : Type} {cmp : β → β → Ordering}

/-- How many elements of `ys` compare equal to `y`: the size of `y`'s group. -/
def groupSize (cmp : β → β → Ordering) (ys : List β) (y : β) : Nat :=
  ys.countP fun z => cmp y z == .eq

/-- A list in the order the code's sorts leave it: no element before a smaller one. -/
def SortedBy (cmp : β → β → Ordering) (ys : List β) : Prop :=
  ys.Pairwise fun a b => cmp a b ≠ .gt

instance (cmp : β → β → Ordering) (ys : List β) : Decidable (SortedBy cmp ys) :=
  inferInstanceAs (Decidable (ys.Pairwise fun a b => cmp a b ≠ .gt))

/-- Every group of equal elements of `ys` lies in one run. -/
def GroupsContiguous (cmp : β → β → Ordering) (ys : List β) : Prop :=
  ∀ pre a mid c post, ys = pre ++ a :: mid ++ c :: post → cmp a c = .eq →
    ∀ b ∈ mid, cmp a b = .eq

/--
What the longest-run scan answers for `xs`: `(-1, 0)` exactly when there is nothing to scan, and
otherwise a run `x :: rest` of equal elements that is a whole group of the largest size, at the
index where it starts, with every element before it in a smaller group.
-/
structure LargestGroup (cmp : β → β → Ordering) (xs : List β) (result : Int × Nat) : Prop where
  empty : xs = [] ↔ result = (-1, 0)
  found : xs ≠ [] → ∃ pre x rest post, xs = pre ++ x :: rest ++ post ∧
    result = (pre.length, rest.length + 1) ∧ (∀ y ∈ rest, cmp x y = .eq) ∧
    groupSize cmp xs x = rest.length + 1 ∧ (∀ y ∈ xs, groupSize cmp xs y ≤ rest.length + 1) ∧
    ∀ y ∈ pre, groupSize cmp xs y < rest.length + 1

theorem groupSize_append_singleton (ys : List β) (y x : β) :
    groupSize cmp (ys ++ [x]) y = groupSize cmp ys y + if cmp y x = .eq then 1 else 0 := by
  simp [groupSize, List.countP_singleton]

/-- An element that equals nothing of `ys ++ [x]` but maybe `x` keeps its group size. -/
theorem groupSize_append_of_ne {ys : List β} {y x : β} (differ : cmp y x ≠ .eq) :
    groupSize cmp (ys ++ [x]) y = groupSize cmp ys y := by
  simp [groupSize_append_singleton, differ]

theorem groupSize_append_of_eq {ys : List β} {y x : β} (same : cmp y x = .eq) :
    groupSize cmp (ys ++ [x]) y = groupSize cmp ys y + 1 := by
  simp [groupSize_append_singleton, same]

variable [Std.TransCmp cmp]

/-- Equal elements have groups of one size. -/
theorem groupSize_congr {y z : β} (same : cmp y z = .eq) (ys : List β) :
    groupSize cmp ys y = groupSize cmp ys z := by
  unfold groupSize
  -- `y` and `z` compare the same way with every element.
  congr 1
  funext w
  rw [Std.TransCmp.congr_left same]

/-- A run that starts a group and reaches the end of the list is the whole group. -/
theorem groupSize_run {pre rest : List β} {x : β} (before : ∀ y ∈ pre, cmp y x ≠ .eq)
    (run : ∀ y ∈ rest, cmp x y = .eq) : groupSize cmp (pre ++ x :: rest) x = rest.length + 1 := by
  have outside : pre.countP (fun z => cmp x z == .eq) = 0 :=
    List.countP_eq_zero.mpr fun y member same =>
      before y member (Std.OrientedCmp.eq_symm (beq_iff_eq.mp same))
  have inside : (x :: rest).countP (fun z => cmp x z == .eq) = rest.length + 1 := by
    refine List.countP_eq_length.mpr fun y member => ?_
    rcases List.mem_cons.mp member with rfl | later
    · simp [Std.ReflCmp.compare_self]
    · simp [run y later]
  simp only [groupSize, List.countP_append, outside, inside, Nat.zero_add]

/-- Between two equal elements of a sorted list, an element equals them. -/
theorem eq_of_between {a b c : β} (ab : cmp a b ≠ .gt) (bc : cmp b c ≠ .gt)
    (ac : cmp a c = .eq) : cmp a b = .eq := by
  -- `c` is at most `a`, so `b` is too; then `a` and `b` are each at most the other.
  have ca : (cmp c a).isLE := Ordering.isLE_of_eq_eq (Std.OrientedCmp.eq_symm ac)
  have ba : (cmp b a).isLE := Std.TransCmp.isLE_trans (Ordering.isLE_iff_ne_gt.mpr bc) ca
  exact Std.OrientedCmp.isLE_antisymm (Ordering.isLE_iff_ne_gt.mpr ab) ba

/-- A sorted list holds each group of equal elements in one run. -/
theorem SortedBy.groupsContiguous {ys : List β} (sorted : SortedBy cmp ys) :
    GroupsContiguous cmp ys := by
  rintro pre a mid c post rfl same b member
  obtain ⟨front, -, across⟩ := List.pairwise_append.mp sorted
  have ab := (List.pairwise_cons.mp (List.pairwise_append.mp front).2.1).1 b member
  have bc := across b (List.mem_append_right _ (List.mem_cons_of_mem a member)) c
    List.mem_cons_self
  exact eq_of_between ab bc same

/-- The code's insertion sort leaves a list sorted by its comparator. -/
theorem sortedBy_insertionSort (xs : List β) :
    SortedBy cmp (xs.insertionSort fun a b => cmp a b ≠ .gt) := by
  -- `≠ .gt` is total and transitive for a total preorder.
  have : Std.Total fun a b : β => cmp a b ≠ .gt := ⟨fun a b => by
    by_cases above : cmp a b = .gt
    · exact .inr fun below => by
        rw [Std.OrientedCmp.gt_iff_lt.mp above] at below
        exact Ordering.noConfusion below
    · exact .inl above⟩
  have : IsTrans β fun a b => cmp a b ≠ .gt := ⟨fun a b c ab bc =>
    Ordering.isLE_iff_ne_gt.mp (Std.TransCmp.isLE_trans (Ordering.isLE_iff_ne_gt.mpr ab)
      (Ordering.isLE_iff_ne_gt.mpr bc))⟩
  exact List.pairwise_insertionSort _ xs

end Groups

/-! ## One step of the scan -/

section Scan

variable {β : Type} {cmp : β → β → Ordering}

/-- The scan starts a run at an element when there is no current run. -/
theorem countRun_of_none {s : RunCount β} (current : s.curFirst = none) (w : β) (i : Nat) :
    countRun cmp s (w, i) =
      if 1 > s.maxCount then ⟨some (i, w), 1, i, 1⟩
      else { s with curFirst := some (i, w), curCount := 1 } := by
  simp only [countRun, current]
  split <;> rfl

/-- The scan starts a run at an element unequal to the first of the current run. -/
theorem countRun_of_ne {s : RunCount β} {f : Nat} {x w : β} (current : s.curFirst = some (f, x))
    (differ : cmp x w ≠ .eq) (i : Nat) :
    countRun cmp s (w, i) =
      if 1 > s.maxCount then ⟨some (i, w), 1, i, 1⟩
      else { s with curFirst := some (i, w), curCount := 1 } := by
  simp only [countRun, current, ne_eq, differ, not_false_eq_true, if_true]
  split <;> rfl

/-- The scan extends the current run with an element equal to its first. -/
theorem countRun_of_eq {s : RunCount β} {f : Nat} {x w : β} (current : s.curFirst = some (f, x))
    (same : cmp x w = .eq) (i : Nat) :
    countRun cmp s (w, i) =
      if s.curCount + 1 > s.maxCount then ⟨some (f, x), s.curCount + 1, f, s.curCount + 1⟩
      else { s with curCount := s.curCount + 1 } := by
  simp only [countRun, current, ne_eq, same, not_true_eq_false, if_false]
  split <;> rfl

/--
What the scan knows after a prefix `ys` of a sorted list: the current run starts a group and
reaches the end of `ys`, the best run is a whole group of the largest size, and every element
before the best run is in a smaller group.
-/
structure ScanState (cmp : β → β → Ordering) (ys : List β) (s : RunCount β) : Prop where
  current : ∃ pre x rest, ys = pre ++ x :: rest ∧ s.curFirst = some (pre.length, x) ∧
    s.curCount = rest.length + 1 ∧ (∀ y ∈ pre, cmp y x ≠ .eq) ∧ ∀ y ∈ rest, cmp x y = .eq
  best : ∃ pre x rest post, ys = pre ++ x :: rest ++ post ∧ s.maxFirstID = pre.length ∧
    s.maxCount = rest.length + 1 ∧ (∀ y ∈ rest, cmp x y = .eq) ∧
    groupSize cmp ys x = s.maxCount ∧ ∀ y ∈ pre, groupSize cmp ys y < s.maxCount
  largest : ∀ y ∈ ys, groupSize cmp ys y ≤ s.maxCount

variable [Std.TransCmp cmp]

/-- The first element is a run of its own and the best so far. -/
theorem ScanState.first (w : β) : ScanState cmp [w] (countRun cmp ⟨none, 0, -1, 0⟩ (w, 0)) := by
  rw [countRun_of_none rfl, if_pos Nat.one_pos]
  have size : groupSize cmp [w] w = 1 := by
    simp [groupSize, Std.ReflCmp.compare_self]
  refine ⟨⟨[], w, [], rfl, rfl, rfl, by simp, by simp⟩,
    ⟨[], w, [], [], rfl, rfl, rfl, by simp, size, by simp⟩, ?_⟩
  intro y member
  rw [List.mem_singleton.mp member, size]

/-- An element unequal to the current run starts a new run; the best run stays. -/
theorem ScanState.restart {ys : List β} {s : RunCount β} {w : β} (state : ScanState cmp ys s)
    (sorted : SortedBy cmp (ys ++ [w])) {x : β} {f : Nat} (current : s.curFirst = some (f, x))
    (differ : cmp x w ≠ .eq) :
    ScanState cmp (ys ++ [w]) (countRun cmp s (w, ys.length)) := by
  obtain ⟨pre, x', rest, hys, current', _, before, run⟩ := state.current
  obtain rfl : x = x' := by rw [current] at current'; cases current'; rfl
  obtain ⟨pre', z, rest', post', hys', maxID, maxC, runz, sizez, smaller⟩ := state.best
  have after : ∀ y ∈ ys, cmp y w ≠ .gt := fun y member =>
    (List.pairwise_append.mp sorted).2.2 y member w List.mem_cons_self
  -- No element so far equals `w`: one that did would make `x`, between it and `w`, equal too.
  have fresh : ∀ y ∈ ys, cmp y w ≠ .eq := by
    intro y member same
    rw [hys] at member after sorted
    rcases List.mem_append.mp member with early | inRun
    · have yx : cmp y x = .eq := eq_of_between
        ((List.pairwise_append.mp (List.pairwise_append.mp sorted).1).2.2 y early x
          List.mem_cons_self)
        (after x (List.mem_append_right _ List.mem_cons_self)) same
      exact before y early yx
    · rcases List.mem_cons.mp inRun with rfl | later
      · exact differ same
      · exact differ (Std.TransCmp.eq_trans (run y later) same)
  have kept : ∀ y ∈ ys, groupSize cmp (ys ++ [w]) y = groupSize cmp ys y :=
    fun y member => groupSize_append_of_ne (fresh y member)
  have alone : groupSize cmp (ys ++ [w]) w = 1 := by
    have none : groupSize cmp ys w = 0 := List.countP_eq_zero.mpr fun y member same =>
      fresh y member (Std.OrientedCmp.eq_symm (beq_iff_eq.mp same))
    rw [groupSize_append_of_eq (Std.ReflCmp.compare_self), none]
  rw [countRun_of_ne current differ, if_neg (by omega)]
  refine ⟨⟨ys, w, [], rfl, rfl, rfl, fresh, by simp⟩,
    ⟨pre', z, rest', post' ++ [w], by simp [hys'], maxID, maxC, runz, ?_, ?_⟩, ?_⟩
  · rw [kept z (by simp [hys']), sizez]
  · intro y member
    rw [kept y (by simp [hys', member])]
    exact smaller y member
  · intro y member
    rcases List.mem_append.mp member with old | new
    · rw [kept y old]
      exact state.largest y old
    · rw [List.mem_singleton.mp new, alone, maxC]
      omega

/-- An element equal to the current run extends it past the best: it becomes the best. -/
theorem ScanState.grow {ys : List β} {s : RunCount β} {w : β} (state : ScanState cmp ys s)
    {x : β} {f : Nat} (current : s.curFirst = some (f, x)) (same : cmp x w = .eq)
    (grows : s.curCount + 1 > s.maxCount) :
    ScanState cmp (ys ++ [w]) ⟨some (f, x), s.curCount + 1, f, s.curCount + 1⟩ := by
  obtain ⟨pre, x', rest, hys, current', count, before, run⟩ := state.current
  obtain ⟨rfl, rfl⟩ : f = pre.length ∧ x = x' := by
    rw [current] at current'; cases current'; exact ⟨rfl, rfl⟩
  have run' : ∀ y ∈ rest ++ [w], cmp x y = .eq := by
    intro y member
    rcases List.mem_append.mp member with old | new
    · exact run y old
    · rw [List.mem_singleton.mp new]; exact same
  have size : groupSize cmp (ys ++ [w]) x = s.curCount + 1 := by
    rw [groupSize_append_of_eq same, hys, groupSize_run before run, count]
  -- What equals `w` equals `x`, and is in the grown group.
  have joined : ∀ y, cmp y w = .eq → groupSize cmp (ys ++ [w]) y = s.curCount + 1 := by
    intro y yw
    rw [groupSize_congr (Std.TransCmp.eq_trans yw (Std.OrientedCmp.eq_symm same)), size]
  have others : ∀ y ∈ ys, cmp y w ≠ .eq → groupSize cmp (ys ++ [w]) y < s.curCount + 1 := by
    intro y member yw
    rw [groupSize_append_of_ne yw]
    have := state.largest y member
    omega
  refine ⟨⟨pre, x, rest ++ [w], by simp [hys], rfl, by simp [count], before, run'⟩,
    ⟨pre, x, rest ++ [w], [], by simp [hys], rfl, by simp [count], run', size, ?_⟩, ?_⟩
  · intro y early
    refine others y (by simp [hys, early]) fun yw => before y early ?_
    exact Std.TransCmp.eq_trans yw (Std.OrientedCmp.eq_symm same)
  · intro y member
    by_cases yw : cmp y w = .eq
    · rw [joined y yw]
    · rcases List.mem_append.mp member with old | new
      · exact Nat.le_of_lt (others y old yw)
      · rw [List.mem_singleton.mp new] at yw
        exact absurd Std.ReflCmp.compare_self yw

/-- An element equal to the current run extends it; short of the best, the best stays. -/
theorem ScanState.extend {ys : List β} {s : RunCount β} {w : β} (state : ScanState cmp ys s)
    (sorted : SortedBy cmp (ys ++ [w])) {x : β} {f : Nat} (current : s.curFirst = some (f, x))
    (same : cmp x w = .eq) (short : ¬ s.curCount + 1 > s.maxCount) :
    ScanState cmp (ys ++ [w]) { s with curCount := s.curCount + 1 } := by
  obtain ⟨pre, x', rest, hys, current', count, before, run⟩ := state.current
  obtain rfl : x = x' := by rw [current] at current'; cases current'; rfl
  obtain ⟨pre', z, rest', post', hys', maxID, maxC, runz, sizez, smaller⟩ := state.best
  have after : ∀ y ∈ ys, cmp y w ≠ .gt := fun y member =>
    (List.pairwise_append.mp sorted).2.2 y member w List.mem_cons_self
  have current_size : groupSize cmp ys x = s.curCount := by
    rw [hys, groupSize_run before run, count]
  -- The best run is not `x`'s group, which is smaller than it.
  have best_other : cmp z w ≠ .eq := by
    intro zw
    have zx := Std.TransCmp.eq_trans zw (Std.OrientedCmp.eq_symm same)
    rw [groupSize_congr zx, current_size] at sizez
    omega
  -- Nothing before the best run equals `w`: the best run's first element lies between them.
  have before_best : ∀ y ∈ pre', cmp y w ≠ .eq := by
    intro y early yw
    have sorted_ys := (List.pairwise_append.mp sorted).1
    rw [hys'] at sorted_ys
    have yz := (List.pairwise_append.mp
      (List.pairwise_append.mp sorted_ys).1).2.2 y early z List.mem_cons_self
    have zw := after z (by simp [hys'])
    exact best_other (Std.TransCmp.eq_trans
      (Std.OrientedCmp.eq_symm (eq_of_between yz zw yw)) yw)
  have run' : ∀ y ∈ rest ++ [w], cmp x y = .eq := by
    intro y member
    rcases List.mem_append.mp member with old | new
    · exact run y old
    · rw [List.mem_singleton.mp new]; exact same
  refine ⟨⟨pre, x, rest ++ [w], by simp [hys], current', by simp [count], before, run'⟩,
    ⟨pre', z, rest', post' ++ [w], by simp [hys'], maxID, maxC, runz, ?_, ?_⟩, ?_⟩
  · rw [groupSize_append_of_ne best_other, sizez]
  · intro y early
    rw [groupSize_append_of_ne (before_best y early)]
    exact smaller y early
  · intro y member
    show groupSize cmp (ys ++ [w]) y ≤ s.maxCount
    by_cases yw : cmp y w = .eq
    · -- `y` is in `x`'s grown group, which is at most the best.
      rw [groupSize_congr (Std.TransCmp.eq_trans yw (Std.OrientedCmp.eq_symm same)),
        groupSize_append_of_eq same, current_size]
      omega
    · rcases List.mem_append.mp member with old | new
      · rw [groupSize_append_of_ne yw]
        exact state.largest y old
      · rw [List.mem_singleton.mp new] at yw
        exact absurd Std.ReflCmp.compare_self yw

/-- One step of the scan keeps what it knows. -/
theorem ScanState.step {ys : List β} {s : RunCount β} {w : β} (state : ScanState cmp ys s)
    (sorted : SortedBy cmp (ys ++ [w])) :
    ScanState cmp (ys ++ [w]) (countRun cmp s (w, ys.length)) := by
  obtain ⟨pre, x, rest, -, current, -⟩ := state.current
  by_cases same : cmp x w = .eq
  · rw [countRun_of_eq current same]
    split_ifs with grows
    · exact state.grow current same grows
    · exact state.extend sorted current same grows
  · exact state.restart sorted current same

/-- The scan over a nonempty sorted list ends knowing what `ScanState` says of the whole list. -/
theorem scanState_foldl (ys : List β) (sorted : SortedBy cmp ys) (nonempty : ys ≠ []) :
    ScanState cmp ys (ys.zipIdx.foldl (countRun cmp) ⟨none, 0, -1, 0⟩) := by
  induction ys using List.reverseRecOn with
  | nil => exact absurd rfl nonempty
  | append_singleton ys w ih =>
    rw [List.zipIdx_append, List.foldl_append]
    by_cases empty : ys = []
    · subst empty
      exact ScanState.first w
    · have state := ih (List.pairwise_append.mp sorted).1 empty
      simpa using state.step sorted

/-- On a sorted list the scan answers the largest group and where the first of that size starts. -/
theorem howManyMaxConsensus_largest {xs : List β} (sorted : SortedBy cmp xs) :
    LargestGroup cmp xs (howManyMaxConsensus cmp xs) := by
  by_cases empty : xs = []
  · subst empty
    exact ⟨by simp [howManyMaxConsensus], fun nonempty => absurd rfl nonempty⟩
  · obtain ⟨pre, x, rest, post, hxs, maxID, maxC, run, size, smaller⟩ :=
      (scanState_foldl xs sorted empty).best
    have largest := (scanState_foldl xs sorted empty).largest
    refine ⟨⟨fun nonempty => absurd nonempty empty, fun answer => ?_⟩, fun _ => ?_⟩
    · -- A nonempty scan counts at least one element.
      simp only [howManyMaxConsensus, Prod.mk.injEq] at answer
      omega
    · refine ⟨pre, x, rest, post, hxs, ?_, run, by rw [size, maxC], ?_, ?_⟩
      · simp only [howManyMaxConsensus, maxID, maxC]
      · intro y member
        rw [← maxC]
        exact largest y member
      · intro y early
        rw [← maxC]
        exact smaller y early

end Scan

/-! ## The two comparators -/

/-- Hash lists of one length compare as lists do. -/
theorem compareHashLists_eq_compare {xs ys : List Bytes} (lengths : xs.length = ys.length) :
    compareHashLists xs ys = compare xs ys := by
  induction xs generalizing ys with
  | nil => cases ys <;> simp_all [compareHashLists]
  | cons x xs ih =>
    cases ys with
    | nil => simp at lengths
    | cons y ys =>
      rw [List.compare_eq_compareLex, List.compareLex_cons_cons, ← List.compare_eq_compareLex,
        ← ih (by simpa using lengths)]
      -- Go tests the pair for equality first, then compares it; the order does both at once.
      by_cases same : x = y
      · simp [compareHashLists, same, Std.ReflCmp.compare_self]
      · have differ : compare x y ≠ .eq := fun eq => same (Std.LawfulEqCmp.eq_of_compare eq)
        rw [compareHashLists, if_neg same, bytesCompare_eq_compare]
        cases order : compare x y <;> simp_all

/-- Peers compare by the length of their hash lists first and the lists second. -/
theorem CompareSyncPeerConfigByblockHashes_eq {α : Type} :
    (CompareSyncPeerConfigByblockHashes : SyncPeerConfig α → SyncPeerConfig α → Ordering) =
      compareLex (compareBy compare fun a => a.blockHashes.length)
        (compareBy compare SyncPeerConfig.blockHashes) := by
  funext a b
  simp only [CompareSyncPeerConfigByblockHashes, compareLex, compareBy]
  by_cases lengths : a.blockHashes.length = b.blockHashes.length
  · simp [lengths, compareHashLists_eq_compare lengths]
  · rcases Nat.lt_or_gt_of_ne lengths with shorter | longer
    · simp [lengths, shorter, Nat.compare_eq_lt.mpr shorter]
    · simp [lengths, Nat.not_lt.mpr longer.le, Nat.compare_eq_gt.mpr longer]

instance CompareSyncPeerConfigByblockHashes_trans {α : Type} :
    Std.TransCmp (CompareSyncPeerConfigByblockHashes (α := α)) := by
  rw [CompareSyncPeerConfigByblockHashes_eq]
  infer_instance

/-- Blocks compare by the bytes of their hashes. -/
theorem CompareBlockByHash_eq (HeaderHash : Header → Hash) :
    CompareBlockByHash HeaderHash = compareBy compare fun b => (HeaderHash b.header).bytes := by
  funext a b
  simp only [CompareBlockByHash, compareBy, bytesCompare_eq_compare]

instance CompareBlockByHash_trans (HeaderHash : Header → Hash) :
    Std.TransCmp (CompareBlockByHash HeaderHash) := by
  rw [CompareBlockByHash_eq]
  infer_instance

/-! ## The scan of peers and of blocks -/

/-- Two peers that agree and one that answered another hash, in sorted order. -/
def agreeingPeers : List (SyncPeerConfig Nat) := [⟨0, [[1]], []⟩, ⟨1, [[1]], []⟩, ⟨2, [[2]], []⟩]

/--
On peers sorted by their hash lists, and on blocks sorted by their hashes, the longest-run scan
answers the largest group and where the first group of that size starts. The peer comparator is a
total preorder whose `0` means equal hash lists, so the code's sort puts each group in one run.
-/
theorem getHowManyMaxConsensus_largest_group {α : Type} (peers : List (SyncPeerConfig α))
    (sortedPeers : SortedBy CompareSyncPeerConfigByblockHashes peers)
    (HeaderHash : Header → Hash) (blocks : List Block)
    (sortedBlocks : SortedBy (CompareBlockByHash HeaderHash) blocks) :
    LargestGroup CompareSyncPeerConfigByblockHashes peers (getHowManyMaxConsensus peers) ∧
      LargestGroup (CompareBlockByHash HeaderHash) blocks
        (GetHowManyMaxConsensus HeaderHash blocks) ∧
      Std.TransCmp (CompareSyncPeerConfigByblockHashes (α := α)) ∧
      (∀ a b : SyncPeerConfig α,
        CompareSyncPeerConfigByblockHashes a b = .eq ↔ a.blockHashes = b.blockHashes) ∧
      ∀ unsorted : List (SyncPeerConfig α), GroupsContiguous CompareSyncPeerConfigByblockHashes
        (unsorted.insertionSort fun a b => CompareSyncPeerConfigByblockHashes a b ≠ .gt) :=
  ⟨howManyMaxConsensus_largest sortedPeers, howManyMaxConsensus_largest sortedBlocks,
    inferInstance, fun _ _ => CompareSyncPeerConfigByblockHashes_eq_iff,
    fun unsorted => (sortedBy_insertionSort unsorted).groupsContiguous⟩

theorem getHowManyMaxConsensus_agreeing_peers :
    SortedBy CompareSyncPeerConfigByblockHashes agreeingPeers ∧
      SortedBy (CompareBlockByHash Ledger.headerHash) [Ledger.child] ∧
      LargestGroup CompareSyncPeerConfigByblockHashes agreeingPeers
        (getHowManyMaxConsensus agreeingPeers) ∧
      LargestGroup (CompareBlockByHash Ledger.headerHash) [Ledger.child]
        (GetHowManyMaxConsensus Ledger.headerHash [Ledger.child]) ∧
      Std.TransCmp (CompareSyncPeerConfigByblockHashes (α := Nat)) ∧
      (∀ a b : SyncPeerConfig Nat,
        CompareSyncPeerConfigByblockHashes a b = .eq ↔ a.blockHashes = b.blockHashes) ∧
      ∀ unsorted : List (SyncPeerConfig Nat), GroupsContiguous CompareSyncPeerConfigByblockHashes
        (unsorted.insertionSort fun a b => CompareSyncPeerConfigByblockHashes a b ≠ .gt) :=
  have sorted : SortedBy CompareSyncPeerConfigByblockHashes agreeingPeers := by decide
  have single : SortedBy (CompareBlockByHash Ledger.headerHash) [Ledger.child] :=
    List.pairwise_singleton _ _
  ⟨sorted, single, getHowManyMaxConsensus_largest_group agreeingPeers sorted Ledger.headerHash
    [Ledger.child] single⟩

end StateSync

end Harmony
