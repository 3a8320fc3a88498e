import Harmony.Lib.GoHeap

/-!
Go's `sort.Search`: a binary search for the first index in `[0, n)` at which a predicate holds,
for a predicate that is false and then true. If the predicate holds nowhere, it returns `n`.

Go's `sort.Slice` and `sort.Sort`, as Go 1.12 runs them: an introsort that partitions by a median
of three (a ninther on more than 40 elements), falls back to a heapsort past its depth bound, and
finishes segments of at most 12 elements with a ShellSort pass of gap 6 and an insertion sort. The
slice is a list, `Less` and `Swap` read and exchange positions of it, and every loop runs on a
count of the iterations it can still make. The sort is not stable.
-/

namespace Go

/--
The loop of `sort.Search` on the window `[i, j)`: the answer lies in it, every index below `i`
fails, and every index from `j` on holds.
-/
def searchFrom (f : Nat → Bool) (i j : Nat) : Nat :=
  if i < j then
    let h := (i + j) / 2
    if !f h then searchFrom f (h + 1) j else searchFrom f i h
  else i
termination_by j - i

/-- Go's `sort.Search(n, f)`. -/
def sortSearch (n : Nat) (f : Nat → Bool) : Nat := searchFrom f 0 n

/--
The search finds the boundary `k` of a window whose indices fail below `k` and hold from `k` on:
each probe on one side of `k` moves the window's edge to that side.
-/
theorem searchFrom_eq {f : Nat → Bool} {k : Nat} :
    ∀ {i j : Nat}, i ≤ k → k ≤ j → (∀ m, i ≤ m → m < k → f m = false) →
      (∀ m, k ≤ m → m < j → f m = true) → searchFrom f i j = k := by
  intro i j
  induction i, j using searchFrom.induct f with
  | case1 i j wide h failed ih =>
    intro low high below above
    -- A failing probe lies below the boundary.
    have probe : h < k := by
      by_contra reached
      have := above h (by omega) (by omega)
      simp_all
    rw [searchFrom, if_pos wide, if_pos failed]
    exact ih (by omega) high (fun m _ bound => below m (by omega) bound) above
  | case2 i j wide h held ih =>
    intro low high below above
    -- A holding probe lies at or above the boundary.
    have probe : k ≤ h := by
      by_contra short
      have := below h (by omega) (by omega)
      simp_all
    rw [searchFrom, if_pos wide, if_neg held]
    exact ih low probe below (fun m bound _ => above m bound (by omega))
  | case3 i j closed =>
    intro low high _ _
    rw [searchFrom, if_neg closed]
    omega

/-- `sort.Search` returns the first index at which a false-then-true predicate holds. -/
theorem sortSearch_eq {n : Nat} {f : Nat → Bool} {k : Nat} (within : k ≤ n)
    (below : ∀ m, m < k → f m = false) (above : ∀ m, k ≤ m → m < n → f m = true) :
    sortSearch n f = k :=
  searchFrom_eq (Nat.zero_le k) within (fun m _ bound => below m bound) above

/-! ## `sort.Slice` -/

namespace Sorting

open Go.Heap (swap lessAt)

variable {α : Type} (less : α → α → Bool)

/--
The inner loop of `insertionSort`, `for j := i; j > a && Less(j, j-1); j--`, with `j = a + k`:
the element at `j` moves down while it is less than the one before it.
-/
def insertDown (a : Nat) : Nat → List α → List α
  | 0, data => data
  | k + 1, data =>
    if lessAt less data (a + k + 1) (a + k) then insertDown a k (swap data (a + k + 1) (a + k))
    else data

/-- Go's `insertionSort(data, a, b)`. -/
def insertionSort (data : List α) (a b : Nat) : List α :=
  (List.range' (a + 1) (b - (a + 1))).foldl (fun data i => insertDown less a (i - a) data) data

/--
The loop of `siftDown(data, lo, hi, first)` on the heap at `first`: the element at `root` moves
down to its greater child while it is less than it. The root grows at every step and stays below
`hi`, so `hi` steps suffice.
-/
def siftDownLoop (hi first : Nat) : Nat → List α → Nat → List α
  | 0, data, _ => data
  | fuel + 1, data, root =>
    let child := 2 * root + 1
    if hi ≤ child then data
    else
      let child :=
        if child + 1 < hi ∧ lessAt less data (first + child) (first + (child + 1)) then child + 1
        else child
      if !lessAt less data (first + root) (first + child) then data
      else siftDownLoop hi first fuel (swap data (first + root) (first + child)) child

/-- Go's `siftDown(data, lo, hi, first)`. -/
def siftDown (data : List α) (lo hi first : Nat) : List α := siftDownLoop less hi first hi data lo

/--
Go's `heapSort(data, a, b)`: a heap with the greatest element at the top is built over `[a, b)`,
and its top is swapped to the end of the shrinking heap, `hi - 1` first.
-/
def heapSort (data : List α) (a b : Nat) : List α :=
  let first := a
  let lo := 0
  let hi := b - a
  -- `for i := (hi - 1) / 2; i >= 0; i--`
  let data := (List.range ((hi - 1) / 2 + 1)).reverse.foldl
    (fun data i => siftDown less data i hi first) data
  -- `for i := hi - 1; i >= 0; i--`
  (List.range hi).reverse.foldl
    (fun data i => siftDown less (swap data first (first + i)) lo i first) data

/-- Go's `medianOfThree(data, m1, m0, m2)`: the median of the three moves to `m1`. -/
def medianOfThree (data : List α) (m1 m0 m2 : Nat) : List α :=
  let data := if lessAt less data m1 m0 then swap data m1 m0 else data
  if lessAt less data m2 m1 then
    let data := swap data m2 m1
    if lessAt less data m1 m0 then swap data m1 m0 else data
  else data

/-- `for ; i < j && p(i); i++ {}`: the first position from `i` below `j` where `p` fails, or `j`. -/
def scanUp (p : Nat → Bool) (j : Nat) : Nat → Nat → Nat
  | 0, i => i
  | fuel + 1, i => if i < j ∧ p i then scanUp p j fuel (i + 1) else i

/-- `for ; i < j && p(j-1); j-- {}`: the last position down to `i` whose predecessor fails `p`. -/
def scanDown (p : Nat → Bool) (i : Nat) : Nat → Nat → Nat
  | 0, j => j
  | fuel + 1, j => if i < j ∧ p (j - 1) then scanDown p i fuel (j - 1) else j

/--
The main loop of `doPivot`: `b` passes elements not greater than the pivot, `c` passes elements
greater than it from the top, and an out-of-place pair is exchanged. The gap `c - b` shrinks by
two at every exchange.
-/
def partitionLoop (pivot : Nat) : Nat → List α × Nat × Nat → List α × Nat × Nat
  | 0, state => state
  | fuel + 1, (data, b, c) =>
    let b := scanUp (fun b => !lessAt less data pivot b) c (c - b) b
    let c := scanDown (fun i => lessAt less data pivot i) b (c - b) c
    if c ≤ b then (data, b, c)
    else partitionLoop pivot fuel (swap data b (c - 1), b + 1, c - 1)

/--
The loop of `doPivot` that protects against many duplicates: elements equal to the pivot are
gathered at the top of `[a, b)`, elements less than it at the bottom.
-/
def protectLoop (pivot : Nat) : Nat → List α × Nat × Nat → List α × Nat × Nat
  | 0, state => state
  | fuel + 1, (data, a, b) =>
    let b := scanDown (fun i => !lessAt less data i pivot) a (b - a) b
    let a := scanUp (fun i => lessAt less data i pivot) b (b - a) a
    if b ≤ a then (data, a, b)
    else protectLoop pivot fuel (swap data a (b - 1), a + 1, b - 1)

/--
The test of `doPivot` for points equal to the pivot, when few elements are greater than it: the
last element, the one below `b` and the middle one each join the block `[b, c)` of elements
equal to the pivot when they are. It answers whether two of them did.
-/
def testDuplicates (data : List α) (pivot m b c hi : Nat) : List α × Nat × Nat × Bool :=
  let (data, c, dups) :=
    if !lessAt less data pivot (hi - 1) then (swap data c (hi - 1), c + 1, 1) else (data, c, 0)
  let (b, dups) := if !lessAt less data (b - 1) pivot then (b - 1, dups + 1) else (b, dups)
  let (data, b, dups) :=
    if !lessAt less data m pivot then (swap data m (b - 1), b - 1, dups + 1) else (data, b, dups)
  (data, b, c, decide (1 < dups))

/--
Go's `doPivot(data, lo, hi)`: `[lo, hi)` partitioned around a pivot, with the bounds `midlo` and
`midhi` of the block of elements equal to it.
-/
def doPivot (data : List α) (lo hi : Nat) : List α × Nat × Nat :=
  let m := (lo + hi) / 2
  -- Tukey's ninther, the median of three medians of three.
  let data :=
    if 40 < hi - lo then
      let s := (hi - lo) / 8
      let data := medianOfThree less data lo (lo + s) (lo + 2 * s)
      let data := medianOfThree less data m (m - s) (m + s)
      medianOfThree less data (hi - 1) (hi - 1 - s) (hi - 1 - 2 * s)
    else data
  let data := medianOfThree less data lo m (hi - 1)
  let pivot := lo
  let a := scanUp (fun a => lessAt less data a pivot) (hi - 1) (hi - 1 - (lo + 1)) (lo + 1)
  let (data, b, c) := partitionLoop less pivot (hi - lo) (data, a, hi - 1)
  let (data, b, c, protect) :=
    if !decide (hi - c < 5) && decide (hi - c < (hi - lo) / 4) then
      testDuplicates less data pivot m b c hi
    else (data, b, c, decide (hi - c < 5))
  let (data, _, b) := if protect then protectLoop less pivot (hi - lo) (data, a, b) else (data, a, b)
  -- The pivot goes to the bottom of the block of elements equal to it.
  (swap data pivot (b - 1), b - 1, c)

/-- The end of `quickSort` on at most 12 elements: a ShellSort pass with gap 6, then insertion. -/
def shellInsertionSort (data : List α) (a b : Nat) : List α :=
  if 1 < b - a then
    let data := (List.range' (a + 6) (b - (a + 6))).foldl
      (fun data i => if lessAt less data i (i - 6) then swap data i (i - 6) else data) data
    insertionSort less data a b
  else data

/--
Go's `quickSort(data, a, b, maxDepth)`. Go's loop goes on with the larger side and the depth it
decremented, as the second recursive call here does.
-/
def quickSort : Nat → List α → Nat → Nat → List α
  | 0, data, a, b => if 12 < b - a then heapSort less data a b else shellInsertionSort less data a b
  | maxDepth + 1, data, a, b =>
    if 12 < b - a then
      let (data, mlo, mhi) := doPivot less data a b
      if mlo - a < b - mhi then quickSort maxDepth (quickSort maxDepth data a mlo) mhi b
      else quickSort maxDepth (quickSort maxDepth data mhi b) a mlo
    else shellInsertionSort less data a b

/-- The bits of `i`, the iterations of `maxDepth`'s loop `for i := n; i > 0; i >>= 1`. -/
def bitCount : Nat → Nat → Nat
  | 0, _ => 0
  | fuel + 1, i => if i = 0 then 0 else bitCount fuel (i / 2) + 1

/-- Go's `maxDepth(n)`: twice the number of bits of `n`. -/
def maxDepth (n : Nat) : Nat := 2 * bitCount n n

/--
Go's `sort.Slice(slice, less)`, and `sort.Sort` on the same `Less` and `Swap`: the whole slice
sorted by quicksort.
-/
def Slice (data : List α) : List α := quickSort less (maxDepth data.length) data 0 data.length

end Sorting

end Go
