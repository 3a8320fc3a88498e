import Mathlib

/-!
Go's `container/heap` over a slice, read as a list: `Push` appends and sifts up, `Pop` swaps the
root to the end, sifts the new root down and takes the last element off, and `Init` sifts down
every inner node from the last one up. The order is a `Less` over elements; Go's sift loops run
until they stop moving, so each takes the heap's length as fuel, which it never exhausts.
-/

namespace Go.Heap

variable {α : Type} (less : α → α → Bool)

/-- `h.Swap(i, j)`; indices out of range, which the heap never passes, leave the slice alone. -/
def swap (h : List α) (i j : Nat) : List α :=
  match h[i]?, h[j]? with
  | some a, some b => (h.set i b).set j a
  | _, _ => h

/-- `h.Less(i, j)`. -/
def lessAt (h : List α) (i j : Nat) : Bool :=
  match h[i]?, h[j]? with
  | some a, some b => less a b
  | _, _ => false

/-- The loop of `up`: move the element at `j` towards the root while it is less than its parent. -/
def upLoop : Nat → List α → Nat → List α
  | 0, h, _ => h
  | fuel + 1, h, j =>
    let i := (j - 1) / 2
    if i = j ∨ !lessAt less h j i then h else upLoop fuel (swap h i j) i

/-- Go's `up(h, j)`; the index halves at each step, so `j` steps suffice. -/
def up (h : List α) (j : Nat) : List α := upLoop less j h j

/-- The loop of `down`: move the element at `i` towards the leaves below `n`. -/
def downLoop (n : Nat) : Nat → List α → Nat → List α
  | 0, h, _ => h
  | fuel + 1, h, i =>
    let j1 := 2 * i + 1
    if n ≤ j1 then h
    else
      -- The smaller of the two children.
      let j := if j1 + 1 < n ∧ lessAt less h (j1 + 1) j1 then j1 + 1 else j1
      if !lessAt less h j i then h else downLoop n fuel (swap h i j) j

/-- Go's `down(h, i0, n)`; the index grows at each step and stays below `n`. -/
def down (h : List α) (i0 n : Nat) : List α := downLoop less n n h i0

/--
The loop of `down` with the index it stops at: Go's `down` answers whether the element moved,
`i > i0`.
-/
def downLoopAt (n : Nat) : Nat → List α → Nat → List α × Nat
  | 0, h, i => (h, i)
  | fuel + 1, h, i =>
    let j1 := 2 * i + 1
    if n ≤ j1 then (h, i)
    else
      let j := if j1 + 1 < n ∧ lessAt less h (j1 + 1) j1 then j1 + 1 else j1
      if !lessAt less h j i then (h, i) else downLoopAt n fuel (swap h i j) j

/-- Go's `heap.Init`: sift down every inner node, the last one first. -/
def Init (h : List α) : List α :=
  (List.range (h.length / 2)).reverse.foldl (fun h i => down less h i h.length) h

/-- Go's `heap.Push`. -/
def Push (h : List α) (x : α) : List α := up less (h ++ [x]) h.length

/-- Go's `heap.Pop`: the least element and the heap left; `none` on an empty heap, where Go panics. -/
def Pop (h : List α) : Option (α × List α) :=
  match h.getLast? with
  | none => none
  | some _ =>
    let h := down less (swap h 0 (h.length - 1)) 0 (h.length - 1)
    (h.getLast?).map fun x => (x, h.dropLast)

/--
Go's `heap.Remove(h, i)`: the element at `i` and the heap without it. The last element takes its
place and is sifted down or, if it did not move, up. `none` for an index out of range, where Go
panics.
-/
def Remove (h : List α) (i : Nat) : Option (α × List α) :=
  if h.length ≤ i then none
  else
    let n := h.length - 1
    let h := if n ≠ i then
        let h := swap h i n
        let (sifted, stop) := downLoopAt less n n h i
        if i < stop then sifted else up less sifted i
      else h
    (h.getLast?).map fun x => (x, h.dropLast)

end Go.Heap
