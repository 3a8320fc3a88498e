import Harmony.Core.TxList

/-!
Go's `txSortedMap` as it stores its transactions (`core/tx_list.go`): the map from nonce to
transaction, the heap of its nonces (`nonceHeap`), and the cache of the sorted order, which the
operations patch by slicing or drop. `Harmony.Core.txSortedMap` is the sorted order the three
stand for.

Go ranges over a map in a random order; the model takes the map's entries in their order.
`sort.Sort` is not stable, but it sorts distinct nonces here, whose order is unique, so a merge
sort stands for it. A lookup of a missing nonce gives Go's `nil`, which is `none` in the lists
of returned transactions. Nonces are `uint64`: `next++` in `Ready` could wrap only past the
largest nonce, when the heap is already empty, so they are natural numbers here.
-/

namespace Harmony

open Go

namespace Core

namespace Indexed

/-- `nonceHeap.Less`. -/
def nonceLess (a b : Nat) : Bool := decide (a < b)

/-- Go's `txSortedMap`. -/
structure txSortedMap where
  /-- The transactions by nonce. -/
  items : AList fun _ : Nat => Transaction
  /-- The nonces of the transactions, in heap order. -/
  index : List Nat
  /-- The transactions sorted by nonce, or `nil`. -/
  cache : Option (List Transaction)

/-- The map's values in the order `range` visits them. -/
def mapValues (items : AList fun _ : Nat => Transaction) : List Transaction :=
  items.entries.map Sigma.snd

namespace txSortedMap

/-- Go's `newTxSortedMap`. -/
def new : txSortedMap := ⟨∅, [], none⟩

/-- Go's `Get`. -/
def Get (m : txSortedMap) (nonce : Nat) : Option Transaction := m.items.lookup nonce

/-- Go's `Put`: a new nonce goes on the heap, and the cache is dropped. -/
def Put (m : txSortedMap) (tx : Transaction) : txSortedMap :=
  let nonce := tx.AccountNonce
  let index := if (m.items.lookup nonce).isNone then Heap.Push nonceLess m.index nonce else m.index
  ⟨m.items.insert nonce tx, index, none⟩

/-- The loop of `Forward`: pop the heap while its least nonce is below the threshold. -/
def forwardLoop (threshold : Nat) :
    Nat → (AList fun _ : Nat => Transaction) → List Nat → List (Option Transaction) →
      (AList fun _ : Nat => Transaction) × List Nat × List (Option Transaction)
  | 0, items, index, removed => (items, index, removed)
  | fuel + 1, items, index, removed =>
    match index.head? with
    | none => (items, index, removed)
    | some least =>
      if least < threshold then
        match Heap.Pop nonceLess index with
        | none => (items, index, removed)
        | some (nonce, index) =>
          forwardLoop threshold fuel (items.erase nonce) index (removed ++ [items.lookup nonce])
      else (items, index, removed)

/--
Go's `Forward`: remove the transactions below a nonce, lowest first, and shift the cache's front
by as many. Slicing past the cache's end panics.
-/
def Forward (m : txSortedMap) (threshold : Nat) :
    Except String (List (Option Transaction) × txSortedMap) :=
  let (items, index, removed) := forwardLoop threshold m.index.length m.items m.index []
  match m.cache with
  | none => .ok (removed, ⟨items, index, none⟩)
  | some cache =>
    match sliceFrom? cache removed.length with
    | none => .error "slice bounds out of range"
    | some cache => .ok (removed, ⟨items, index, some cache⟩)

/--
Go's `Filter`: remove the transactions a filter selects, in map order. If any went, the heap is
rebuilt from the remaining nonces in map order and the cache is dropped.
-/
def Filter (m : txSortedMap) (filter : Transaction → Bool) : List Transaction × txSortedMap :=
  let removed := (m.items.entries.filter fun entry => filter entry.2).map Sigma.snd
  let items : AList fun _ : Nat => Transaction :=
    ⟨m.items.entries.filter fun entry => !filter entry.2,
      m.items.nodupKeys.sublist List.filter_sublist⟩
  if 0 < removed.length then (removed, ⟨items, Heap.Init nonceLess items.keys, none⟩)
  else (removed, ⟨items, m.index, m.cache⟩)

/-- The loop of `Cap`: drop the transaction of the sorted index's last nonce while too many. -/
def capLoop (threshold : Nat) (index : List Nat) :
    Nat → (AList fun _ : Nat => Transaction) → List (Option Transaction) →
      Except String ((AList fun _ : Nat => Transaction) × List (Option Transaction))
  | 0, items, drops => .ok (items, drops)
  | size + 1, items, drops =>
    if size + 1 ≤ threshold then .ok (items, drops)
    else match index[size]? with
      | none => .error "index out of range"
      | some nonce => capLoop threshold index size (items.erase nonce) (drops ++ [items.lookup nonce])

/--
Go's `Cap`: keep the `threshold` lowest nonces and return the rest, highest first. The index is
sorted, cut to `threshold` and made a heap again, and the cache's back is shifted.
-/
def Cap (m : txSortedMap) (threshold : Nat) :
    Except String (List (Option Transaction) × txSortedMap) :=
  if m.items.entries.length ≤ threshold then .ok ([], m)
  else do
    let sorted := m.index.mergeSort fun a b => decide (a ≤ b)
    let (items, drops) ← capLoop threshold sorted m.items.entries.length m.items []
    let index ← match slice? sorted 0 threshold with
      | none => .error "slice bounds out of range"
      | some index => .ok (Heap.Init nonceLess index)
    match m.cache with
    | none => .ok (drops, ⟨items, index, none⟩)
    | some cache =>
      if cache.length < drops.length then .error "slice bounds out of range"
      else .ok (drops, ⟨items, index, some (cache.take (cache.length - drops.length))⟩)

/--
Go's `Remove`: whether a transaction was held at the nonce; if so it goes, with its nonce taken
out of the heap at the first position that holds it, and the cache is dropped.
-/
def Remove (m : txSortedMap) (nonce : Nat) : Bool × txSortedMap :=
  match m.items.lookup nonce with
  | none => (false, m)
  | some _ =>
    let index := match m.index.idxOf? nonce with
      | none => m.index
      | some i => ((Heap.Remove nonceLess m.index i).map Prod.snd).getD m.index
    (true, ⟨m.items.erase nonce, index, none⟩)

/-- The loop of `Ready`: pop the heap while its least nonce is the next one of the run. -/
def readyLoop :
    Nat → Nat → (AList fun _ : Nat => Transaction) → List Nat → List (Option Transaction) →
      (AList fun _ : Nat => Transaction) × List Nat × List (Option Transaction)
  | 0, _, items, index, ready => (items, index, ready)
  | fuel + 1, next, items, index, ready =>
    match index.head? with
    | none => (items, index, ready)
    | some least =>
      if least = next then
        readyLoop fuel (next + 1) (items.erase next)
          (((Heap.Pop nonceLess index).map Prod.snd).getD index) (ready ++ [items.lookup next])
      else (items, index, ready)

/--
Go's `Ready`: the run of consecutive nonces from the least one, when that is at most `start`,
removed; the cache is dropped when a run is taken.
-/
def Ready (m : txSortedMap) (start : Nat) : List (Option Transaction) × txSortedMap :=
  match m.index.head? with
  | none => ([], m)
  | some least =>
    if start < least then ([], m)
    else
      let (items, index, ready) := readyLoop m.index.length least m.items m.index []
      (ready, ⟨items, index, none⟩)

/-- Go's `Len`. -/
def Len (m : txSortedMap) : Nat := m.items.entries.length

/-- Go's `Flatten`: the cache, sorted from the map's values when it was `nil`, and kept. -/
def Flatten (m : txSortedMap) : List Transaction × txSortedMap :=
  let cache := match m.cache with
    | none => (mapValues m.items).mergeSort fun a b => decide (a.AccountNonce ≤ b.AccountNonce)
    | some cache => cache
  (cache, { m with cache := some cache })

end txSortedMap

end Indexed

end Core

end Harmony
