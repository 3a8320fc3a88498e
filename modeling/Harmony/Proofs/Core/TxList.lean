import Harmony.Core.TxList

/-!
The caps of a transaction list (`txList` of `core/tx_list.go`). `Add` raises `costcap` and
`gascap` to the cost and gas of what it adds, `Filter` lowers them to its limits and takes out
what is over them, and every other call only takes transactions out. So on every list a run of
calls reaches, the caps bound every transaction, and `Filter`'s short cut (nothing to do when the
caps are within the limits) skips no transaction a full scan would remove. Its strict-mode
cascade reads the lowest removed nonce off a fold from `MaxUint64`, which is the least removed
nonce because nonces are `uint64`. A transaction replaces the one holding its nonce at a price
bumped by Go's factor `100+int64(priceBump)`, which wraps negative for bumps from `2 ^ 63 - 100`.
-/

namespace Harmony

open Go

namespace Core

/-- One call on a transaction list, with its arguments. -/
inductive TxListOp where
  | Add (tx : Transaction) (priceBump : Nat)
  | Forward (threshold : Nat)
  | Filter (costLimit : Int) (gasLimit : Nat)
  | Cap (threshold : Nat)
  | Remove (tx : Transaction)
  | Ready (start : Nat)

namespace TxListOp

/-- The list a call leaves. -/
def apply (l : txList) : TxListOp → txList
  | Add tx priceBump => (l.Add tx priceBump).2.2
  | Forward threshold => (l.Forward threshold).2
  | Filter costLimit gasLimit => (l.Filter costLimit gasLimit).2.2
  | Cap threshold => (l.Cap threshold).2
  | Remove tx => (l.Remove tx).2.2
  | Ready start => (l.Ready start).2

/-- A call adds nothing, or a transaction whose nonce is a Go `uint64`. -/
def nonceFits : TxListOp → Bool
  | Add tx _ => decide (tx.AccountNonce < 2 ^ 64)
  | _ => true

end TxListOp

/-- The list a sequence of calls leaves. -/
def runOps (l : txList) (ops : List TxListOp) : txList := ops.foldl TxListOp.apply l

/-- What `Filter` removes for being over its limits: the test Go's closure makes. -/
def overLimits (costLimit : Int) (gasLimit : Nat) (tx : Transaction) : Bool :=
  decide (tx.Cost > costLimit) || decide (tx.GasLimit > gasLimit)

/--
The strict-mode cascade computed from scratch: in a strict list, the remaining transactions above
the lowest removed nonce; nothing when nothing was removed.
-/
def strictInvalids (strict : Bool) (removed remaining : List Transaction) : List Transaction :=
  match (removed.map (·.AccountNonce)).min? with
  | some lowest => if strict then remaining.filter (·.AccountNonce > lowest) else []
  | none => []

/-- Every transaction is within the list's caps and has a `uint64` nonce. -/
structure txList.Bounded (l : txList) : Prop where
  caps : ∀ tx ∈ l.txs.items, tx.Cost ≤ l.costcap ∧ tx.GasLimit ≤ l.gascap
  nonces : ∀ tx ∈ l.txs.items, tx.AccountNonce < 2 ^ 64

/-- `l'` keeps the caps of `l` and only transactions of `l`. -/
def txList.Shrinks (l l' : txList) : Prop :=
  l'.costcap = l.costcap ∧ l'.gascap = l.gascap ∧ ∀ tx ∈ l'.txs.items, tx ∈ l.txs.items

theorem txList.Bounded.shrink {l l' : txList} (bounded : l.Bounded) (shrinks : l.Shrinks l') :
    l'.Bounded := by
  obtain ⟨costcap, gascap, kept⟩ := shrinks
  refine ⟨fun tx member => ?_, fun tx member => bounded.nonces tx (kept tx member)⟩
  rw [costcap, gascap]
  exact bounded.caps tx (kept tx member)

/-! ## The calls that only take transactions out -/

namespace txSortedMap

theorem Forward_subset (m : txSortedMap) (threshold : Nat) :
    ∀ tx ∈ (m.Forward threshold).2.items, tx ∈ m.items :=
  (List.dropWhile_sublist _).subset

theorem Filter_subset (m : txSortedMap) (filter : Transaction → Bool) :
    ∀ tx ∈ (m.Filter filter).2.items, tx ∈ m.items :=
  List.filter_subset_self _

theorem Cap_subset (m : txSortedMap) (threshold : Nat) :
    ∀ tx ∈ (m.Cap threshold).2.items, tx ∈ m.items := by
  unfold Cap
  split
  · exact fun _ member => member
  · exact (List.take_sublist _ _).subset

theorem Remove_subset (m : txSortedMap) (nonce : Nat) :
    ∀ tx ∈ (m.Remove nonce).2.items, tx ∈ m.items := by
  unfold Remove
  split
  · exact fun _ member => member
  · exact List.filter_subset_self _

theorem Ready_subset (m : txSortedMap) (start : Nat) :
    ∀ tx ∈ (m.Ready start).2.items, tx ∈ m.items := by
  unfold Ready
  split
  · exact fun _ member => member
  · split
    · exact fun _ member => member
    · exact (List.drop_sublist _ _).subset

end txSortedMap

namespace txList

theorem Forward_shrinks (l : txList) (threshold : Nat) : l.Shrinks (l.Forward threshold).2 :=
  ⟨rfl, rfl, txSortedMap.Forward_subset l.txs threshold⟩

theorem Cap_shrinks (l : txList) (threshold : Nat) : l.Shrinks (l.Cap threshold).2 :=
  ⟨rfl, rfl, txSortedMap.Cap_subset l.txs threshold⟩

theorem Ready_shrinks (l : txList) (start : Nat) : l.Shrinks (l.Ready start).2 :=
  ⟨rfl, rfl, txSortedMap.Ready_subset l.txs start⟩

/-- `Remove` keeps the caps and some of the transactions. -/
theorem Remove_cases (l : txList) (tx : Transaction) :
    ∃ txs : txSortedMap, (l.Remove tx).2.2 = { l with txs } ∧ ∀ t ∈ txs.items, t ∈ l.txs.items := by
  unfold Remove
  dsimp only
  split
  · exact ⟨l.txs, rfl, fun _ member => member⟩
  · split
    · -- The strict cascade filters what the removal left.
      exact ⟨_, rfl, fun t member =>
        txSortedMap.Remove_subset _ _ t (txSortedMap.Filter_subset _ _ t member)⟩
    · exact ⟨_, rfl, txSortedMap.Remove_subset _ _⟩

theorem Remove_shrinks (l : txList) (tx : Transaction) : l.Shrinks (l.Remove tx).2.2 := by
  obtain ⟨txs, removed, kept⟩ := Remove_cases l tx
  rw [removed]
  exact ⟨rfl, rfl, kept⟩

/-! ## The calls that move the caps -/

/-- `Add` either refuses the transaction or puts it in and raises the caps to it. -/
theorem Add_cases (l : txList) (tx : Transaction) (priceBump : Nat) :
    (l.Add tx priceBump).2.2 = l ∨
      (l.Add tx priceBump).2.2 = { l with
        txs := l.txs.Put tx
        costcap := if l.costcap < tx.Cost then tx.Cost else l.costcap
        gascap := if l.gascap < tx.GasLimit then tx.GasLimit else l.gascap } := by
  unfold Add
  dsimp only
  -- Whether or not a transaction holds the nonce, the price test refuses or accepts.
  split <;> split
  · exact .inl rfl
  · exact .inr rfl
  · exact .inl rfl
  · exact .inr rfl

/-- `Add` raises the caps to what it adds, so they stay bounds. -/
theorem Add_bounded {l : txList} (bounded : l.Bounded) (tx : Transaction) (priceBump : Nat)
    (fits : tx.AccountNonce < 2 ^ 64) : (l.Add tx priceBump).2.2.Bounded := by
  rcases Add_cases l tx priceBump with refused | added
  · rw [refused]
    exact bounded
  · rw [added]
    -- A transaction of the new list is the added one or an old one; both are within the raised caps.
    refine ⟨fun t member => ?_, fun t member => ?_⟩ <;> dsimp only at member ⊢
    · rcases mem_insertByNonce member with rfl | old
      · constructor <;> split <;> omega
      · have := bounded.caps t old
        constructor <;> split <;> omega
    · rcases mem_insertByNonce member with rfl | old
      · exact fits
      · exact bounded.nonces t old

/-- The transactions `Filter` leaves are within its limits, which become the caps. -/
theorem Filter_bounded {l : txList} (bounded : l.Bounded) (costLimit : Int) (gasLimit : Nat) :
    (l.Filter costLimit gasLimit).2.2.Bounded := by
  unfold Filter
  dsimp only
  split
  · exact bounded
  · -- Whatever is left passed the filter on the limits.
    have within : ∀ t ∈ (l.txs.Filter (overLimits costLimit gasLimit)).2.items,
        t.Cost ≤ costLimit ∧ t.GasLimit ≤ gasLimit ∧ t.AccountNonce < 2 ^ 64 := by
      intro t member
      obtain ⟨old, passed⟩ := List.mem_filter.mp member
      simp only [overLimits, Bool.not_eq_true', Bool.or_eq_false_iff, decide_eq_false_iff_not,
        not_lt] at passed
      exact ⟨passed.1, passed.2, bounded.nonces t old⟩
    split
    · refine ⟨fun t member => ?_, fun t member => ?_⟩ <;>
        have := within t (txSortedMap.Filter_subset _ _ t member)
      · exact ⟨this.1, this.2.1⟩
      · exact this.2.2
    · exact ⟨fun t member => ⟨(within t member).1, (within t member).2.1⟩,
        fun t member => (within t member).2.2⟩

end txList

/-- Every call keeps the caps as bounds. -/
theorem TxListOp.apply_bounded {l : txList} (bounded : l.Bounded) {op : TxListOp}
    (fits : op.nonceFits = true) : (op.apply l).Bounded := by
  cases op with
  | Add tx priceBump => exact txList.Add_bounded bounded tx priceBump (by simpa [nonceFits] using fits)
  | Forward threshold => exact bounded.shrink (l.Forward_shrinks threshold)
  | Filter costLimit gasLimit => exact txList.Filter_bounded bounded costLimit gasLimit
  | Cap threshold => exact bounded.shrink (l.Cap_shrinks threshold)
  | Remove tx => exact bounded.shrink (l.Remove_shrinks tx)
  | Ready start => exact bounded.shrink (l.Ready_shrinks start)

/-- Every run of calls from a bounded list, adding `uint64` nonces only, keeps it bounded. -/
theorem runOps_bounded {l : txList} (bounded : l.Bounded) (ops : List TxListOp)
    (fits : ∀ op ∈ ops, op.nonceFits = true) : (runOps l ops).Bounded := by
  induction ops generalizing l with
  | nil => exact bounded
  | cons op ops ih =>
    exact ih (TxListOp.apply_bounded bounded (fits op List.mem_cons_self))
      fun op' member => fits op' (List.mem_cons_of_mem op member)

theorem txList.new_bounded (strict : Bool) : (txList.new strict).Bounded :=
  ⟨fun _ member => absurd member List.not_mem_nil, fun _ member => absurd member List.not_mem_nil⟩

/-! ## Which transaction replaces a held one -/

/-- Folding `min` from `MaxUint64` over `uint64` nonces gives the least of them. -/
theorem foldl_min_nonce {removed : List Transaction} (nonempty : removed ≠ [])
    (fits : ∀ tx ∈ removed, tx.AccountNonce < 2 ^ 64) :
    (removed.map (·.AccountNonce)).min? =
      some (removed.foldl (fun lowest tx => min lowest tx.AccountNonce) (2 ^ 64 - 1)) := by
  obtain ⟨first, rest, rfl⟩ := List.exists_cons_of_ne_nil nonempty
  have below : min (2 ^ 64 - 1) first.AccountNonce = first.AccountNonce :=
    Nat.min_eq_right (by have := fits first List.mem_cons_self; omega)
  rw [List.map_cons, List.min?_cons', List.foldl_cons, below, List.foldl_map]

/--
On a bounded list, `Filter` removes exactly the transactions over its limits, the ones a scan of
the whole list would find, and marks invalid exactly the strict cascade computed from scratch.
-/
theorem txList.Filter_spec {l : txList} (bounded : l.Bounded) (costLimit : Int) (gasLimit : Nat) :
    (l.Filter costLimit gasLimit).1 = l.Flatten.filter (overLimits costLimit gasLimit) ∧
      (l.Filter costLimit gasLimit).2.1 = strictInvalids l.strict
        (l.Flatten.filter (overLimits costLimit gasLimit))
        (l.Flatten.filter fun tx => !overLimits costLimit gasLimit tx) := by
  unfold Filter
  dsimp only
  -- The code's closure is the test `overLimits` makes.
  have closure : (fun tx : Transaction => decide (tx.Cost > costLimit) ||
      decide (tx.GasLimit > gasLimit)) = overLimits costLimit gasLimit := rfl
  rw [closure]
  split
  · -- Within the caps, within the limits: a full scan finds nothing either.
    rename_i capped
    have none : l.Flatten.filter (overLimits costLimit gasLimit) = [] := by
      refine List.filter_eq_nil_iff.mpr fun tx member => ?_
      have := bounded.caps tx member
      simp only [overLimits, Bool.or_eq_true, decide_eq_true_eq, not_or, not_lt]
      omega
    simp only [none, strictInvalids, List.map_nil, List.min?_nil, and_self]
  · have removed : (l.txs.Filter (overLimits costLimit gasLimit)).1 =
        l.Flatten.filter (overLimits costLimit gasLimit) := rfl
    split
    · rename_i cascade
      obtain ⟨strict, nonempty⟩ := cascade
      refine ⟨removed, ?_⟩
      -- The fold's lowest nonce is the least removed one.
      rw [strictInvalids, removed, @foldl_min_nonce (l.Flatten.filter (overLimits costLimit gasLimit))
        (removed ▸ nonempty) fun tx member => bounded.nonces tx (List.mem_of_mem_filter member)]
      simp [strict, txSortedMap.Filter, Flatten, txSortedMap.Flatten]
    · rename_i noCascade
      refine ⟨removed, ?_⟩
      unfold strictInvalids
      split
      · rename_i lowest found
        have : ¬ l.strict = true := fun strict => noCascade ⟨strict, fun empty => by
          rw [← removed, empty] at found
          simp at found⟩
        simp [this]
      · rfl

/-- A transfer at a nonce with a gas limit, at price 1. -/
def transferAt (nonce gas : Nat) : Transaction := ⟨nonce, 1, gas, 0, none, 0, [], 0, 0, 0⟩

/-- Two transfers added to a strict list: the one at nonce 0 needs more gas than the other. -/
def twoTransfers : List TxListOp := [.Add (transferAt 0 50000) 10, .Add (transferAt 1 21000) 10]

/-- The strict list the two transfers leave. -/
def twoTransfersList : txList := runOps (txList.new true) twoTransfers

/--
On every list a run of calls reaches from `newTxList`, adding `uint64` nonces only, the caps bound
every transaction; so `Filter` removes exactly the transactions over its limits, and in a strict
list marks invalid exactly the remaining ones above the lowest removed nonce.
-/
theorem Filter_matches_full_scan (strict : Bool) (ops : List TxListOp)
    (fits : ∀ op ∈ ops, op.nonceFits = true) {l : txList}
    (reached : runOps (txList.new strict) ops = l) (costLimit : Int) (gasLimit : Nat) :
    (∀ tx ∈ l.Flatten, tx.Cost ≤ l.costcap ∧ tx.GasLimit ≤ l.gascap) ∧
      (l.Filter costLimit gasLimit).1 = l.Flatten.filter (overLimits costLimit gasLimit) ∧
      (l.Filter costLimit gasLimit).2.1 = strictInvalids l.strict
        (l.Flatten.filter (overLimits costLimit gasLimit))
        (l.Flatten.filter fun tx => !overLimits costLimit gasLimit tx) := by
  have bounded : l.Bounded := reached ▸ runOps_bounded (txList.new_bounded strict) ops fits
  exact ⟨bounded.caps, txList.Filter_spec bounded costLimit gasLimit⟩

theorem Filter_matches_full_scan_two_transfers :
    (∀ op ∈ twoTransfers, op.nonceFits = true) ∧
      runOps (txList.new true) twoTransfers = twoTransfersList ∧
      (∀ tx ∈ twoTransfersList.Flatten,
        tx.Cost ≤ twoTransfersList.costcap ∧ tx.GasLimit ≤ twoTransfersList.gascap) ∧
      (twoTransfersList.Filter 100000 30000).1 =
        twoTransfersList.Flatten.filter (overLimits 100000 30000) ∧
      (twoTransfersList.Filter 100000 30000).2.1 = strictInvalids twoTransfersList.strict
        (twoTransfersList.Flatten.filter (overLimits 100000 30000))
        (twoTransfersList.Flatten.filter fun tx => !overLimits 100000 30000 tx) :=
  have fits : ∀ op ∈ twoTransfers, op.nonceFits = true := by decide
  ⟨fits, rfl, Filter_matches_full_scan true twoTransfers fits rfl 100000 30000⟩

-- A gas limit of 30000 removes the transfer at nonce 0, and the cascade the one at nonce 1.
example : ((twoTransfersList.Filter 100000 30000).1.map (·.AccountNonce),
    (twoTransfersList.Filter 100000 30000).2.1.map (·.AccountNonce)) = ([0], [1]) := by decide

end Core

end Harmony
