import Harmony.Core.Signing
import Harmony.Lib.GoHeap

/-!
The containers of the transaction pool (`core/tx_list.go`, and `accountSet` and `txLookup` of
`core/tx_pool.go`): the nonce-sorted transactions of one account, the price heap over every pooled
transaction with its count of stale entries, the set of local accounts, and the lookup by hash.

A transaction's hash, encoded size and sender are what RLP, Keccak-256 and secp256k1 make of its
fields; the three are parameters, bundled as a `Codec`, and the sender is recovered by the signers
of `Harmony.Core.Signing`.
-/

namespace Harmony

open Go

/-- What the pool computes with RLP, Keccak-256 and secp256k1. -/
structure Codec where
  /-- Go's `rlpHash`: Keccak-256 of the RLP encoding of a list of values. -/
  rlpHash : List RlpValue → Hash
  /-- The length of the RLP encoding of a list of values. -/
  rlpSize : List RlpValue → Nat
  /-- Go's `recoverPlain`: the address that signed a hash. -/
  recoverPlain : Hash → Int → Int → Int → Bool → Except String Address

namespace Transaction

/-- The values `rlp.Encode` writes for a transaction: the fields of `txdata`, in order. -/
def rlpFields (tx : Transaction) : List RlpValue :=
  [.uint tx.AccountNonce, .bigInt tx.Price, .uint tx.GasLimit, .uint tx.ShardID,
    .address tx.Recipient, .bigInt tx.Amount, .bytes tx.Payload, .bigInt tx.V, .bigInt tx.R,
    .bigInt tx.S]

/-- Go's `Transaction.Hash`. -/
def Hash (codec : Codec) (tx : Transaction) : Hash := codec.rlpHash tx.rlpFields

/-- Go's `Transaction.Size`. -/
def Size (codec : Codec) (tx : Transaction) : Nat := codec.rlpSize tx.rlpFields

/-- Go's `Transaction.Cost`: `price * gas + value`. -/
def Cost (tx : Transaction) : Int := tx.Price * tx.GasLimit + tx.Amount

end Transaction

/-- Go's `types.Sender(signer, tx)`. -/
def Sender (codec : Codec) (signer : Signer) (tx : Transaction) : Except String Address :=
  signer.Sender codec.rlpHash codec.recoverPlain tx

namespace Core

/-- Transactions in strictly increasing nonce order. -/
def NonceSorted (txs : List Transaction) : Prop :=
  txs.Pairwise fun a b => a.AccountNonce < b.AccountNonce

/-- Put a transaction at its nonce, over any transaction already there. -/
def insertByNonce (tx : Transaction) : List Transaction → List Transaction
  | [] => [tx]
  | t :: ts =>
    if tx.AccountNonce < t.AccountNonce then tx :: t :: ts
    else if tx.AccountNonce = t.AccountNonce then tx :: ts
    else t :: insertByNonce tx ts

theorem mem_insertByNonce {tx b : Transaction} {txs : List Transaction}
    (listed : b ∈ insertByNonce tx txs) : b = tx ∨ b ∈ txs := by
  induction txs with
  | nil => simpa [insertByNonce] using listed
  | cons t ts ih =>
    unfold insertByNonce at listed
    split at listed
    · simpa using listed
    · split at listed
      · rcases List.mem_cons.mp listed with rfl | later
        · exact .inl rfl
        · exact .inr (List.mem_cons_of_mem t later)
      · rcases List.mem_cons.mp listed with rfl | later
        · exact .inr List.mem_cons_self
        · exact (ih later).imp_right (List.mem_cons_of_mem t)

theorem NonceSorted.insertByNonce (tx : Transaction) {txs : List Transaction}
    (sorted : NonceSorted txs) : NonceSorted (Core.insertByNonce tx txs) := by
  induction txs with
  | nil => exact List.pairwise_singleton _ tx
  | cons t ts ih =>
    obtain ⟨above, sorted'⟩ := List.pairwise_cons.mp sorted
    unfold Core.insertByNonce
    split
    · rename_i below
      refine List.Pairwise.cons (fun b listed => ?_) sorted
      rcases List.mem_cons.mp listed with rfl | later
      · exact below
      · exact below.trans (above b later)
    · split
      · rename_i same
        exact List.Pairwise.cons (fun b later => same ▸ above b later) sorted'
      · -- The new transaction goes further in, past `t`.
        rename_i _ past
        refine List.Pairwise.cons (fun b listed => ?_) (ih sorted')
        rcases mem_insertByNonce listed with rfl | later
        · omega
        · exact above b later

/-- How many transactions from the front carry the nonces `next`, `next + 1`, and so on. -/
def runLength (next : Nat) : List Transaction → Nat
  | [] => 0
  | t :: ts => if t.AccountNonce = next then runLength (next + 1) ts + 1 else 0

/--
Go's `txSortedMap`: one transaction per nonce. Go keeps a map with a heap of its nonces and a cache
of their sorted order; the list here is that sorted order, and every operation reads its result off
it in the order Go's heap or sort gives.
-/
structure txSortedMap where
  /-- The transactions, by increasing nonce. -/
  items : List Transaction
  /-- One transaction per nonce, in order. -/
  sorted : NonceSorted items

namespace txSortedMap

/-- Go's `newTxSortedMap`. -/
def empty : txSortedMap := ⟨[], List.Pairwise.nil⟩

/-- Go's `Get`. -/
def Get (m : txSortedMap) (nonce : Nat) : Option Transaction :=
  m.items.find? (·.AccountNonce = nonce)

/-- Go's `Put`: a transaction at a nonce already held overwrites it. -/
def Put (m : txSortedMap) (tx : Transaction) : txSortedMap :=
  ⟨insertByNonce tx m.items, m.sorted.insertByNonce tx⟩

/-- Go's `Forward`: remove the transactions below a nonce, lowest first. -/
def Forward (m : txSortedMap) (threshold : Nat) : List Transaction × txSortedMap :=
  (m.items.takeWhile (·.AccountNonce < threshold),
    ⟨m.items.dropWhile (·.AccountNonce < threshold), m.sorted.sublist (List.dropWhile_sublist _)⟩)

/-- Go's `Filter`: remove the transactions a filter selects. Go collects them in map order. -/
def Filter (m : txSortedMap) (filter : Transaction → Bool) : List Transaction × txSortedMap :=
  (m.items.filter filter, ⟨m.items.filter (fun tx => !filter tx), m.sorted.filter _⟩)

/-- Go's `Cap`: keep the `threshold` lowest nonces, and return the rest highest first. -/
def Cap (m : txSortedMap) (threshold : Nat) : List Transaction × txSortedMap :=
  if m.items.length ≤ threshold then ([], m)
  else ((m.items.drop threshold).reverse,
    ⟨m.items.take threshold, m.sorted.sublist (List.take_sublist _ _)⟩)

/-- Go's `Remove`: whether a transaction was held at the nonce, and the map without it. -/
def Remove (m : txSortedMap) (nonce : Nat) : Bool × txSortedMap :=
  match m.Get nonce with
  | none => (false, m)
  | some _ => (true, ⟨m.items.filter (·.AccountNonce ≠ nonce), m.sorted.filter _⟩)

/--
Go's `Ready`: the run of consecutive nonces from the lowest one, when the lowest is at most
`start`.
-/
def Ready (m : txSortedMap) (start : Nat) : List Transaction × txSortedMap :=
  match m.items with
  | [] => ([], m)
  | t :: _ =>
    if start < t.AccountNonce then ([], m)
    else
      let k := runLength t.AccountNonce m.items
      (m.items.take k, ⟨m.items.drop k, m.sorted.sublist (List.drop_sublist _ _)⟩)

/-- Go's `Len`. -/
def Len (m : txSortedMap) : Nat := m.items.length

/-- Go's `Flatten`: the transactions by nonce. -/
def Flatten (m : txSortedMap) : List Transaction := m.items

end txSortedMap

/-- Go's `txList`: the transactions of one account, contiguous when `strict`. -/
structure txList where
  /-- Whether nonces must be contiguous: pending lists are, queued ones are not. -/
  strict : Bool
  /-- The transactions by nonce. -/
  txs : txSortedMap
  /-- The highest cost of a transaction added since the cap was last lowered. -/
  costcap : Int
  /-- The highest gas limit of a transaction added since the cap was last lowered. -/
  gascap : Nat

namespace txList

/-- Go's `newTxList`. -/
def new (strict : Bool) : txList := ⟨strict, txSortedMap.empty, 0, 0⟩

/-- Go's `Overlaps`: whether the list holds a transaction at the same nonce. -/
def Overlaps (l : txList) (tx : Transaction) : Bool := (l.txs.Get tx.AccountNonce).isSome

/-- Go's `100+int64(priceBump)`: the `uint64` bump read as an `int64` and added in `int64`. -/
def bumpFactor (priceBump : Nat) : Int := (100 + priceBump.toUInt64.toInt64).toInt

/--
Go's `Add`: a transaction at a held nonce replaces the old one only when its price is higher by
`priceBump` percent; it returns whether the transaction went in and what it replaced.
-/
def Add (l : txList) (tx : Transaction) (priceBump : Nat) :
    Bool × Option Transaction × txList :=
  let old := l.txs.Get tx.AccountNonce
  let beaten := match old with
    | some old =>
      -- `big.Int`'s `Div` is Euclidean, as `Int`'s `/` is.
      let threshold := old.Price * bumpFactor priceBump / 100
      decide (old.Price ≥ tx.Price) || decide (threshold > tx.Price)
    | none => false
  if beaten then (false, none, l)
  else
    (true, old, { l with
      txs := l.txs.Put tx
      costcap := if l.costcap < tx.Cost then tx.Cost else l.costcap
      gascap := if l.gascap < tx.GasLimit then tx.GasLimit else l.gascap })

/-- Go's `Forward`. -/
def Forward (l : txList) (threshold : Nat) : List Transaction × txList :=
  let (removed, txs) := l.txs.Forward threshold
  (removed, { l with txs })

/--
Go's `Filter`: remove the transactions costing more than `costLimit` or needing more gas than
`gasLimit`, and in a strict list every transaction above the lowest nonce removed.
-/
def Filter (l : txList) (costLimit : Int) (gasLimit : Nat) :
    List Transaction × List Transaction × txList :=
  if l.costcap ≤ costLimit ∧ l.gascap ≤ gasLimit then ([], [], l)
  else
    let l := { l with costcap := costLimit, gascap := gasLimit }
    let (removed, txs) := l.txs.Filter fun tx => tx.Cost > costLimit || tx.GasLimit > gasLimit
    if l.strict ∧ removed ≠ [] then
      let lowest := removed.foldl (fun lowest tx => min lowest tx.AccountNonce) (2 ^ 64 - 1)
      let (invalids, txs) := txs.Filter fun tx => tx.AccountNonce > lowest
      (removed, invalids, { l with txs })
    else (removed, [], { l with txs })

/-- Go's `Cap`. -/
def Cap (l : txList) (threshold : Nat) : List Transaction × txList :=
  let (drops, txs) := l.txs.Cap threshold
  (drops, { l with txs })

/--
Go's `Remove`: whether the transaction's nonce was held, and in a strict list the transactions
above it, which it no longer leads to.
-/
def Remove (l : txList) (tx : Transaction) : Bool × List Transaction × txList :=
  let nonce := tx.AccountNonce
  let (removed, txs) := l.txs.Remove nonce
  if !removed then (false, [], l)
  else if l.strict then
    let (invalids, txs) := txs.Filter fun tx => tx.AccountNonce > nonce
    (true, invalids, { l with txs })
  else (true, [], { l with txs })

/-- Go's `Ready`. -/
def Ready (l : txList) (start : Nat) : List Transaction × txList :=
  let (ready, txs) := l.txs.Ready start
  (ready, { l with txs })

/-- Go's `Len`. -/
def Len (l : txList) : Nat := l.txs.Len

/-- Go's `Empty`. -/
def Empty (l : txList) : Bool := l.Len = 0

/-- Go's `Flatten`. -/
def Flatten (l : txList) : List Transaction := l.txs.Flatten

end txList

/-- Go's `priceHeap.Less`: the cheaper first, and at one price the higher nonce first. -/
def priceLess (a b : Transaction) : Bool :=
  if a.Price < b.Price then true
  else if b.Price < a.Price then false
  else b.AccountNonce < a.AccountNonce

/-- Go's `txLookup`: every pooled transaction by hash. -/
abbrev txLookup := AList fun _ : Hash => Transaction

namespace txLookup

/-- Go's `Get`. -/
def Get (all : txLookup) (hash : Hash) : Option Transaction := all.lookup hash

/-- Go's `Count`. -/
def Count (all : txLookup) : Nat := all.entries.length

/-- Go's `Add`. -/
def Add (codec : Codec) (all : txLookup) (tx : Transaction) : txLookup :=
  all.insert (tx.Hash codec) tx

/-- Go's `Remove`. -/
def Remove (all : txLookup) (hash : Hash) : txLookup := all.erase hash

/-- The transactions `Range` visits, in map order. -/
def values (all : txLookup) : List Transaction := all.entries.map Sigma.snd

end txLookup

/-- Go's `accountSet`: the local accounts, with the signer that recovers a sender. -/
structure accountSet where
  /-- The accounts. -/
  accounts : List Address
  /-- The signer `containsTx` recovers senders with. -/
  signer : Signer

namespace accountSet

/-- Go's `contains`. -/
def contains (as : accountSet) (addr : Address) : Bool := addr ∈ as.accounts

/-- Go's `containsTx`: an unrecoverable sender is not local. -/
def containsTx (codec : Codec) (as : accountSet) (tx : Transaction) : Bool :=
  match Sender codec as.signer tx with
  | .ok addr => as.contains addr
  | .error _ => false

/-- Go's `add`. -/
def add (as : accountSet) (addr : Address) : accountSet :=
  if as.contains addr then as else { as with accounts := as.accounts ++ [addr] }

end accountSet

/-- Go's `txPricedList`: a heap of every pooled transaction by price, and how many of its entries
are stale, left for transactions the pool has dropped since. -/
structure txPricedList where
  /-- The heap. -/
  items : List Transaction
  /-- The entries counted as stale; Go's `int`. -/
  stales : Int

namespace txPricedList

variable (codec : Codec)

/-- Go's `newTxPricedList`. -/
def new : txPricedList := ⟨[], 0⟩

/-- Go's `Put`. -/
def Put (l : txPricedList) (tx : Transaction) : txPricedList :=
  { l with items := Heap.Push priceLess l.items tx }

/--
Go's `Removed`: count one more stale entry, and rebuild the heap from the pool once more than a
quarter of it is stale.
-/
def Removed (all : txLookup) (l : txPricedList) : txPricedList :=
  let stales := l.stales + 1
  if stales ≤ ((l.items.length / 4 : Nat) : Int) then { l with stales }
  else ⟨Heap.Init priceLess all.values, 0⟩

/--
The loop of `Cap`: pop entries, skipping stale ones, until the heap is empty or a live one reaches
the threshold; a local one below it is saved, any other dropped.
-/
def capLoop (all : txLookup) (threshold : Int) (isLocal : Transaction → Bool) :
    Nat → txPricedList → List Transaction → List Transaction →
      txPricedList × List Transaction × List Transaction
  | 0, l, drop, save => (l, drop, save)
  | fuel + 1, l, drop, save =>
    match Heap.Pop priceLess l.items with
    | none => (l, drop, save)
    | some (tx, items) =>
      let l := { l with items }
      if (all.Get (tx.Hash codec)).isNone then
        capLoop all threshold isLocal fuel { l with stales := l.stales - 1 } drop save
      else if tx.Price ≥ threshold then (l, drop, save ++ [tx])
      else if isLocal tx then capLoop all threshold isLocal fuel l drop (save ++ [tx])
      else capLoop all threshold isLocal fuel l (drop ++ [tx]) save

/-- Go's `Cap`: the remote transactions priced below the threshold, taken off the heap. -/
def Cap (all : txLookup) (l : txPricedList) (threshold : Int) (locals : accountSet) :
    txPricedList × List Transaction :=
  let (l, drop, save) :=
    capLoop codec all threshold (locals.containsTx codec) l.items.length l [] []
  ({ l with items := save.foldl (Heap.Push priceLess) l.items }, drop)

/-- The loop of `Underpriced`: drop stale entries off the top of the heap. -/
def skipStale (all : txLookup) : Nat → txPricedList → txPricedList
  | 0, l => l
  | fuel + 1, l =>
    match l.items with
    | [] => l
    | head :: _ =>
      if (all.Get (head.Hash codec)).isNone then
        match Heap.Pop priceLess l.items with
        | some (_, items) => skipStale all fuel ⟨items, l.stales - 1⟩
        | none => l
      else l

/-- Go's `Underpriced`: whether a remote transaction is no dearer than the cheapest pooled one. -/
def Underpriced (all : txLookup) (l : txPricedList) (tx : Transaction) (locals : accountSet) :
    Bool × txPricedList :=
  if locals.containsTx codec tx then (false, l)
  else
    let l := skipStale codec all l.items.length l
    match l.items with
    -- Go logs "Pricing query for empty pool" here.
    | [] => (false, l)
    | cheapest :: _ => (cheapest.Price ≥ tx.Price, l)

/-- The loop of `Discard`: pop entries, skipping stale ones, until `count` remote ones are taken. -/
def discardLoop (all : txLookup) (isLocal : Transaction → Bool) :
    Nat → txPricedList → Nat → List Transaction → List Transaction →
      txPricedList × List Transaction × List Transaction
  | 0, l, _, drop, save => (l, drop, save)
  | fuel + 1, l, count, drop, save =>
    if count = 0 then (l, drop, save)
    else
      match Heap.Pop priceLess l.items with
      | none => (l, drop, save)
      | some (tx, items) =>
        let l := { l with items }
        if (all.Get (tx.Hash codec)).isNone then
          discardLoop all isLocal fuel { l with stales := l.stales - 1 } count drop save
        else if isLocal tx then discardLoop all isLocal fuel l count drop (save ++ [tx])
        else discardLoop all isLocal fuel l (count - 1) (drop ++ [tx]) save

/-- Go's `Discard`: the `count` cheapest remote transactions, taken off the heap. -/
def Discard (all : txLookup) (l : txPricedList) (count : Nat) (locals : accountSet) :
    txPricedList × List Transaction :=
  let (l, drop, save) :=
    discardLoop codec all (locals.containsTx codec) l.items.length l count [] []
  ({ l with items := save.foldl (Heap.Push priceLess) l.items }, drop)

end txPricedList

end Core

end Harmony
