import Harmony.Core.Types

/-!
The block worker of `node/worker/worker.go`: picking the pending transactions for a new block
(`SelectTransactionsForNewBlock`) and applying a list of them (`CommitTransactions`).

The worker's environment keeps a state database with its snapshots, a gas pool and a header; all
three are the state `σ`, with the pool's lazy set-up. Applying a transaction is Go's
`core.ApplyTransaction`, a parameter that returns the receipt or an error, and the state it leaves.
`UpdateCurrent`, which replaces the environment with a fresh one from the chain's head once the
selection is made, is left out.
-/

namespace Harmony

/-- What the worker calls on its state: the database's snapshots and `core.ApplyTransaction`. -/
structure Backend (σ ρ : Type) where
  /-- `state.Snapshot()`: a revision id, and the state that holds it. -/
  Snapshot : σ → Nat × σ
  /-- `state.RevertToSnapshot(id)`. -/
  RevertToSnapshot : σ → Nat → σ
  /-- `core.ApplyTransaction`: the receipt or the error, and the state after. -/
  ApplyTransaction : σ → Transaction → Except String ρ × σ

/-- Go's `environment`: the state, and the transactions applied and their receipts. -/
structure environment (σ ρ : Type) where
  /-- The state database, gas pool and header. -/
  state : σ
  /-- The transactions applied so far. -/
  txs : List Transaction
  /-- Their receipts. -/
  receipts : List ρ

/-- Go's `Worker`, with the fields the selection reads. -/
structure Worker (σ ρ : Type) where
  /-- The environment of the block being built. -/
  current : environment σ ρ
  /-- The worker's shard. -/
  shardID : Nat

/-- The three lists `SelectTransactionsForNewBlock` returns. -/
structure Selection where
  /-- Transactions for the block. -/
  selected : List Transaction
  /-- Transactions left pending for a later block. -/
  unselected : List Transaction
  /-- Transactions dropped. -/
  invalid : List Transaction
  deriving DecidableEq

namespace Worker

variable {σ ρ : Type} (B : Backend σ ρ)

/-- The worker with its state replaced. -/
def withState (w : Worker σ ρ) (state : σ) : Worker σ ρ :=
  { w with current := { w.current with state } }

/--
Go's `commitTransaction`: apply a transaction under a snapshot; on an error, revert to it, and
otherwise record the transaction and its receipt, whose logs Go returns.
-/
def commitTransaction (w : Worker σ ρ) (tx : Transaction) : Except String ρ × Worker σ ρ :=
  let (snap, state) := B.Snapshot w.current.state
  match B.ApplyTransaction state tx with
  | (.error err, state) => (.error err, w.withState (B.RevertToSnapshot state snap))
  | (.ok receipt, state) =>
    (.ok receipt, { w with current := ⟨state, w.current.txs ++ [tx],
      w.current.receipts ++ [receipt]⟩ })

/-- One iteration of `SelectTransactionsForNewBlock`'s loop. -/
def selectStep (maxNumTxs : Nat) (acc : Selection × Worker σ ρ) (tx : Transaction) :
    Selection × Worker σ ρ :=
  let (lists, w) := acc
  -- A transaction for another shard is marked invalid, and the loop goes on with it.
  let lists := if tx.ShardID ≠ w.shardID then { lists with invalid := lists.invalid ++ [tx] }
    else lists
  let (snap, state) := B.Snapshot w.current.state
  let (result, w) := commitTransaction B (w.withState state) tx
  -- The cap is tested after the transaction was applied, and with `>`.
  if lists.selected.length > maxNumTxs then
    ({ lists with unselected := lists.unselected ++ [tx] }, w)
  else
    match result with
    | .error _ =>
      ({ lists with invalid := lists.invalid ++ [tx] },
        w.withState (B.RevertToSnapshot w.current.state snap))
    | .ok _ => ({ lists with selected := lists.selected ++ [tx] }, w)

/--
Go's `SelectTransactionsForNewBlock`: the selected, unselected and invalid transactions, and the
worker as the loop leaves it, before `UpdateCurrent` replaces its environment.
-/
def SelectTransactionsForNewBlock (w : Worker σ ρ) (txs : List Transaction) (maxNumTxs : Nat) :
    Selection × Worker σ ρ :=
  txs.foldl (selectStep B maxNumTxs) (⟨[], [], []⟩, w)

/-- Go's `CommitTransactions`: apply the transactions in order, stopping at the first error. -/
def CommitTransactions (w : Worker σ ρ) : List Transaction → Except String Unit × Worker σ ρ
  | [] => (.ok (), w)
  | tx :: rest =>
    let (snap, state) := B.Snapshot w.current.state
    match commitTransaction B (w.withState state) tx with
    | (.error err, w) => (.error err, w.withState (B.RevertToSnapshot w.current.state snap))
    | (.ok _, w) => CommitTransactions w rest

end Worker

end Harmony
