import Harmony.Core.StateTransition
import Harmony.Core.TxList

/-!
The transaction pool of `core/tx_pool.go`: validation and insertion (`add`, `enqueueTx`,
`promoteTx`), removal (`removeTx`), promotion of the queue with its per-account, fairness and global
caps (`promoteExecutables`), demotion after a new head (`demoteUnexecutables`, `reset`), the price
floor (`SetGasPrice`) and the eviction of idle queued accounts from the pool's loop.

Go's maps are association lists here, iterated in list order, which is one of the orders Go may
use; `time.Now()` is the argument `now`, in nanoseconds, with a missing heartbeat at time zero. The
journal of local transactions on disk, the event feeds and the metrics are left out.
-/

namespace Harmony

open Go

namespace Core

/-- The pool's errors, with Go's texts. -/
def ErrInvalidSender : String := "invalid sender"
def ErrNonceTooLow : String := "nonce too low"
def ErrUnderpriced : String := "transaction underpriced"
def ErrReplaceUnderpriced : String := "replacement transaction underpriced"
def ErrInsufficientFunds : String := "insufficient funds for gas * price + value"
def ErrIntrinsicGas : String := "intrinsic gas too low"
def ErrGasLimit : String := "exceeds block gas limit"
def ErrNegativeValue : String := "negative value"
def ErrOversizedData : String := "oversized data"

/-- Go's `TxPoolConfig`, without the journal file and its period. -/
structure TxPoolConfig where
  /-- Accounts treated as local from the start. -/
  Locals : List Address
  /-- Whether local handling is off. -/
  NoLocals : Bool
  /-- The minimum gas price for remote transactions. -/
  PriceLimit : Nat
  /-- The price bump, in percent, a replacement needs. -/
  PriceBump : Nat
  /-- Pending slots guaranteed to each account. -/
  AccountSlots : Nat
  /-- Pending slots in all. -/
  GlobalSlots : Nat
  /-- Queued slots for each account. -/
  AccountQueue : Nat
  /-- Queued slots in all. -/
  GlobalQueue : Nat
  /-- How long an account's queued transactions are kept without a heartbeat, in nanoseconds. -/
  Lifetime : Nat

/-- Go's `DefaultTxPoolConfig`. -/
def DefaultTxPoolConfig : TxPoolConfig where
  Locals := []
  NoLocals := false
  PriceLimit := 1
  PriceBump := 10
  AccountSlots := 16
  GlobalSlots := 4096
  AccountQueue := 64
  GlobalQueue := 1024
  Lifetime := 3 * 3600 * 1000000000

/-- Go's `sanitize`: a price limit or bump below one is set to the default. -/
def TxPoolConfig.sanitize (config : TxPoolConfig) : TxPoolConfig :=
  let config := if config.PriceLimit < 1 then { config with PriceLimit := 1 } else config
  if config.PriceBump < 1 then { config with PriceBump := 10 } else config

/-- What the pool reads of a state, and what `ManagedState.SetNonce` changes. -/
structure AccountState where
  /-- `GetNonce`. -/
  GetNonce : Address → Nat
  /-- `GetBalance`. -/
  GetBalance : Address → Int

/-- `ManagedState.SetNonce`: the account reads the nonce from now on. -/
def AccountState.SetNonce (s : AccountState) (addr : Address) (nonce : Nat) : AccountState :=
  { s with GetNonce := Function.update s.GetNonce addr nonce }

/-- Go's `blockChain` interface, with the header hash it is walked by. -/
structure blockChain where
  /-- `CurrentBlock`. -/
  CurrentBlock : Block
  /-- `GetBlock`: the block with a hash at a height. -/
  GetBlock : Hash → Nat → Option Block
  /-- `StateAt`: the state with a root. -/
  StateAt : Hash → Except String AccountState
  /-- `Header.Hash`. -/
  HeaderHash : Header → Hash

/-- Go's `TxPool`. -/
structure TxPool where
  /-- The configuration. -/
  config : TxPoolConfig
  /-- The minimum price for remote transactions. -/
  gasPrice : Int
  /-- The signer that recovers senders. -/
  signer : Signer
  /-- The state at the head. -/
  currentState : AccountState
  /-- The state with the pending nonces, Go's `ManagedState`. -/
  pendingState : AccountState
  /-- The head's gas limit. -/
  currentMaxGas : Nat
  /-- The local accounts. -/
  locals : accountSet
  /-- The executable transactions of each account. -/
  pending : AList fun _ : Address => txList
  /-- The transactions of each account not yet executable. -/
  queue : AList fun _ : Address => txList
  /-- The last promotion of each account, in nanoseconds. -/
  beats : AList fun _ : Address => Nat
  /-- Every pooled transaction by hash. -/
  all : txLookup
  /-- Every pooled transaction by price. -/
  priced : txPricedList
  /-- Whether the head is past Homestead. -/
  homestead : Bool

namespace TxPool

variable (codec : Codec) (now : Nat)

/-- `from, _ := types.Sender(pool.signer, tx) // already validated`: the zero address on error. -/
def senderOf (pool : TxPool) (tx : Transaction) : Address :=
  match Sender codec pool.signer tx with
  | .ok addr => addr
  | .error _ => FixedBytes.zero 20

/-- Take a transaction out of `all`, counting its price entry as stale. -/
def dropCounted (pool : TxPool) (hash : Hash) : TxPool :=
  let all := pool.all.Remove hash
  { pool with all, priced := pool.priced.Removed all }

/-- Go's `validateTx`. -/
def validateTx (pool : TxPool) (tx : Transaction) (isLocal : Bool) : Except String Unit := do
  if tx.Size codec > 32 * 1024 then throw ErrOversizedData
  if tx.Amount < 0 then throw ErrNegativeValue
  if pool.currentMaxGas < tx.GasLimit then throw ErrGasLimit
  let sender ← match Sender codec pool.signer tx with
    | .ok addr => pure addr
    | .error _ => throw ErrInvalidSender
  -- An account may be local even when its transaction came from the network.
  let isLocal := isLocal || pool.locals.contains sender
  if !isLocal && pool.gasPrice > tx.Price then throw ErrUnderpriced
  if pool.currentState.GetNonce sender > tx.AccountNonce then throw ErrNonceTooLow
  if pool.currentState.GetBalance sender < tx.Cost then throw ErrInsufficientFunds
  let intrGas ← IntrinsicGas tx.Payload tx.Recipient.isNone pool.homestead
  if tx.GasLimit < intrGas.toNat then throw ErrIntrinsicGas

/-- Go's `enqueueTx`: put a transaction in its account's queue; whether it replaced one. -/
def enqueueTx (pool : TxPool) (hash : Hash) (tx : Transaction) : Except String Bool × TxPool :=
  let sender := pool.senderOf codec tx
  let list := (pool.queue.lookup sender).getD (txList.new false)
  match list.Add tx pool.config.PriceBump with
  | (false, _, list) => (.error ErrReplaceUnderpriced, { pool with queue := pool.queue.insert sender list })
  | (true, old, list) =>
    let pool := { pool with queue := pool.queue.insert sender list }
    let pool := match old with
      | some old => pool.dropCounted (old.Hash codec)
      | none => pool
    -- A transaction moved back from the pending list is already in `all`.
    let pool := if (pool.all.Get hash).isNone then
        { pool with all := pool.all.Add codec tx, priced := pool.priced.Put tx }
      else pool
    (.ok old.isSome, pool)

/-- Go's `promoteTx`: put a transaction in its account's pending list; whether it went in. -/
def promoteTx (pool : TxPool) (addr : Address) (hash : Hash) (tx : Transaction) : Bool × TxPool :=
  let list := (pool.pending.lookup addr).getD (txList.new true)
  match list.Add tx pool.config.PriceBump with
  | (false, _, list) =>
    -- An older transaction was better: this one leaves the pool.
    (false, ({ pool with pending := pool.pending.insert addr list }).dropCounted hash)
  | (true, old, list) =>
    let pool := { pool with pending := pool.pending.insert addr list }
    let pool := match old with
      | some old => pool.dropCounted (old.Hash codec)
      | none => pool
    let pool := if (pool.all.Get hash).isNone then
        { pool with all := pool.all.Add codec tx, priced := pool.priced.Put tx }
      else pool
    (true, { pool with
      beats := pool.beats.insert addr now
      pendingState := pool.pendingState.SetNonce addr (tx.AccountNonce + 1) })

/-- Go's `removeTx`: `outofbound` counts the price entry as stale; otherwise it was popped. -/
def removeTx (pool : TxPool) (hash : Hash) (outofbound : Bool) : TxPool :=
  match pool.all.Get hash with
  | none => pool
  | some tx =>
    let addr := pool.senderOf codec tx
    let all := pool.all.Remove hash
    let pool := { pool with all }
    let pool := if outofbound then { pool with priced := pool.priced.Removed all } else pool
    let fromPending : Option TxPool := match pool.pending.lookup addr with
      | some pending =>
        match pending.Remove tx with
        | (true, invalids, pending) =>
          let pool := if pending.Empty then
              { pool with pending := pool.pending.erase addr, beats := pool.beats.erase addr }
            else { pool with pending := pool.pending.insert addr pending }
          -- The transactions after it wait in the queue again.
          let pool := invalids.foldl (fun pool tx => (pool.enqueueTx codec (tx.Hash codec) tx).2) pool
          some (if pool.pendingState.GetNonce addr > tx.AccountNonce then
              { pool with pendingState := pool.pendingState.SetNonce addr tx.AccountNonce }
            else pool)
        | (false, _, _) => none
      | none => none
    match fromPending with
    | some pool => pool
    | none =>
      match pool.queue.lookup addr with
      | some future =>
        let future := (future.Remove tx).2.2
        if future.Empty then { pool with queue := pool.queue.erase addr }
        else { pool with queue := pool.queue.insert addr future }
      | none => pool

/--
The rest of Go's `add`, once the transaction is valid and there is room: replace a pending
transaction at its nonce directly, or queue it and mark a local sender.
-/
def addValidated (pool : TxPool) (hash : Hash) (tx : Transaction) (isLocal : Bool) :
    Except String Bool × TxPool :=
  let sender := pool.senderOf codec tx
  let replacing := match pool.pending.lookup sender with
    | some list => if list.Overlaps tx then some list else none
    | none => none
  match replacing with
  | some list =>
    match list.Add tx pool.config.PriceBump with
    | (false, _, _) => (.error ErrReplaceUnderpriced, pool)
    | (true, old, list) =>
      let pool := { pool with pending := pool.pending.insert sender list }
      let pool := match old with
        | some old => pool.dropCounted (old.Hash codec)
        | none => pool
      (.ok old.isSome, { pool with all := pool.all.Add codec tx, priced := pool.priced.Put tx })
  | none =>
    match pool.enqueueTx codec hash tx with
    | (.error err, pool) => (.error err, pool)
    | (.ok replace, pool) =>
      let pool := if isLocal && !pool.locals.contains sender then
          { pool with locals := pool.locals.add sender }
        else pool
      (.ok replace, pool)

/-- Go's `add`: validate a transaction and pool it; whether it replaced a pooled one. -/
def add (pool : TxPool) (tx : Transaction) (isLocal : Bool) : Except String Bool × TxPool :=
  let hash := tx.Hash codec
  if (pool.all.Get hash).isSome then (.error ("known transaction: " ++ hexEncode hash.bytes), pool)
  else
    match pool.validateTx codec tx isLocal with
    | .error err => (.error err, pool)
    | .ok () =>
      let limit := (pool.config.GlobalSlots + pool.config.GlobalQueue) % 2 ^ 64
      if pool.all.Count ≥ limit then
        -- A full pool makes room by discarding its cheapest remote transactions; looking for
        -- the cheapest already pops stale entries off the heap.
        let (underpriced, priced) :=
          if !isLocal then pool.priced.Underpriced codec pool.all tx pool.locals
          else (false, pool.priced)
        let pool := { pool with priced }
        if !isLocal && underpriced then (.error ErrUnderpriced, pool)
        else
          let count := (pool.all.Count : Int) - intOfUint64 ((limit + 2 ^ 64 - 1) % 2 ^ 64)
          let (priced, drop) := pool.priced.Discard codec pool.all count.toNat pool.locals
          let pool := drop.foldl (fun pool tx => pool.removeTx codec (tx.Hash codec) false)
            { pool with priced }
          pool.addValidated codec hash tx isLocal
      else pool.addValidated codec hash tx isLocal

/-- Take each transaction out of `all`, counting its price entry as stale. -/
def dropAllCounted (pool : TxPool) (txs : List Transaction) : TxPool :=
  txs.foldl (fun pool tx => pool.dropCounted (tx.Hash codec)) pool

/-- One account of `promoteExecutables`' first loop. -/
def promoteAccount (pool : TxPool) (addr : Address) : TxPool :=
  match pool.queue.lookup addr with
  | none => pool
  | some list =>
    -- Drop what the head's nonce has passed, and what the balance or gas limit cannot pay.
    let (olds, list) := list.Forward (pool.currentState.GetNonce addr)
    let pool := pool.dropAllCounted codec olds
    let (drops, _, list) := list.Filter (pool.currentState.GetBalance addr) pool.currentMaxGas
    let pool := pool.dropAllCounted codec drops
    -- Promote the run that continues the pending nonces.
    let (ready, list) := list.Ready (pool.pendingState.GetNonce addr)
    let pool := ready.foldl (fun pool tx => (pool.promoteTx codec now addr (tx.Hash codec) tx).2) pool
    let (caps, list) :=
      if !pool.locals.contains addr then list.Cap pool.config.AccountQueue else ([], list)
    let pool := pool.dropAllCounted codec caps
    if list.Empty then { pool with queue := pool.queue.erase addr }
    else { pool with queue := pool.queue.insert addr list }

/-- Drop an account's highest pending transaction, lowering its pending nonce to it. -/
def capPendingOne (pool : TxPool) (addr : Address) : TxPool :=
  match pool.pending.lookup addr with
  | none => pool
  | some list =>
    let (drops, list) := list.Cap (list.Len - 1)
    let pool := { pool with pending := pool.pending.insert addr list }
    drops.foldl (fun pool tx =>
      let pool := pool.dropCounted (tx.Hash codec)
      if pool.pendingState.GetNonce addr > tx.AccountNonce then
        { pool with pendingState := pool.pendingState.SetNonce addr tx.AccountNonce }
      else pool) pool

/-- The pending length of an account; Go reads it through the map's pointer. -/
def pendingLen (pool : TxPool) (addr : Address) : Nat :=
  ((pool.pending.lookup addr).map txList.Len).getD 0

/--
The equalizing loop of the fairness cap: cut every offender but the last one down by one
transaction a round, until the pool fits or they reach the last offender's length.
-/
def equalize (offenders : List Address) (threshold : Nat) :
    Nat → TxPool × Nat → TxPool × Nat
  | 0, state => state
  | fuel + 1, (pool, pending) =>
    let earlier := offenders.dropLast
    if pending > pool.config.GlobalSlots ∧ pool.pendingLen (earlier.getLastD (FixedBytes.zero 20)) > threshold
    then
      let state := earlier.foldl
        (fun (pool, pending) addr => (pool.capPendingOne codec addr, pending - 1)) (pool, pending)
      equalize offenders threshold fuel state
    else (pool, pending)

/-- The last loop of the fairness cap: cut every offender down to the per-account slots. -/
def capOffenders (offenders : List Address) : Nat → TxPool × Nat → TxPool × Nat
  | 0, state => state
  | fuel + 1, (pool, pending) =>
    if pending > pool.config.GlobalSlots ∧
        pool.pendingLen (offenders.getLastD (FixedBytes.zero 20)) > pool.config.AccountSlots then
      let state := offenders.foldl
        (fun (pool, pending) addr => (pool.capPendingOne codec addr, pending - 1)) (pool, pending)
      capOffenders offenders fuel state
    else (pool, pending)

/--
The offender loop of the fairness cap: take the spammers by decreasing pending length, and once
there are two, equalize the earlier ones down to the latest.
-/
def takeOffenders : List Address → List Address → TxPool × Nat → List Address × (TxPool × Nat)
  | [], offenders, state => (offenders, state)
  | offender :: spammers, offenders, (pool, pending) =>
    if pending > pool.config.GlobalSlots then
      let offenders := offenders ++ [offender]
      let state := if offenders.length > 1 then
          equalize codec offenders (pool.pendingLen offender) pending (pool, pending)
        else (pool, pending)
      takeOffenders spammers offenders state
    else (offenders, (pool, pending))

/--
The fairness cap: above the global pending slots, remote accounts over their own slots lose
their highest-nonce transactions, the largest first. Go's priority queue pops the longest list
first; accounts of one length come in map order.
-/
def capPending (pool : TxPool) : TxPool :=
  let pending := (pool.pending.entries.map fun e => e.2.Len).sum
  if pending > pool.config.GlobalSlots then
    let spammers := (pool.pending.entries.filter fun e =>
        !pool.locals.contains e.1 && e.2.Len > pool.config.AccountSlots).map fun e => (e.1, e.2.Len)
    let spammers := (spammers.insertionSort fun a b => b.2 ≤ a.2).map Prod.fst
    let (offenders, state) := takeOffenders codec spammers [] (pool, pending)
    let (pool, _) :=
      if state.2 > pool.config.GlobalSlots ∧ offenders ≠ [] then
        capOffenders codec offenders state.2 state
      else state
    pool
  else pool

/-- Drop queued transactions from the idlest remote accounts until the total fits. -/
def dropQueued : List Address → Nat → TxPool → TxPool
  | [], _, pool => pool
  | addr :: addresses, drop, pool =>
    if drop = 0 then pool
    else
      let txs := ((pool.queue.lookup addr).map txList.Flatten).getD []
      if txs.length ≤ drop then
        dropQueued addresses (drop - txs.length)
          (txs.foldl (fun pool tx => pool.removeTx codec (tx.Hash codec) true) pool)
      else
        -- Only the last few transactions go, highest nonce first.
        let gone := (txs.reverse.take drop)
        dropQueued addresses 0
          (gone.foldl (fun pool tx => pool.removeTx codec (tx.Hash codec) true) pool)

/--
The global queue cap: above the global queued slots, drop from the remote accounts with the
oldest heartbeat. Go sorts them by heartbeat and takes from the end of the sorted slice.
-/
def capQueued (pool : TxPool) : TxPool :=
  let queued := (pool.queue.entries.map fun e => e.2.Len).sum
  if queued > pool.config.GlobalQueue then
    let addresses := (pool.queue.keys.filter fun addr => !pool.locals.contains addr).map
      fun addr => (addr, (pool.beats.lookup addr).getD 0)
    let addresses := addresses.insertionSort fun a b => a.2 ≤ b.2
    dropQueued codec (addresses.reverse.map Prod.fst) (queued - pool.config.GlobalQueue) pool
  else pool

/--
Go's `promoteExecutables`: promote what the queues of the accounts can give, all of the queue's
accounts when none are named, then apply the pending and queued caps.
-/
def promoteExecutables (pool : TxPool) (accounts : Option (List Address)) : TxPool :=
  let accounts := accounts.getD pool.queue.keys
  let pool := accounts.foldl (promoteAccount codec now) pool
  (pool.capPending codec).capQueued codec

/-- One account of `demoteUnexecutables`. -/
def demoteAccount (pool : TxPool) (addr : Address) : TxPool :=
  match pool.pending.lookup addr with
  | none => pool
  | some list =>
    let nonce := pool.currentState.GetNonce addr
    let (olds, list) := list.Forward nonce
    let pool := pool.dropAllCounted codec olds
    -- The unpayable ones leave the pool, and those after them wait in the queue again.
    let (drops, invalids, list) := list.Filter (pool.currentState.GetBalance addr) pool.currentMaxGas
    let pool := pool.dropAllCounted codec drops
    let pool := invalids.foldl (fun pool tx => (pool.enqueueTx codec (tx.Hash codec) tx).2) pool
    -- A gap in front (which Go logs as impossible) sends the whole list back to the queue.
    let (gapped, list) :=
      if list.Len > 0 ∧ (list.txs.Get nonce).isNone then list.Cap 0 else ([], list)
    let pool := gapped.foldl (fun pool tx => (pool.enqueueTx codec (tx.Hash codec) tx).2) pool
    if list.Empty then { pool with pending := pool.pending.erase addr, beats := pool.beats.erase addr }
    else { pool with pending := pool.pending.insert addr list }

/-- Go's `demoteUnexecutables`. -/
def demoteUnexecutables (pool : TxPool) : TxPool :=
  pool.pending.keys.foldl (demoteAccount codec) pool

/-- Go's `addTxsLocked`: pool each transaction, then promote the accounts that gained one. -/
def addTxsLocked (pool : TxPool) (txs : List Transaction) (isLocal : Bool) :
    List (Except String Unit) × TxPool :=
  let (errs, dirty, pool) := txs.foldl (fun (errs, dirty, pool) tx =>
      match pool.add codec tx isLocal with
      | (.error err, pool) => (errs ++ [.error err], dirty, pool)
      | (.ok replace, pool) =>
        let sender := pool.senderOf codec tx
        (errs ++ [.ok ()], if !replace && sender ∉ dirty then dirty ++ [sender] else dirty, pool))
    ([], [], pool)
  if dirty ≠ [] then (errs, pool.promoteExecutables codec now (some dirty)) else (errs, pool)

/-- Go's `addTx`. -/
def addTx (pool : TxPool) (tx : Transaction) (isLocal : Bool) : Except String Unit × TxPool :=
  match pool.add codec tx isLocal with
  | (.error err, pool) => (.error err, pool)
  | (.ok replace, pool) =>
    if !replace then (.ok (), pool.promoteExecutables codec now (some [pool.senderOf codec tx]))
    else (.ok (), pool)

/-- Go's `AddLocal`. -/
def AddLocal (pool : TxPool) (tx : Transaction) : Except String Unit × TxPool :=
  pool.addTx codec now tx !pool.config.NoLocals

/-- Go's `AddRemote`. -/
def AddRemote (pool : TxPool) (tx : Transaction) : Except String Unit × TxPool :=
  pool.addTx codec now tx false

/-- Go's `AddLocals`. -/
def AddLocals (pool : TxPool) (txs : List Transaction) : List (Except String Unit) × TxPool :=
  pool.addTxsLocked codec now txs !pool.config.NoLocals

/-- Go's `AddRemotes`. -/
def AddRemotes (pool : TxPool) (txs : List Transaction) : List (Except String Unit) × TxPool :=
  pool.addTxsLocked codec now txs false

/-- Go's `SetGasPrice`: raise the floor and drop the remote transactions below it. -/
def SetGasPrice (pool : TxPool) (price : Int) : TxPool :=
  let (priced, drop) := pool.priced.Cap codec pool.all price pool.locals
  drop.foldl (fun pool tx => pool.removeTx codec (tx.Hash codec) false)
    { pool with gasPrice := price, priced }

/--
The eviction tick of Go's `loop`: drop every queued transaction of a remote account whose last
heartbeat is more than `Lifetime` ago.
-/
def evict (pool : TxPool) : TxPool :=
  pool.queue.keys.foldl (fun pool addr =>
    if pool.locals.contains addr then pool
    else if now - (pool.beats.lookup addr).getD 0 > pool.config.Lifetime then
      let txs := ((pool.queue.lookup addr).map txList.Flatten).getD []
      txs.foldl (fun pool tx => pool.removeTx codec (tx.Hash codec) true) pool
    else pool) pool

/-- Go's `stats`: the pending and the queued transactions. -/
def stats (pool : TxPool) : Nat × Nat :=
  ((pool.pending.entries.map fun e => e.2.Len).sum, (pool.queue.entries.map fun e => e.2.Len).sum)

/-- Go's `TxDifference`: the transactions of `a` whose hash is not in `b`. -/
def TxDifference (a b : List Transaction) : List Transaction :=
  a.filter fun tx => (tx.Hash codec) ∉ b.map (·.Hash codec)

section Reorg

variable (chain : blockChain)

/-- The first loop of `reset`'s walk: step the old branch down to the new head's height. -/
def walkOld : Nat → Block → Block → List Transaction → Option (Block × List Transaction)
  | 0, rem, _, discarded => some (rem, discarded)
  | fuel + 1, rem, add, discarded =>
    if rem.NumberU64 > add.NumberU64 then
      -- Go logs "Unrooted old chain seen by tx pool" and abandons the reset.
      match chain.GetBlock rem.ParentHash (rem.NumberU64 - 1) with
      | none => none
      | some parent => walkOld fuel parent add (discarded ++ rem.transactions)
    else some (rem, discarded)

/-- The second loop: step the new branch down to the old one's height. -/
def walkNew : Nat → Block → Block → List Transaction → Option (Block × List Transaction)
  | 0, _, add, included => some (add, included)
  | fuel + 1, rem, add, included =>
    if add.NumberU64 > rem.NumberU64 then
      match chain.GetBlock add.ParentHash (add.NumberU64 - 1) with
      | none => none
      | some parent => walkNew fuel rem parent (included ++ add.transactions)
    else some (add, included)

/-- The third loop: step both branches down together until they meet. -/
def walkBoth : Nat → Block → Block → List Transaction → List Transaction →
    Option (List Transaction × List Transaction)
  | 0, _, _, discarded, included => some (discarded, included)
  | fuel + 1, rem, add, discarded, included =>
    if chain.HeaderHash rem.header ≠ chain.HeaderHash add.header then
      let discarded := discarded ++ rem.transactions
      match chain.GetBlock rem.ParentHash (rem.NumberU64 - 1) with
      | none => none
      | some rem =>
        let included := included ++ add.transactions
        match chain.GetBlock add.ParentHash (add.NumberU64 - 1) with
        | none => none
        | some add => walkBoth fuel rem add discarded included
    else some (discarded, included)

/--
The transactions `reset` reinjects after a reorg of at most 64 blocks: those of the old branch
that the new one does not include. `none` is an unrooted branch, where Go abandons the reset, and
`.error` the nil dereference of a head Go cannot load.
-/
def reinjected (oldHead newHead : Header) : Except String (Option (List Transaction)) :=
  let oldNum := oldHead.Number
  let newNum := newHead.Number
  if (if oldNum ≤ newNum then newNum - oldNum else oldNum - newNum) > 64 then .ok (some [])
  else
    match chain.GetBlock (chain.HeaderHash oldHead) oldNum,
        chain.GetBlock (chain.HeaderHash newHead) newNum with
    | some rem, some add =>
      -- Each loop lowers a height, so the two heights bound its steps.
      let fuel := oldNum + newNum + 1
      .ok do
        let (rem, discarded) ← walkOld chain fuel rem add []
        let (add, included) ← walkNew chain fuel rem add []
        let (discarded, included) ← walkBoth chain fuel rem add discarded included
        pure (TxDifference codec discarded included)
    | _, _ => .error "nil pointer dereference"

/--
Go's `reset`: move the pool to a new head, reinjecting the transactions a reorg dropped, demoting
what the new state invalidates, resetting the pending nonces and promoting the queue.
-/
def reset (pool : TxPool) (oldHead : Option Header) (newHead : Header) : Except String TxPool := do
  let reinject ← match oldHead with
    | some oldHead =>
      if chain.HeaderHash oldHead ≠ newHead.ParentHash then
        reinjected codec chain oldHead newHead
      else pure (some [])
    | none => pure (some [])
  match reinject with
  | none => pure pool
  | some reinject =>
    match chain.StateAt newHead.Root with
    -- Go logs "Failed to reset txpool state" and keeps the pool as it is.
    | .error _ => pure pool
    | .ok statedb =>
      let pool := { pool with
        currentState := statedb, pendingState := statedb, currentMaxGas := newHead.GasLimit }
      let pool := (pool.addTxsLocked codec now reinject false).2
      let pool := pool.demoteUnexecutables codec
      -- Every pending account's nonce follows its last pending transaction.
      let pool := pool.pending.entries.foldl (fun pool e =>
        match e.2.Flatten.getLast? with
        | some last =>
          { pool with pendingState := pool.pendingState.SetNonce e.1 (last.AccountNonce + 1) }
        | none => pool) pool
      pure (pool.promoteExecutables codec now none)

/-- Go's `NewTxPool`, with the signer of the chain's id; loading the journal is left out. -/
def NewTxPool (config : TxPoolConfig) (chainID : Int) : Except String TxPool :=
  let config := config.sanitize
  let signer := Signer.EIP155Signer chainID
  let pool : TxPool := {
    config
    gasPrice := config.PriceLimit
    signer
    currentState := ⟨fun _ => 0, fun _ => 0⟩
    pendingState := ⟨fun _ => 0, fun _ => 0⟩
    currentMaxGas := 0
    locals := config.Locals.foldl accountSet.add ⟨[], signer⟩
    pending := ∅
    queue := ∅
    beats := ∅
    all := ∅
    priced := txPricedList.new
    homestead := false }
  pool.reset codec now chain none chain.CurrentBlock.header

end Reorg

end TxPool

end Core

end Harmony
