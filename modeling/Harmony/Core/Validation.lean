import Harmony.Consensus.State

/-!
The checks a block passes before a committee signs it and before the chain inserts it, from
`core/blockchain.go`, `core/block_validator.go` and `node/node_handler.go`.

The state database and the EVM are outside the model: executing a block on the state at a root
is the parameter `Process`, with the trie and bloom builders beside it.
-/

namespace Harmony

open Go

/-- What block validation reads of the chain and the EVM; `R` is the receipt type. -/
structure ChainContext (R : Type) where
  /-- The head block, Go's `CurrentBlock`. -/
  CurrentBlock : Block
  /-- Whether the block of a hash and number is stored with its state. -/
  HasBlockAndState : Hash → Nat → Bool
  /-- Whether the block of a hash and number is stored. -/
  HasBlock : Hash → Nat → Bool
  /-- The stored block of a hash and number. -/
  GetBlock : Hash → Nat → Option Block
  /-- Whether a block of this hash waits among the future blocks. -/
  FutureBlocksContains : Hash → Bool
  /-- Execute a block on the state at a root: receipts, gas used and the state root after it. -/
  Process : Block → Hash → Except String (List R × Nat × Hash)
  /-- The bloom of a receipt list, Go's `CreateBloom`. -/
  CreateBloom : List R → Bytes
  /-- The trie root of a receipt list, Go's `DeriveSha`. -/
  DeriveReceiptSha : List R → Hash
  /-- The trie root of a transaction list, Go's `DeriveSha`. -/
  DeriveSha : List Transaction → Hash
  /-- A block's hash, Go's `Header.Hash`. -/
  HeaderHash : Header → Hash
  /--
  The branch for a block whose parent's state was pruned: whether, after importing its pruned
  ancestors, the block is processed (its chain beat the canonical one) or only stored.
  -/
  InsertPruned : Block → Except String Bool

/-- Why `ValidateBody` refuses a block. -/
inductive BodyError where
  | ErrKnownBlock
  | ErrUnknownAncestor
  | ErrPrunedAncestor
  | TxRootMismatch
  deriving DecidableEq, Repr

/-- What `insertChain` did with a block it did not refuse, as its `insertStats` count it. -/
inductive InsertStatus where
  /-- Executed, validated and written with its state. -/
  | processed
  /-- Already known at or below the head. -/
  | ignored
  /-- Its parent waits among the future blocks. -/
  | queued
  /-- Stored without state beside a heavier canonical chain. -/
  | sidechain
  deriving DecidableEq, Repr

/-- The number of a block's parent, Go's `NumberU64()-1`, which wraps at zero. -/
def Block.parentNumber (block : Block) : Nat := (block.NumberU64 + 2 ^ 64 - 1) % 2 ^ 64

namespace ChainContext

variable {R : Type} (bc : ChainContext R)

/-- The header fields a block's execution must reproduce, Go's `ValidateState`. -/
def ValidateState (block : Block) (receipts : List R) (usedGas : Nat) (root : Hash) :
    Except String Unit :=
  if block.header.GasUsed ≠ usedGas then .error "invalid gas used"
  else if bc.CreateBloom receipts ≠ block.header.Bloom then .error "invalid bloom"
  else if bc.DeriveReceiptSha receipts ≠ block.header.ReceiptHash then
    .error "invalid receipt root hash"
  else if root ≠ block.header.Root then .error "invalid merkle root"
  else .ok ()

/-- `ValidateState` passes exactly when execution reproduces gas, bloom and both roots. -/
theorem ValidateState_eq_ok_iff {block : Block} {receipts : List R} {usedGas : Nat}
    {root : Hash} :
    bc.ValidateState block receipts usedGas root = .ok () ↔
      block.header.GasUsed = usedGas ∧ bc.CreateBloom receipts = block.header.Bloom ∧
        bc.DeriveReceiptSha receipts = block.header.ReceiptHash ∧ root = block.header.Root := by
  unfold ValidateState
  split_ifs <;> simp_all

/-- Execute a block on the head's state and compare, Go's `ValidateNewBlock`. -/
def ValidateNewBlock (block : Block) : Except String Unit := do
  let (receipts, usedGas, root) ← bc.Process block bc.CurrentBlock.header.Root
  bc.ValidateState block receipts usedGas root

/--
The check a validator runs on an announced block, Go's `Node.VerifyNewBlock`; the shard-state
proposal check is the parameter `validateNewShardState`.
-/
def VerifyNewBlock (validateNewShardState : Block → Except String Unit) (block : Block) :
    Except String Unit := do
  bc.ValidateNewBlock block
  validateNewShardState block

/-- A block must be new, linked to a stored parent, and carry its transactions' root. -/
def ValidateBody (block : Block) : Except BodyError Unit :=
  if bc.HasBlockAndState (bc.HeaderHash block.header) block.NumberU64 then .error .ErrKnownBlock
  else if !bc.HasBlockAndState block.ParentHash block.parentNumber then
    if !bc.HasBlock block.ParentHash block.parentNumber then
      .error .ErrUnknownAncestor
    else .error .ErrPrunedAncestor
  else if bc.DeriveSha block.transactions ≠ block.header.TxHash then .error .TxRootMismatch
  else .ok ()

/-- `ValidateBody` passes a block that is new, has its parent's state, and carries its root. -/
theorem ValidateBody_eq_ok_iff {block : Block} :
    bc.ValidateBody block = .ok () ↔
      bc.HasBlockAndState (bc.HeaderHash block.header) block.NumberU64 = false ∧
        bc.HasBlockAndState block.ParentHash block.parentNumber = true ∧
        bc.DeriveSha block.transactions = block.header.TxHash := by
  unfold ValidateBody
  -- The wrapped parent number only names a stored block; its arithmetic plays no part.
  generalize (block.NumberU64 + 2 ^ 64 - 1) % 2 ^ 64 = parent
  cases bc.HasBlockAndState (bc.HeaderHash block.header) block.NumberU64 <;>
    cases bc.HasBlockAndState block.ParentHash block.parentNumber <;>
    cases bc.HasBlock block.ParentHash block.parentNumber <;> simp

/-- Execute a block on its parent's state and compare, the tail of `insertChain`'s loop body. -/
def processOnParent (block : Block) : Outcome (Except String InsertStatus) :=
  match bc.GetBlock block.ParentHash block.parentNumber with
  | none => .error "nil pointer dereference"
  | some parent =>
    .ok do
      let (receipts, usedGas, root) ← bc.Process block parent.header.Root
      bc.ValidateState block receipts usedGas root
      return .processed

/--
Insert one block, Go's `insertChain` on a one-block list: the engine's header check reports no
error, so the body check decides whether the block is processed, ignored, queued or refused.
-/
def InsertBlock (block : Block) : Outcome (Except String InsertStatus) :=
  match bc.ValidateBody block with
  | .ok () => bc.processOnParent block
  | .error .ErrKnownBlock =>
    -- A known block is ignored unless the head was rolled back below it.
    if bc.CurrentBlock.NumberU64 ≥ block.NumberU64 then .ok (.ok .ignored)
    else bc.processOnParent block
  | .error .ErrUnknownAncestor =>
    if bc.FutureBlocksContains block.ParentHash then .ok (.ok .queued)
    else .ok (.error "unknown ancestor")
  | .error .ErrPrunedAncestor =>
    match bc.InsertPruned block with
    | .error err => .ok (.error err)
    | .ok false => .ok (.ok .sidechain)
    | .ok true => bc.processOnParent block
  | .error .TxRootMismatch => .ok (.error "transaction root hash mismatch")

/--
Store a processed block with its state, Go's `WriteBlockWithState`. Every block adds one to the
total difficulty, so the block becomes the head exactly when it is higher than the head; the
tie-break between blocks of the head's height keeps the head.
-/
def WriteBlockWithState (block : Block) : ChainContext R :=
  let stored (hash : Hash) (number : Nat) : Bool :=
    hash == bc.HeaderHash block.header && number == block.NumberU64
  { bc with
    CurrentBlock := if block.NumberU64 > bc.CurrentBlock.NumberU64 then block else bc.CurrentBlock
    HasBlockAndState := fun hash number => stored hash number || bc.HasBlockAndState hash number
    HasBlock := fun hash number => stored hash number || bc.HasBlock hash number
    GetBlock := fun hash number =>
      if stored hash number then some block else bc.GetBlock hash number }

/-- Go's `InsertChain` on a one-block list: the chain after it, or the error it reports. -/
def InsertChain (block : Block) : Outcome (Except String (ChainContext R)) := do
  let status ← bc.InsertBlock block
  return status.map fun
    | .processed => bc.WriteBlockWithState block
    | _ => bc

end ChainContext

end Harmony
