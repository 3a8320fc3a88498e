import Harmony.Core.Validation
import Harmony.Crypto.Linear

/-!
What the announce check leaves out. `VerifyNewBlock` re-executes a block on the head's state and
reads nothing else of it, so it does not check what `ValidateBody` checks: a block with a wrong
transaction root passes the announce check, and insertion then refuses it.
-/

namespace Harmony

open Go

namespace ChainContext

variable {R : Type} (bc : ChainContext R)

/-- Insertion refuses a new block on a stored parent whose transaction root is wrong. -/
theorem InsertBlock_of_tx_root_mismatch (block : Block)
    (fresh : bc.HasBlockAndState (bc.HeaderHash block.header) block.NumberU64 = false)
    (linked : bc.HasBlockAndState block.ParentHash block.parentNumber = true)
    (mismatch : bc.DeriveSha block.transactions ≠ block.header.TxHash) :
    bc.InsertBlock block = .ok (.error "transaction root hash mismatch") := by
  have refused : bc.ValidateBody block = .error .TxRootMismatch := by
    rw [ValidateBody, if_neg (by simp [fresh]), if_neg (by simp [linked]), if_pos mismatch]
  rw [InsertBlock, refused]

end ChainContext

namespace Ledger

/-- The root of the empty trie, go-ethereum's `EmptyRootHash`. -/
def emptyRootHash : Hash :=
  FixedBytes.ofBytes 32 [0x56, 0xe8, 0x1f, 0x17, 0x1b, 0xcc, 0x55, 0xa6, 0xff, 0x83, 0x45, 0xe6,
    0x92, 0xc0, 0xf8, 0x6e, 0x5b, 0x48, 0xe0, 0x1b, 0x99, 0x6c, 0xad, 0xc0, 0x01, 0x62, 0x2f,
    0xb5, 0xe3, 0x63, 0xb4, 0x21]

/-- The bloom of no receipts: 256 zero bytes. -/
def emptyBloom : Bytes := List.replicate 256 0

/-- A shard-one genesis header with no transactions and no receipts. -/
def genesis : Header := {
  ParentHash := FixedBytes.zero 32, Root := FixedBytes.zero 32, TxHash := emptyRootHash
  ReceiptHash := emptyRootHash, Bloom := emptyBloom, Number := 0, GasLimit := 0, GasUsed := 0
  Epoch := 0, ShardID := 1, PrepareSignature := FixedBytes.zero 48, PrepareBitmap := []
  CommitSignature := FixedBytes.zero 48, CommitBitmap := [], RandSeed := FixedBytes.zero 32
  ShardStateHash := FixedBytes.zero 32, ShardState := [] }

/-- A header hash over the number and the parent, enough to tell these blocks apart. -/
def headerHash (header : Header) : Hash := FixedBytes.ofBytes 32 (Linear.headerBytes header)

/-- Whether a hash and number name genesis, the only stored block. -/
def isGenesis (hash : Hash) (number : Nat) : Bool := hash = headerHash genesis ∧ number = 0

/--
A chain holding genesis only. Execution is that of an empty block on a child of genesis: no
receipts, no gas, and no reward, since genesis was not signed.
-/
def chain : ChainContext Unit := {
  CurrentBlock := ⟨genesis, []⟩
  HasBlockAndState := isGenesis
  HasBlock := isGenesis
  GetBlock := fun hash number => if isGenesis hash number then some ⟨genesis, []⟩ else none
  FutureBlocksContains := fun _ => false
  Process := fun block root =>
    if block.transactions = [] then .ok ([], 0, root) else .error "transactions not executed"
  CreateBloom := fun _ => emptyBloom
  DeriveReceiptSha := fun _ => emptyRootHash
  DeriveSha := fun _ => emptyRootHash
  HeaderHash := headerHash
  InsertPruned := fun _ => .error "pruned ancestor" }

/-- A shard-one block that proposes no resharding while none is due. -/
def noResharding (_ : Block) : Except String Unit := .ok ()

/-- The empty block of height one on genesis, as a leader proposes it. -/
def child : Block := ⟨{ genesis with ParentHash := headerHash genesis, Number := 1 }, []⟩

/-- The same block with a zero transaction root in place of the empty trie's. -/
def forged : Block := ⟨{ child.header with TxHash := FixedBytes.zero 32 }, []⟩

set_option maxRecDepth 10000 in
/-- The forged block passes the announce check: execution on the head reproduces its header. -/
theorem forged_verified : chain.VerifyNewBlock noResharding forged = .ok () := by
  decide

set_option maxRecDepth 10000 in
/-- The forged block is new to the chain. -/
theorem forged_fresh :
    chain.HasBlockAndState (chain.HeaderHash forged.header) forged.NumberU64 = false := by
  decide

set_option maxRecDepth 10000 in
/-- The forged block's parent, genesis, is stored with its state. -/
theorem forged_linked : chain.HasBlockAndState forged.ParentHash forged.parentNumber = true := by
  decide

set_option maxRecDepth 10000 in
/-- The forged block's transaction root is not the root of its transactions. -/
theorem forged_root : chain.DeriveSha forged.transactions ≠ forged.header.TxHash := by
  decide

end Ledger

namespace ChainContext

/--
On a chain holding genesis only, the child of genesis with a wrong transaction root passes the
announce check, and insertion then refuses it.
-/
theorem verified_block_refused_on_insert :
    Ledger.chain.VerifyNewBlock Ledger.noResharding Ledger.forged = .ok () ∧
      Ledger.forged.header.TxHash ≠ Ledger.chain.DeriveSha Ledger.forged.transactions ∧
      Ledger.chain.InsertBlock Ledger.forged = .ok (.error "transaction root hash mismatch") := by
  refine ⟨Ledger.forged_verified, Ne.symm Ledger.forged_root, ?_⟩
  exact Ledger.chain.InsertBlock_of_tx_root_mismatch Ledger.forged Ledger.forged_fresh
    Ledger.forged_linked Ledger.forged_root

end ChainContext

end Harmony
