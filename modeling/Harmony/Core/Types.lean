import Harmony.Lib.GoBytes

/-!
Blocks, headers, transactions and shard states of `core/types`.

Only the header fields some modelled function reads are kept; the hash of a header is a
parameter of the functions that need it, since it is Keccak over the header's RLP encoding.
-/

namespace Harmony

open Go

/-- A 32-byte `common.Hash`. -/
abbrev Hash := FixedBytes 32

/-- A 20-byte `common.Address`. -/
abbrev Address := FixedBytes 20

/-- Addresses are equal when their bytes are; one named instance serves every membership test. -/
instance instLawfulBEqAddress : LawfulBEq Address := inferInstance

/-- The signed fields of a transaction, Go's `txdata`. -/
structure Transaction where
  /-- The sender's nonce. -/
  AccountNonce : Nat
  /-- The gas price, a `*big.Int`. -/
  Price : Int
  /-- The gas limit. -/
  GasLimit : Nat
  /-- The shard the transaction is for. -/
  ShardID : Nat
  /-- The recipient; `none` is a contract creation. -/
  Recipient : Option Address
  /-- The value transferred, a `*big.Int`. -/
  Amount : Int
  /-- The call data. -/
  Payload : Bytes
  /-- The signature value `V`. -/
  V : Int
  /-- The signature value `R`. -/
  R : Int
  /-- The signature value `S`. -/
  S : Int
  deriving DecidableEq

/-- A committee member: its ECDSA account and 96-byte BLS key, Go's `NodeID`. -/
structure NodeID where
  /-- The reward account, as a hex string. -/
  EcdsaAddress : String
  /-- The serialized BLS public key. -/
  BlsPublicKey : FixedBytes 96
  deriving DecidableEq

/-- The members of one shard, Go's `Committee`. -/
structure Committee where
  /-- The shard this committee runs. -/
  ShardID : Nat
  /-- The members; the first one leads. -/
  NodeList : List NodeID
  deriving DecidableEq

/-- All committees of an epoch, Go's `ShardState`. -/
abbrev ShardState := List Committee

/-- A block header, with the fields the modelled code reads. -/
structure Header where
  /-- The hash of the parent header. -/
  ParentHash : Hash
  /-- The state root after the block. -/
  Root : Hash
  /-- The root of the transaction trie. -/
  TxHash : Hash
  /-- The root of the receipt trie. -/
  ReceiptHash : Hash
  /-- The log bloom filter. -/
  Bloom : Bytes
  /-- The block number. -/
  Number : Nat
  /-- The gas limit. -/
  GasLimit : Nat
  /-- The gas used by all transactions. -/
  GasUsed : Nat
  /-- The epoch number. -/
  Epoch : Nat
  /-- The shard of the block. -/
  ShardID : Nat
  /-- The aggregate prepare signature, filled in after consensus. -/
  PrepareSignature : FixedBytes 48
  /-- Which committee members prepared. -/
  PrepareBitmap : Bytes
  /-- The aggregate commit signature, filled in after consensus. -/
  CommitSignature : FixedBytes 48
  /-- Which committee members committed. -/
  CommitBitmap : Bytes
  /-- The randomness seed. -/
  RandSeed : FixedBytes 32
  /-- The hash of the proposed shard state, zero when none is proposed. -/
  ShardStateHash : Hash
  /-- The proposed shard state. -/
  ShardState : ShardState
  deriving DecidableEq

/-- A block: a header and its transactions. -/
structure Block where
  /-- The header. -/
  header : Header
  /-- The transactions, in block order. -/
  transactions : List Transaction
  deriving DecidableEq

namespace Block

/-- The block number, Go's `NumberU64`. -/
def NumberU64 (b : Block) : Nat := b.header.Number

/-- The parent hash, Go's `ParentHash`. -/
def ParentHash (b : Block) : Hash := b.header.ParentHash

/-- Fill in the prepare signature and bitmap, Go's `SetPrepareSig`. -/
def SetPrepareSig (b : Block) (sig signers : Bytes) : Block :=
  { b with header := { b.header with
      PrepareSignature := b.header.PrepareSignature.overwrite sig, PrepareBitmap := signers } }

/-- Fill in the commit signature and bitmap, Go's `SetCommitSig`. -/
def SetCommitSig (b : Block) (sig signers : Bytes) : Block :=
  { b with header := { b.header with
      CommitSignature := b.header.CommitSignature.overwrite sig, CommitBitmap := signers } }

/-- Set the randomness seed, Go's `AddRandSeed`. -/
def AddRandSeed (b : Block) (seed : FixedBytes 32) : Block :=
  { b with header := { b.header with RandSeed := seed } }

/-- Signing a block leaves its transactions alone. -/
@[simp] theorem transactions_SetPrepareSig (b : Block) (sig signers : Bytes) :
    (b.SetPrepareSig sig signers).transactions = b.transactions := rfl

/-- Signing a block leaves its transactions alone. -/
@[simp] theorem transactions_SetCommitSig (b : Block) (sig signers : Bytes) :
    (b.SetCommitSig sig signers).transactions = b.transactions := rfl

/-- Signing a block leaves its number alone. -/
@[simp] theorem NumberU64_SetPrepareSig (b : Block) (sig signers : Bytes) :
    (b.SetPrepareSig sig signers).NumberU64 = b.NumberU64 := rfl

/-- Signing a block leaves its number alone. -/
@[simp] theorem NumberU64_SetCommitSig (b : Block) (sig signers : Bytes) :
    (b.SetCommitSig sig signers).NumberU64 = b.NumberU64 := rfl

/-- Signing a block leaves its parent alone. -/
@[simp] theorem ParentHash_SetPrepareSig (b : Block) (sig signers : Bytes) :
    (b.SetPrepareSig sig signers).ParentHash = b.ParentHash := rfl

/-- Signing a block leaves its parent alone. -/
@[simp] theorem ParentHash_SetCommitSig (b : Block) (sig signers : Bytes) :
    (b.SetCommitSig sig signers).ParentHash = b.ParentHash := rfl

end Block

/-- A header with the four fields a node fills in after consensus cleared. -/
def Header.withoutCertificates (header : Header) : Header :=
  { header with
    PrepareSignature := FixedBytes.zero 48, PrepareBitmap := []
    CommitSignature := FixedBytes.zero 48, CommitBitmap := [] }

/-- The prepare certificate is one of the cleared fields. -/
@[simp] theorem withoutCertificates_SetPrepareSig (b : Block) (sig signers : Bytes) :
    (b.SetPrepareSig sig signers).header.withoutCertificates = b.header.withoutCertificates := rfl

/-- The commit certificate is one of the cleared fields. -/
@[simp] theorem withoutCertificates_SetCommitSig (b : Block) (sig signers : Bytes) :
    (b.SetCommitSig sig signers).header.withoutCertificates = b.header.withoutCertificates := rfl

end Harmony
