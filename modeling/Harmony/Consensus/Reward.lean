import Harmony.Consensus.State
import Harmony.Core.ShardState

/-!
The block reward of `consensus/consensus.go`: `Finalize` pays every member of the parent block's
committee whose bit is set in the parent's commit bitmap.

The chain reader is the two lookups `accumulateRewards` makes, the state is anything with
`AddBalance`, and go-ethereum's `common.HexToAddress` is a parameter.
-/

namespace Harmony

open Go

/-- The reward of each signer of a block, Go's `BlockReward`: a tenth of an ether, in wei. -/
def BlockReward : Int := 10 ^ 17

/-- The lookups of Go's `consensus_engine.ChainReader` that `accumulateRewards` makes. -/
structure RewardChain where
  /-- The stored header with a hash, Go's `GetHeaderByHash`. -/
  GetHeaderByHash : Hash → Option Header
  /-- The shard state of an epoch, Go's `ReadShardState`. -/
  ReadShardState : Nat → Except String ShardState

section Rewards

variable {K S σ : Type} [AddCommGroup K] [DecidableEq K] (P : Primitives K S)

/-- Credit the block reward to member `idx` of the committee if its bit is set in `mask`. -/
def rewardMember (HexToAddress : String → Address) (AddBalance : σ → Address → Int → σ)
    (mask : Mask K) (state : σ) (entry : NodeID × Nat) : Except String σ :=
  match mask.IndexEnabled entry.2 with
  | .error _ => .error "cannot check for committer bit"
  | .ok false => .ok state
  | .ok true => .ok (AddBalance state (HexToAddress entry.1.EcdsaAddress) BlockReward)

/--
Pay the signers of the parent of the block with `header`, Go's `accumulateRewards`: the parent's
commit bitmap is read over the keys of the parent epoch's committee for the parent's shard.
-/
def accumulateRewards (HexToAddress : String → Address) (AddBalance : σ → Address → Int → σ)
    (bc : RewardChain) (state : σ) (header : Header) : Except String σ := do
  -- The epoch block has no parent to reward.
  if header.Number = 0 then return state
  let some parentHeader := bc.GetHeaderByHash header.ParentHash
    | throw "cannot find parent block header in DB"
  -- The epoch block is not signed in the usual manner.
  if parentHeader.Number = 0 then return state
  let .ok parentShardState := bc.ReadShardState parentHeader.Epoch
    | throw "cannot read shard state"
  let some parentCommittee := FindCommitteeByID parentShardState parentHeader.ShardID
    | throw "cannot find shard in the shard state"
  let committerKeys ← parentCommittee.NodeList.mapM fun member =>
    match P.DeserializeKey member.BlsPublicKey.bytes with
    | some committerKey => .ok committerKey
    | none => .error "cannot convert BLS public key"
  let .ok mask := NewMask committerKeys none | throw "cannot create group sig mask"
  let .ok mask := mask.SetMask parentHeader.CommitBitmap | throw "cannot set group sig mask bits"
  parentCommittee.NodeList.zipIdx.foldlM (rewardMember HexToAddress AddBalance mask) state

end Rewards

end Harmony
