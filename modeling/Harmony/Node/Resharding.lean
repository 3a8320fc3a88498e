import Harmony.Core.Resharding

/-!
The node's side of resharding: the beacon leader proposes the next epoch's committees in the last
block of an epoch (`proposeBeaconShardState`, `node/node_newblock.go`), and every validator checks
a proposal before it signs (`validateNewShardState`, `node/node_handler.go`).

Errors carry the message of Go's `ctxerror`, without its context fields.
-/

namespace Harmony

open Go Harmony.Core

/-- What a node has learned of the next epoch's committees, Go's `node.nextShardState`. -/
structure NextShardState where
  /-- The committees the beacon chain decided on, if any: Go's `master.ShardState`. -/
  master : Option ShardState
  /-- Whether `proposeTime` has passed: `!time.Now().Before(proposeTime)`. -/
  proposeTimeReached : Bool

section Proposal

variable {σ : Type} (R : Go.Rand σ) (Keccak256 : Bytes → Bytes) (Hex : Address → String)
  (bc : ShardingChain)

/--
Go's `proposeBeaconShardState`: in the last block of an epoch, the beacon leader computes the next
epoch's committees and adds them to the block.
-/
def proposeBeaconShardState (stakes : List (Address × StakeInfo)) (block : Block) :
    Outcome (Except String Block) :=
  if !IsEpochLastBlock block then pure (.ok block)
  else do
    let nextEpoch := block.header.Epoch + 1
    match ← CalculateNewShardState R Hex bc nextEpoch stakes with
    | .error err => pure (.error err)
    | .ok shardState => pure (.ok (block.AddShardState Keccak256 shardState))

/--
Go's `validateNewShardState`. A beacon validator recomputes the committees and compares them with
the proposal, but a difference is only logged; a regular validator compares its own shard's
committee with the beacon chain's decision.
-/
def validateNewShardState (next : NextShardState) (block : Block)
    (stakeInfo : List (Address × StakeInfo)) : Outcome (Except String Unit) :=
  let header := block.header
  if header.ShardStateHash = FixedBytes.zero 32 then
    -- No new shard state was proposed.
    if header.ShardID = 0 then
      if IsEpochLastBlock block then pure (.error "beacon leader did not propose resharding")
      else pure (.ok ())
    else if next.master.isSome && next.proposeTimeReached then
      pure (.error "regular leader did not propose resharding")
    else pure (.ok ())
  else
    let proposed := header.ShardState
    if header.ShardID = 0 then do
      match ← CalculateNewShardState R Hex bc (header.Epoch + 1) stakeInfo with
      | .error err => pure (.error ("cannot calculate expected shard state: " ++ err))
      -- `CompareShardState(expected, proposed) != 0` is logged as a warning, and the block passes.
      | .ok _ => pure (.ok ())
    else
      match next.master with
      | none => throw "nil pointer dereference"
      | some masterProposal =>
        let expected := FindCommitteeByID masterProposal header.ShardID
        match proposed with
        | [] =>
          -- A proposal to discontinue the shard.
          if expected.isSome then pure (.error "leader proposed to disband against beacon decision")
          else pure (.ok ())
        | [proposed] =>
          if proposed.ShardID ≠ header.ShardID then pure (.error "proposal has incorrect shard ID")
          else
            match expected with
            | none => pure (.error "leader proposed to continue against beacon decision")
            | some expected =>
              if CompareCommittee expected proposed ≠ .eq then
                pure (.error "proposal differs from one in beacon chain")
              else pure (.ok ())
        | _ => pure (.error "regular resharding proposal has incorrect number of shards")

end Proposal

/--
Go's `proposeLocalShardState`: a regular leader proposes its own shard's committee from the
beacon chain's decision, or nothing when the beacon chain disowned the shard. It waits until the
decision has arrived and its proposal time has passed.
-/
def proposeLocalShardState (Keccak256 : Bytes → Bytes) (next : NextShardState) (block : Block) :
    Block :=
  match next.master with
  -- "yet to receive master proposal from beaconchain"
  | none => block
  | some masterShardState =>
    -- "still waiting for shard state to propagate"
    if !next.proposeTimeReached then block
    else
      let localShardState := match FindCommitteeByID masterShardState block.header.ShardID with
        | some committee => [committee]
        -- A proposal left empty signals the end of the shard.
        | none => []
      block.AddShardState Keccak256 localShardState

/-- Go's `math.MaxUint32`, the shard `findRoleInShardState` reports for a key no committee holds. -/
def MaxUint32 : Nat := 4294967295

/-- The loop of `findRoleInShardState` from committee `idx` on. -/
def findRoleFrom (keyBytes : Bytes) (idx : Nat) : ShardState → Nat × Bool
  | [] => (MaxUint32, false)
  | shard :: rest =>
    match shard.NodeList.findIdx? (fun nodeID => bytesCompare nodeID.BlsPublicKey.bytes keyBytes == .eq) with
    -- `uint32(idx)`: the committee's position in the state, not its `ShardID`.
    | some nodeIdx => (idx % 2 ^ 32, nodeIdx == 0)
    | none => findRoleFrom keyBytes (idx + 1) rest

/--
Go's `findRoleInShardState`: the shard a serialized key belongs to and whether it leads there, as
the position of the first committee that holds it.
-/
def findRoleInShardState (keyBytes : Bytes) (state : ShardState) : Nat × Bool :=
  findRoleFrom keyBytes 0 state

/-- What `transitionIntoNextEpoch` does with the node. -/
inductive EpochTransition where
  /-- "Somehow I got kicked out. Exiting": `os.Exit(8)`. -/
  | exit
  /-- "staying in the same shard", with the committee's keys installed. -/
  | stay (publicKeys : List (FixedBytes 96))
  /-- "moving to another shard": the keys are installed and the process restarts in the shard. -/
  | restart (shardID : Nat) (publicKeys : List (FixedBytes 96))
  deriving DecidableEq

/--
Go's `transitionIntoNextEpoch`, for a node of shard `currentShardID` whose consensus key serializes
to `keyBytes`: it finds its role in the new shard state, installs its committee's keys in
consensus and DRand, and stays or restarts in the shard it found.
-/
def transitionIntoNextEpoch (currentShardID : Nat) (keyBytes : Bytes) (shardState : ShardState) :
    Outcome EpochTransition :=
  let (myShardID, _) := findRoleInShardState keyBytes shardState
  if myShardID = MaxUint32 then pure .exit
  else
    match shardState[myShardID]? with
    | none => throw "index out of range"
    | some myShardState =>
      let publicKeys := myShardState.NodeList.map (·.BlsPublicKey)
      if currentShardID = myShardID then pure (.stay publicKeys)
      else pure (.restart myShardID publicKeys)

end Harmony
