import Harmony.Consensus.State
import Harmony.Core.ShardState
import Harmony.Lib.GoRand

/-!
Resharding at an epoch's end, `core/resharding.go`: the beacon chain's committees of the last
epoch, with the new stakers added and a share of every active committee moved by the cuckoo rule.

Go's global `math/rand` source is a `Rand`: `Reshard` seeds it, and every `Shuffle` draws from it
in turn, so the state is threaded through the loops. The cuckoo rate is a float64 in Go and a
rational here; `int(0.1 * float64(n))` and `⌊n / 10⌋` agree for every committee size below 2^50.
The chain's lookups, `GetInitShardState`'s genesis tables and go-ethereum's `Address.Hex` are
parameters.
-/

namespace Harmony

open Go

namespace Core

/-- Go's `BlocksPerEpoch`. -/
def BlocksPerEpoch : Nat := 1000000000000

/-- Go's `GenesisEpoch`. -/
def GenesisEpoch : Nat := 0

/-- The share of each active committee the cuckoo rule moves, Go's `CuckooRate`. -/
def CuckooRate : ℚ := 1 / 10

/-- Go's `ShardingState`: the committees being reshuffled, and the seed of their epoch. -/
structure ShardingState where
  /-- The epoch the committees are from. -/
  epoch : Nat
  /-- The seed of the reshuffle. -/
  rnd : UInt64
  /-- The number of committees. -/
  numShards : Nat
  /-- The committees. -/
  shardState : ShardState

/-- Go's `structs.StakeInfo`: a staker's lock, as the node keeps it in `CurrentStakes`. -/
structure StakeInfo where
  /-- The staker's account. -/
  Account : Address
  /-- The staker's BLS key. -/
  BlsPublicKey : FixedBytes 96
  /-- The block the stake was locked in, a `*big.Int`. -/
  BlockNum : Nat
  /-- How many lock periods the stake is locked for, a `*big.Int`. -/
  LockPeriodCount : Nat
  /-- The amount staked, a `*big.Int`. -/
  Amount : Nat

/-- The calls resharding makes on the beacon chain, Go's `*BlockChain`. -/
structure ShardingChain where
  /-- The committees of an epoch, Go's `ReadShardState`. -/
  ReadShardState : Nat → Except String ShardState
  /-- The randomness seed of a block, zero for a missing block, Go's `GetRandSeedByNumber`. -/
  GetRandSeedByNumber : Nat → FixedBytes 32
  /-- The genesis committees, Go's `GetInitShardState`. -/
  GetInitShardState : ShardState

/-- Go's `IsEpochLastBlock`. -/
def IsEpochLastBlock (block : Block) : Bool :=
  block.NumberU64 % BlocksPerEpoch == BlocksPerEpoch - 1

/-- The first block of an epoch, which holds its seed, Go's `GetBlockNumberFromEpoch`. -/
def GetBlockNumberFromEpoch (epoch : Nat) : Nat := epoch * BlocksPerEpoch

/-- The epoch a block is in, Go's `GetEpochFromBlockNumber` over `uint64`. -/
def GetEpochFromBlockNumber (blockNumber : UInt64) : UInt64 := blockNumber / BlocksPerEpoch.toUInt64

/-- Go's `binary.BigEndian.Uint64`: the first eight bytes, most significant first. -/
def bigEndianUint64 (b : Bytes) : UInt64 :=
  ((b.take 8).foldl (fun (acc : Nat) (byte : UInt8) => acc * 256 + byte.toNat) 0).toUInt64

/-- Go's `int(percent * float64(n))`: the product, truncated toward zero. -/
def kickCount (percent : ℚ) (n : Nat) : Int := (percent * n).num.tdiv (percent * n).den

section Reshard

variable {σ : Type} (R : Go.Rand σ)

/--
Go's `Shuffle`: the nodes sorted by BLS key, so that every node starts from the same order, and
then shuffled by the global source.
-/
def Shuffle (s : σ) (list : List NodeID) : List NodeID × σ :=
  let list := sortByBLSKey list
  let (order, s) := R.Shuffle s list.length
  (Rand.permute list order, s)

namespace ShardingState

/-- Go's `sortCommitteeBySize`: larger committees first, by Go's unstable `sort.Slice`. -/
def sortCommitteeBySize (ss : ShardingState) : ShardingState :=
  { ss with
    shardState :=
      Sorting.Slice (fun a b => decide (a.NodeList.length > b.NodeList.length)) ss.shardState }

/-- `NodeList = append(NodeList, nid)` on one committee. -/
def appendNode (nid : NodeID) (c : Committee) : Committee :=
  { c with NodeList := c.NodeList ++ [nid] }

/-- One iteration of `assignNewNodes`: new node `i` joins active committee `i mod (N/2)`. -/
def assignStep (numActiveShards : Nat) (shardState : ShardState) (entry : NodeID × Nat) :
    ShardState :=
  let id := if numActiveShards > 0 then entry.2 % numActiveShards else 0
  -- A committee past the end is only logged, and the node is not placed.
  if id < shardState.length then shardState.modify id (appendNode entry.1) else shardState

/-- Go's `assignNewNodes`: the new nodes, shuffled, dealt round the active committees. -/
def assignNewNodes (ss : ShardingState) (newNodeList : List NodeID) (s : σ) :
    ShardingState × σ :=
  let ss := ss.sortCommitteeBySize
  let (newNodeList, s) := Shuffle R s newNodeList
  ({ ss with
      shardState := newNodeList.zipIdx.foldl (assignStep (ss.numShards / 2)) ss.shardState }, s)

/-- One iteration of `cuckooResharding`'s first loop: the tail of active committee `i` is kicked. -/
def kickStep (percent : ℚ) (state : List NodeID × ShardState) (i : Nat) :
    Outcome (List NodeID × ShardState) :=
  match state.2[i]? with
  | none => throw "index out of range"
  | some committee =>
    let length := committee.NodeList.length
    let numKicked := kickCount percent length
    -- At least kick one node out.
    let numKicked := if numKicked = 0 then 1 else numKicked
    -- Never empty a shard.
    if (length : Int) - numKicked ≤ 0 then pure state
    -- A negative count slices past the end of the list.
    else if numKicked < 0 then throw "slice bounds out of range"
    else
      let cut := length - numKicked.toNat
      pure (state.1 ++ committee.NodeList.drop cut,
        state.2.set i { committee with NodeList := committee.NodeList.take cut })

/--
One iteration of `cuckooResharding`'s second loop: kicked node `i` joins inactive committee
`N/2 + i mod (N - N/2)`.
-/
def placeKickedStep (numActiveShards numInactiveShards : Nat) (shardState : ShardState)
    (entry : NodeID × Nat) : Outcome ShardState :=
  let id := numActiveShards + if numInactiveShards > 0 then entry.2 % numInactiveShards else 0
  if id < shardState.length then pure (shardState.modify id (appendNode entry.1))
  else throw "index out of range"

/--
Go's `cuckooResharding`: the tail of every active committee is kicked out, and the kicked nodes,
shuffled, are dealt round the inactive committees.
-/
def cuckooResharding (ss : ShardingState) (percent : ℚ) (s : σ) :
    Outcome (ShardingState × σ) := do
  let numActiveShards := ss.numShards / 2
  -- `for i := range ss.shardState`, stopping at the first inactive committee.
  let (kickedNodes, shardState) ←
    (List.range (min numActiveShards ss.shardState.length)).foldlM (kickStep percent)
      ([], ss.shardState)
  let (kickedNodes, s) := Shuffle R s kickedNodes
  let numInactiveShards := ss.numShards - numActiveShards
  let shardState ← kickedNodes.zipIdx.foldlM
    (placeKickedStep numActiveShards numInactiveShards) shardState
  pure ({ ss with shardState }, s)

/-- One iteration of `Reshard`'s first loop: committee `i`'s leader is taken out, the rest
shuffled. -/
def takeLeaderStep (state : List NodeID × ShardState × σ) (i : Nat) :
    Outcome (List NodeID × ShardState × σ) :=
  let (leaders, shardState, s) := state
  match shardState[i]? with
  | none => throw "index out of range"
  | some committee =>
    match committee.NodeList with
    | [] => pure state
    | leader :: rest =>
      let (rest, s) := Shuffle R s rest
      pure (leaders ++ [leader], shardState.set i { committee with NodeList := rest }, s)

/-- One iteration of `Reshard`'s last loop: leader `i` is put back in front of committee `i`. -/
def putLeaderBackStep (leaders : List NodeID) (shardState : ShardState) (i : Nat) :
    Outcome ShardState :=
  match leaders[i]?, shardState[i]? with
  | some leader, some committee =>
    pure (shardState.set i { committee with NodeList := leader :: committee.NodeList })
  | _, _ => throw "index out of range"

/--
Go's `Reshard`: the leaders are taken out, the new nodes added to the active committees, the cuckoo
rule applied, and every committee given its leader back.
-/
def Reshard (ss : ShardingState) (newNodeList : List NodeID) (percent : ℚ) :
    Outcome ShardingState := do
  let s := R.Seed ss.rnd
  let ss := ss.sortCommitteeBySize
  let (leaders, shardState, s) ←
    (List.range ss.numShards).foldlM (takeLeaderStep R) ([], ss.shardState, s)
  let (ss, s) := assignNewNodes R { ss with shardState } newNodeList s
  let (ss, _) ← cuckooResharding R ss percent s
  -- Fewer leaders than shards is logged, and indexing the leaders then panics.
  let shardState ← (List.range ss.numShards).foldlM (putLeaderBackStep leaders) ss.shardState
  pure { ss with shardState }

/--
Go's `UpdateShardingState`: the stakers whose BLS key no committee holds, as new nodes, in the
order the stake map is iterated in. Its first loop only writes each committee's list back.
-/
def UpdateShardingState (Hex : Address → String) (ss : ShardingState)
    (stakeInfo : List (Address × StakeInfo)) : List NodeID :=
  let oldBlsPublicKeys := ss.shardState.flatMap fun shard => shard.NodeList.map (·.BlsPublicKey)
  stakeInfo.filterMap fun (addr, info) =>
    if info.BlsPublicKey ∈ oldBlsPublicKeys then none else some ⟨Hex addr, info.BlsPublicKey⟩

end ShardingState

/-- Go's `GetShardingStateFromBlockChain`: an epoch's committees, and the seed of its first block. -/
def GetShardingStateFromBlockChain (bc : ShardingChain) (epoch : Nat) :
    Except String ShardingState := do
  let shardState ← bc.ReadShardState epoch
  let rndSeed := bigEndianUint64 (bc.GetRandSeedByNumber (GetBlockNumberFromEpoch epoch)).bytes
  pure { epoch, rnd := rndSeed, shardState, numShards := shardState.length }

/--
Go's `CalculateNewShardState`: the committees of `epoch`, resharded from those of the epoch
before with the stakers as the stake map is iterated.
-/
def CalculateNewShardState (Hex : Address → String) (bc : ShardingChain) (epoch : Nat)
    (stakeInfo : List (Address × StakeInfo)) : Outcome (Except String ShardState) :=
  if epoch = GenesisEpoch then pure (.ok bc.GetInitShardState)
  else
    match GetShardingStateFromBlockChain bc (epoch - 1) with
    | .error err => pure (.error ("cannot retrieve previous sharding state: " ++ err))
    | .ok ss => do
      let newNodeList := ss.UpdateShardingState Hex stakeInfo
      let ss ← ss.Reshard R newNodeList CuckooRate
      pure (.ok ss.shardState)

end Reshard

end Core

end Harmony
