import Harmony.Core.Types
import Harmony.Lib.GoSort

/-!
Comparing, hashing and storing shard states: `core/types/shard_state.go` and
`Block.AddShardState` of `core/types/block.go`.

`sort.Slice` is Go 1.12's, `Go.Sorting.Slice`; it is not stable. Keccak-256 is a parameter.
-/

namespace Harmony

open Go

/-- Go's `strings.Compare`; UTF-8 orders strings as their code points do, which is Lean's order. -/
def stringsCompare (a b : String) : Ordering := compare a b

/-- Go's `CompareBlsPublicKey`: the keys' bytes, lexicographically. -/
def CompareBlsPublicKey (k1 k2 : FixedBytes 96) : Ordering := bytesCompare k1.bytes k2.bytes

/-- Go's `CompareNodeID`: by account, then by BLS key. -/
def CompareNodeID (id1 id2 : NodeID) : Ordering :=
  match stringsCompare id1.EcdsaAddress id2.EcdsaAddress with
  | .eq => CompareBlsPublicKey id1.BlsPublicKey id2.BlsPublicKey
  | c => c

/-- Go's `CompareNodeIDList`. -/
def CompareNodeIDList : List NodeID → List NodeID → Ordering := compareSlices CompareNodeID

/-- Go's `CompareCommittee`: by shard, then by member list. -/
def CompareCommittee (c1 c2 : Committee) : Ordering :=
  if c1.ShardID < c2.ShardID then .lt
  else if c1.ShardID > c2.ShardID then .gt
  else CompareNodeIDList c1.NodeList c2.NodeList

/-- Go's `CompareShardState`. -/
def CompareShardState : ShardState → ShardState → Ordering := compareSlices CompareCommittee

/-- Go's `CompareNodeIDByBLSKey`: by BLS key alone. -/
def CompareNodeIDByBLSKey (n1 n2 : NodeID) : Ordering :=
  bytesCompare n1.BlsPublicKey.bytes n2.BlsPublicKey.bytes

/-- The committee of a shard, Go's `ShardState.FindCommitteeByID`. -/
def FindCommitteeByID (ss : ShardState) (shardID : Nat) : Option Committee :=
  ss.find? (·.ShardID = shardID)

/-- Go's `NodeID.Serialize`: the BLS key, then the account's bytes. -/
def NodeID.Serialize (n : NodeID) : Bytes := n.BlsPublicKey.bytes ++ n.EcdsaAddress.toUTF8.toList

/-- `sort.Slice` of nodes by `CompareNodeIDByBLSKey`, as `Shuffle` and `GetHashFromNodeList` sort. -/
def sortByBLSKey (nodeList : List NodeID) : List NodeID :=
  Sorting.Slice (fun a b => CompareNodeIDByBLSKey a b == .lt) nodeList

/-- Go's `GetHashFromNodeList`: the hash, and the list as it leaves it, sorted in place. -/
def GetHashFromNodeList (Keccak256 : Bytes → Bytes) (nodeList : List NodeID) :
    Bytes × List NodeID :=
  if nodeList = [] then ([], nodeList)
  else
    let sorted := sortByBLSKey nodeList
    (Keccak256 (sorted.flatMap NodeID.Serialize), sorted)

/--
Go's `ShardState.Hash`: the hash, and the state as it leaves it. It sorts the committees by shard
and, through `GetHashFromNodeList`, every member list by BLS key, all in place.
-/
def ShardState.Hash (Keccak256 : Bytes → Bytes) (ss : ShardState) : Hash × ShardState :=
  let ss := Sorting.Slice (fun a b => decide (a.ShardID < b.ShardID)) ss
  let hashed := ss.map fun c => GetHashFromNodeList Keccak256 c.NodeList
  (FixedBytes.ofBytes 32 (Keccak256 (hashed.flatMap Prod.fst)),
    (ss.zip hashed).map fun (c, h) => { c with NodeList := h.2 })

/--
Go's `Block.AddShardState`. It hashes a copy of the committee slice, but the copy shares every
member list with the original, so the header stores the state as `Hash` leaves it.
-/
def Block.AddShardState (Keccak256 : Bytes → Bytes) (b : Block) (shardState : ShardState) :
    Block :=
  let (hash, stored) := ShardState.Hash Keccak256 shardState
  { b with header := { b.header with ShardStateHash := hash, ShardState := stored } }

end Harmony
