import Harmony.Proofs.Core.Resharding

/-!
Where a node goes at an epoch's end (`transitionIntoNextEpoch`, `node/node_handler.go`). The node
looks its key up in the new shard state and reads its shard off the position of the committee that
holds it. That is the committee's shard only in a state that lists every shard in order from 0; a
regular shard's header holds its own committee alone, at position 0.
-/

namespace Harmony

open Go Harmony.Core

/-- The role search stops at the first committee holding the key, and reports its position. -/
theorem findRoleFrom_cons_of_mem (keyBytes : Bytes) (idx : Nat) {shard : Committee}
    (rest : ShardState) {member : NodeID} (listed : member ∈ shard.NodeList)
    (matching : member.BlsPublicKey.bytes = keyBytes) :
    (findRoleFrom keyBytes idx (shard :: rest)).1 = idx % 2 ^ 32 := by
  -- The committee holds a member with the key, so the search inside it finds an index.
  have found : (shard.NodeList.findIdx? fun nodeID =>
      bytesCompare nodeID.BlsPublicKey.bytes keyBytes == .eq).isSome := by
    rw [List.findIdx?_isSome, List.any_eq_true]
    exact ⟨member, listed, by simp [matching]⟩
  obtain ⟨nodeIdx, atIdx⟩ := Option.isSome_iff_exists.mp found
  simp [findRoleFrom, atIdx]

/-- The committee the beacon chain decided for a shard runs that shard. -/
theorem FindCommitteeByID_shardID {ss : ShardState} {shardID : Nat} {committee : Committee}
    (decided : FindCommitteeByID ss shardID = some committee) : committee.ShardID = shardID := by
  simpa using List.find?_some decided

/-- `Hash` leaves a lone committee in place with its members sorted by BLS key. -/
theorem Hash_singleton (Keccak256 : Bytes → Bytes) (committee : Committee) :
    (ShardState.Hash Keccak256 [committee]).2 =
      [{ committee with NodeList := (GetHashFromNodeList Keccak256 committee.NodeList).2 }] := by
  simp [ShardState.Hash, Sorting.Slice_singleton]

/-- Hashing keeps the members of a committee, sorted or not. -/
theorem GetHashFromNodeList_perm_self (Keccak256 : Bytes → Bytes) (nodeList : List NodeID) :
    (GetHashFromNodeList Keccak256 nodeList).2.Perm nodeList := by
  unfold GetHashFromNodeList
  split
  · exact List.Perm.refl _
  · exact (Sorting.Slice_sorted byBLSKey_strictWeak nodeList).1

/-- The last block of epoch zero on shard 1. -/
def shardOneBlock : Block :=
  { epochLastBlock with header := { epochLastBlock.header with ShardID := 1 } }

/-- The beacon chain's decision: the leader runs shard 0, the member shard 1. -/
def twoShardDecision : NextShardState :=
  ⟨some [⟨0, [beaconLeader]⟩, ⟨1, [beaconMember]⟩], true⟩

/--
A node of a regular shard `s ≠ 0` that the beacon chain keeps in `s` restarts into shard 0 at the
epoch's end. Its leader proposes the shard's committee alone; `findRoleInShardState` reports that
committee's position, 0, as the node's shard; and `transitionIntoNextEpoch` sees 0 differ from `s`.
-/
theorem regular_node_restarts_in_shard_zero (Keccak256 : Bytes → Bytes) (next : NextShardState)
    (block : Block) {master : ShardState} {committee : Committee} {member : NodeID}
    (received : next.master = some master) (reached : next.proposeTimeReached = true)
    (decided : FindCommitteeByID master block.header.ShardID = some committee)
    (regular : block.header.ShardID ≠ 0) (kept : member ∈ committee.NodeList) :
    (proposeLocalShardState Keccak256 next block).header.ShardState.map (·.ShardID) =
        [block.header.ShardID] ∧
      member ∈ (proposeLocalShardState Keccak256 next block).header.ShardState.flatMap
        (·.NodeList) ∧
      (findRoleInShardState member.BlsPublicKey.bytes
        (proposeLocalShardState Keccak256 next block).header.ShardState).1 = 0 ∧
      ∃ publicKeys, transitionIntoNextEpoch block.header.ShardID member.BlsPublicKey.bytes
        (proposeLocalShardState Keccak256 next block).header.ShardState =
          .ok (.restart 0 publicKeys) := by
  -- The header stores the decided committee alone, its members sorted by `Hash`.
  have proposed : (proposeLocalShardState Keccak256 next block).header.ShardState =
      [{ committee with NodeList := (GetHashFromNodeList Keccak256 committee.NodeList).2 }] := by
    simp [proposeLocalShardState, received, reached, decided, Block.AddShardState, Hash_singleton]
  have sorted : member ∈ (GetHashFromNodeList Keccak256 committee.NodeList).2 :=
    (GetHashFromNodeList_perm_self Keccak256 committee.NodeList).symm.subset kept
  have position : (findRoleInShardState member.BlsPublicKey.bytes
      [{ committee with NodeList := (GetHashFromNodeList Keccak256 committee.NodeList).2 }]).1 = 0 :=
    findRoleFrom_cons_of_mem _ 0 [] sorted rfl
  refine ⟨?_, ?_, ?_, ?_⟩
  · simp [proposed, FindCommitteeByID_shardID decided]
  · simpa [proposed] using sorted
  · rw [proposed, position]
  · rw [proposed]
    unfold transitionIntoNextEpoch
    generalize findRoleInShardState member.BlsPublicKey.bytes _ = role at position ⊢
    obtain ⟨myShardID, isLeader⟩ := role
    -- Position 0 holds a committee of the state, and 0 is not the node's shard.
    obtain rfl : myShardID = 0 := position
    simp [MaxUint32, regular]

theorem regular_node_restarts_in_shard_zero_shard_one :
    (twoShardDecision.master = some [⟨0, [beaconLeader]⟩, ⟨1, [beaconMember]⟩] ∧
      twoShardDecision.proposeTimeReached = true ∧
      FindCommitteeByID [⟨0, [beaconLeader]⟩, ⟨1, [beaconMember]⟩] shardOneBlock.header.ShardID =
        some ⟨1, [beaconMember]⟩ ∧
      shardOneBlock.header.ShardID ≠ 0 ∧ beaconMember ∈ [beaconMember]) ∧
    (proposeLocalShardState id twoShardDecision shardOneBlock).header.ShardState.map
        (·.ShardID) = [shardOneBlock.header.ShardID] ∧
      beaconMember ∈
        (proposeLocalShardState id twoShardDecision shardOneBlock).header.ShardState.flatMap
          (·.NodeList) ∧
      (findRoleInShardState beaconMember.BlsPublicKey.bytes
        (proposeLocalShardState id twoShardDecision shardOneBlock).header.ShardState).1 = 0 ∧
      ∃ publicKeys, transitionIntoNextEpoch shardOneBlock.header.ShardID
        beaconMember.BlsPublicKey.bytes
        (proposeLocalShardState id twoShardDecision shardOneBlock).header.ShardState =
          .ok (.restart 0 publicKeys) := by
  have received : twoShardDecision.master = some [⟨0, [beaconLeader]⟩, ⟨1, [beaconMember]⟩] := rfl
  have decided : FindCommitteeByID [⟨0, [beaconLeader]⟩, ⟨1, [beaconMember]⟩]
      shardOneBlock.header.ShardID = some ⟨1, [beaconMember]⟩ := by decide
  have regular : shardOneBlock.header.ShardID ≠ 0 := by decide
  have kept : beaconMember ∈ [beaconMember] := List.mem_singleton_self _
  exact ⟨⟨received, rfl, decided, regular, kept⟩,
    regular_node_restarts_in_shard_zero id twoShardDecision shardOneBlock received rfl decided
      regular kept⟩

end Harmony
