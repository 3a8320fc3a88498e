import Harmony.Proofs.Consensus.Views
import Harmony.Consensus.Reward

/-!
Which accounts the block reward pays: the parent's commit bitmap is written over the leader's
`PublicKeys` and read over the committee of the parent epoch's shard state.
-/

namespace Harmony

open Go

namespace Committee

/-- A prepare from `key` for proposal one in view zero: its signature on the block hash. -/
def prepareFrom (key : Int) : Message :=
  consensusMessage key .PREPARE 0 1 (proposalHash 1)
    (scheme.SerializeSign (scheme.SignHash key (proposalHash 1).bytes))

/-- The prepared certificate of keys 1, 100 and 1000 over the committee without key ten. -/
def reducedPrepared : Bytes := certificate [1, 100, 1000] (proposalHash 1).bytes [7]

/-- A commit from `key` for proposal one in view zero: its signature on that certificate. -/
def commitFrom (key : Int) : Message :=
  consensusMessage key .COMMIT 0 1 (proposalHash 1)
    (scheme.SerializeSign (scheme.SignHash key reducedPrepared))

/--
What leader 1 receives when it drops key ten: `RemovePeers` of key ten, its own proposal of block
one, and the prepares and commits of keys 100 and 1000.
-/
def rewardInputs : List (Event Int) := [
  .removePeers [10],
  .newBlock (proposal 1),
  .message (prepareFrom 100) noReader,
  .message (prepareFrom 1000) noReader,
  .message (commitFrom 100) noReader,
  .message (commitFrom 1000) noReader]

/-- Leader 1 with a commit quorum of its reduced committee on proposal one. -/
def rewardLeader : Node Int Int := after (member 1) rewardInputs

/-- The reward account that the node record of member `key` names. -/
def ecdsaOf (key : Int) : String := "one" ++ toString key

/-- An address for each account name, standing in for go-ethereum's `common.HexToAddress`. -/
def hexToAddress (account : String) : Address :=
  FixedBytes.ofBytes 20 (account.toList.map (·.toNat.toUInt8))

/-- The node record of member `key` in the shard state. -/
def nodeOf (key : Int) : NodeID := ⟨ecdsaOf key, FixedBytes.ofBytes 96 (scheme.SerializeKey key)⟩

/-- The shard state of epoch zero: shard one is the committee of the four keys. -/
def shardOne : ShardState := [⟨1, keys.map nodeOf⟩]

/-- A chain holding `parent` and the shard state of epoch zero. -/
def parentChain (parent : Header) : RewardChain :=
  ⟨fun hash => if hash = scheme.HeaderHash parent then some parent else none, fun _ => .ok shardOne⟩

/-- The header of block two on `parent`. -/
def childOf (parent : Header) : Header :=
  { genesis with Number := 2, ParentHash := scheme.HeaderHash parent }

/-- A state that records the accounts credited, in order. -/
def logCredit (credited : List Address) (account : Address) (_ : Int) : List Address :=
  credited ++ [account]

end Committee

namespace Consensus

open Committee

set_option maxRecDepth 10000 in
/-- Leader 1 runs the inputs without panicking. -/
theorem rewardLeader_ran : ((member 1).exec scheme rewardInputs).isSome := by
  decide

set_option maxRecDepth 10000 in
/-- Its commit grace period can end. -/
theorem rewardLeader_finishing :
    rewardLeader.Enabled (.commitFinish rewardLeader.consensus.round noReader) := by
  decide

set_option maxRecDepth 10000 in
/--
The end finalizes one block whose bitmap names keys 1, 100 and 1000, while the next block's
reward credits keys 1, 10 and 100.
-/
theorem rewardLeader_rewards :
    (rewardLeader.consensus.dispatch scheme
      (.commitFinish rewardLeader.consensus.round noReader)).toOption.map
        (fun result => (consensusDoneBlocks result.2).map fun block =>
          (((NewMask rewardLeader.consensus.PublicKeys none).bind
              (·.SetMask block.header.CommitBitmap)).map (·.GetPubKeyFromMask true),
            accumulateRewards scheme hexToAddress logCredit (parentChain block.header) []
              (childOf block.header))) =
      some [(.ok [1, 100, 1000], .ok ([1, 10, 100].map (hexToAddress ∘ ecdsaOf)))] := by
  decide

/--
Leader 1 drops key ten with `RemovePeers` and reaches a commit quorum of keys 1, 100 and 1000 on
block one, whose commit bitmap `[7]` names those keys over its committee. Paying the next block's
reward reads that bitmap over the shard state's committee of four keys and credits keys 1, 10 and
100: key ten, which did not sign, is paid, and key 1000, which did, is not.
-/
theorem removed_member_rewarded_for_signer :
    ∃ trace effects n' block,
      (member 1).consensus.RemovePeers scheme [10] =
        ((member 1).consensus.UpdatePublicKeys scheme [1, 100, 1000]).map (·, 1) ∧
      Transition.Run (Node.Step scheme) (member 1) trace rewardLeader ∧
      trace.map Prod.fst = rewardInputs ∧ Node.Reachable scheme (member 1) ∧
      Node.Step scheme rewardLeader (.commitFinish rewardLeader.consensus.round noReader)
        effects n' ∧
      consensusDoneBlocks effects = [block] ∧
      ((NewMask rewardLeader.consensus.PublicKeys none).bind (·.SetMask block.header.CommitBitmap)).map
        (·.GetPubKeyFromMask true) = .ok [1, 100, 1000] ∧
      accumulateRewards scheme hexToAddress logCredit (parentChain block.header) []
          (childOf block.header) =
        .ok ([1, 10, 100].map (hexToAddress ∘ ecdsaOf)) := by
  -- The leader's inputs are one run; the grace period's end is evaluated from where it leads.
  obtain ⟨trace, run, inputs⟩ := after_run (member 1) rewardInputs rewardLeader_ran
  have finishing :=
    Node.exists_step scheme rewardLeader (.commitFinish rewardLeader.consensus.round noReader)
      rewardLeader_finishing
      (fun result => (consensusDoneBlocks result.2).map fun block =>
        (((NewMask rewardLeader.consensus.PublicKeys none).bind
            (·.SetMask block.header.CommitBitmap)).map (·.GetPubKeyFromMask true),
          accumulateRewards scheme hexToAddress logCredit (parentChain block.header) []
            (childOf block.header)))
      [(.ok [1, 100, 1000], .ok ([1, 10, 100].map (hexToAddress ∘ ecdsaOf)))]
  obtain ⟨effects, n', step, finalized⟩ := finishing rewardLeader_rewards
  -- The grace period finalizes one block, and what is observed of it is the pair above.
  obtain ⟨block, done, observed⟩ := List.map_eq_singleton_iff.mp finalized
  simp only [Prod.mk.injEq] at observed
  exact ⟨trace, effects, n', block, rfl, run, inputs, member_reachable 1, step, done,
    observed.1, observed.2⟩

end Consensus

end Harmony
