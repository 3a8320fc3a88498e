import Harmony.Consensus.Machine
import Harmony.Crypto.Linear

/-!
What a validator checks of the certificates it commits on and appends, and a committee of four
over the linear scheme whose runs show what it does not check.
-/

namespace Harmony

open Go

namespace Committee

/-- The genesis header: height zero and every other field zero. -/
def genesis : Header := {
  ParentHash := FixedBytes.zero 32, Root := FixedBytes.zero 32, TxHash := FixedBytes.zero 32
  ReceiptHash := FixedBytes.zero 32, Bloom := [], Number := 0, GasLimit := 0, GasUsed := 0
  Epoch := 0, ShardID := 1, PrepareSignature := FixedBytes.zero 48, PrepareBitmap := []
  CommitSignature := FixedBytes.zero 48, CommitBitmap := [], RandSeed := FixedBytes.zero 32
  ShardStateHash := FixedBytes.zero 32, ShardState := [] }

/-- A chain holding only the genesis header. -/
def genesisChain : Chain := ⟨[genesis], by simp⟩

/-- The linear scheme's header hash, named apart since the scheme's codec holds blocks using it. -/
def headerHash (header : Header) : Hash := FixedBytes.ofBytes 32 (Linear.headerBytes header)

/-- A block of height one on genesis, told apart from other proposals by its state root. -/
def proposal (root : UInt8) : Block :=
  let header := { genesis with
    Number := 1, Root := FixedBytes.ofBytes 32 [root], ParentHash := headerHash genesis }
  ⟨header, []⟩

/-- The linear scheme over the two proposals of height one. -/
def scheme : Primitives Int Int := Linear.primitives [proposal 1, proposal 2]

/-- The committee's keys, in shard-state order: the first leads view zero. -/
def keys : List Int := [1, 10, 100, 1000]

/-- The hash of a proposal, as validators compute it and messages carry it. -/
def proposalHash (root : UInt8) : Hash := scheme.HeaderHash (proposal root).header

/-- A message with the signature its sender `key` makes over it. -/
def signedBy (key : Int) (msg : Message) : Message :=
  let msgHash := scheme.MessageHash { msg with Signature := [] }
  { msg with Signature := scheme.SerializeSign (scheme.SignHash key msgHash) }

/-- A normal-mode message that `key` sends. -/
def consensusMessage (key : Int) (msgType : MessageType) (viewID : UInt32) (blockNum : Nat)
    (blockHash : Hash) (payload : Bytes) : Message :=
  signedBy key {
    serviceType := .CONSENSUS, msgType := msgType, Signature := []
    request := .consensus {
      ViewId := viewID, BlockNum := blockNum, BlockHash := blockHash.bytes
      SenderPubkey := scheme.SerializeKey key, Payload := payload } }

/-- An aggregate of `signers`' signatures on `m` followed by a bitmap, as certificates hold them. -/
def certificate (signers : List Int) (m : Bytes) (bitmap : Bytes) : Bytes :=
  scheme.SerializeSign (AggregateSig (signers.map fun key => scheme.SignHash key m)) ++ bitmap

/-- A state-sync reader that never waits for a block. -/
def noReader : Nat → Bool := fun _ => false

/-- An announce from `sender` of a proposal at height one in view zero. -/
def announce (sender : Int) (root : UInt8) : Message :=
  consensusMessage sender .ANNOUNCE 0 1 (proposalHash root) (scheme.EncodeBlock (proposal root))

/-- A node of the committee with key `key`, started on genesis with key 1 as its leader peer. -/
def member (key : Int) : Node Int Int := Node.boot scheme key 1 1 genesisChain keys false

/-- A member that has received the leader's announce of proposal one. -/
def announced (key : Int) : Node Int Int :=
  ((member key).exec scheme [.message (announce 1 1) noReader]).getD (member key)

/-- The prepared certificate of keys 1, 10 and 100 on proposal one, the first three bits set. -/
def preparedPayload : Bytes := certificate [1, 10, 100] (proposalHash 1).bytes [7]

/-- The leader's quorum-prepared message for proposal one. -/
def quorumPrepared : Message := consensusMessage 1 .PREPARED 0 1 (proposalHash 1) preparedPayload

/-- The leader's committed message for proposal one, with the commits of `signers`. -/
def committed (signers : List Int) (bitmap : Bytes) : Message :=
  consensusMessage 1 .COMMITTED 0 1 (proposalHash 1) (certificate signers preparedPayload bitmap)

/-- A member that took the announce, the quorum certificate and then a committed certificate. -/
def finalized (key : Int) (signers : List Int) (bitmap : Bytes) : Node Int Int :=
  let events := [.message quorumPrepared noReader, .message (committed signers bitmap) noReader]
  ((announced key).exec scheme events).getD (announced key)

/-- The head of a member's chain. -/
def chainHead (n : Node Int Int) : Header := n.consensus.ChainReader.CurrentHeader

/-- Every member that took the announce is in a reachable state. -/
theorem announced_reachable (key : Int)
    (ran : ((member key).exec scheme [.message (announce 1 1) noReader]).isSome) :
    Node.Reachable scheme (announced key) :=
  (Node.reachable_boot scheme (by decide)).execD scheme _ ran

/-- Every member that took the announce and both certificates is in a reachable state. -/
theorem finalized_reachable (key : Int) (signers : List Int) (bitmap : Bytes)
    (announceRan : ((member key).exec scheme [.message (announce 1 1) noReader]).isSome)
    (ran : ((announced key).exec scheme
      [.message quorumPrepared noReader, .message (committed signers bitmap) noReader]).isSome) :
    Node.Reachable scheme (finalized key signers bitmap) :=
  (announced_reachable key announceRan).execD scheme _ ran

end Committee

namespace Consensus

open Committee

/-- The leader's prepared certificate for proposal one carrying only its own signature. -/
def singleSignerPrepared : Message :=
  consensusMessage 1 .PREPARED 0 1 (proposalHash 1) (certificate [1] (proposalHash 1).bytes [1])

set_option maxRecDepth 10000 in
/-- Validators ten and a hundred take the leader's announce of proposal one. -/
theorem announced_ran (key : Int) (keyed : key = 10 ∨ key = 100) :
    ((member key).exec scheme [.message (announce 1 1) noReader]).isSome := by
  rcases keyed with rfl | rfl <;> decide

set_option maxRecDepth 10000 in
/-- Validator ten, once announced to, follows a leader, with a quorum of three of four keys. -/
theorem announced_follows :
    (announced 10).consensus.PubKey ≠ (announced 10).consensus.LeaderPubKey ∧
      (announced 10).consensus.Quorum = 3 := by
  decide

set_option maxRecDepth 10000 in
/-- On the leader's lone certificate validator ten sends one message, a commit. -/
theorem announced_commits_on_single_signer :
    ((announced 10).consensus.dispatch scheme (.message singleSignerPrepared noReader)).toOption.map
        (fun result => (sentMessages result.2).map Message.msgType) =
      some [.COMMIT] := by
  decide

set_option maxRecDepth 10000 in
/-- The lone certificate reads as the leader's signature on the block hash, one key enabled. -/
theorem single_signer_certificate_read :
    ((announced 10).consensus.readSignatureBitmapPayload scheme
        (certificate [1] (proposalHash 1).bytes [1]) 0).toOption.map
      (fun read => (read.1, read.2.GetPubKeyFromMask true, read.2.CountEnabled)) =
      some (scheme.SignHash 1 (proposalHash 1).bytes, [1], 1) := by
  decide

/--
A validator commits on a prepared certificate signed by the leader alone: the bitmap enables one
key of four, below the quorum of three, and that key did sign the block hash.
-/
theorem single_signer_certificate_committed :
    ∃ effects n', Node.Reachable scheme (announced 10) ∧
      (announced 10).consensus.PubKey ≠ (announced 10).consensus.LeaderPubKey ∧
      Node.Step scheme (announced 10) (.message singleSignerPrepared noReader) effects n' ∧
      (sentMessages effects).map Message.msgType = [.COMMIT] ∧
      ((announced 10).consensus.readSignatureBitmapPayload scheme
          (certificate [1] (proposalHash 1).bytes [1]) 0).toOption.map
        (fun read => (read.1, read.2.GetPubKeyFromMask true, read.2.CountEnabled)) =
        some (scheme.SignHash 1 (proposalHash 1).bytes, [1], 1) ∧
      (announced 10).consensus.Quorum = 3 := by
  -- The validator's step on the certificate is evaluated, and its one message is a commit.
  obtain ⟨effects, n', step, sent⟩ :=
    Node.exists_step scheme (announced 10) (.message singleSignerPrepared noReader) trivial
      (fun result => (sentMessages result.2).map Message.msgType) [.COMMIT]
      announced_commits_on_single_signer
  obtain ⟨follower, quorum⟩ := announced_follows
  exact ⟨effects, n', announced_reachable 10 (announced_ran 10 (.inl rfl)),
    follower, step, sent, single_signer_certificate_read, quorum⟩

end Consensus

namespace Committee

/-- The leader's prepared certificate on proposal `root` with its own signature alone. -/
def lonePreparedPayload (root : UInt8) : Bytes := certificate [1] (proposalHash root).bytes [1]

/-- The leader's committed message on proposal `root`, with its own commit alone. -/
def loneCommitted (root : UInt8) : Message :=
  consensusMessage 1 .COMMITTED 0 1 (proposalHash root)
    (certificate [1] (lonePreparedPayload root) [1])

/--
A member that took the leader's announce of proposal `root`, then the leader's lone prepared and
committed certificates on it.
-/
def loneFinalized (key : Int) (root : UInt8) : Node Int Int :=
  let events := [.message (announce 1 root) noReader,
    .message (consensusMessage 1 .PREPARED 0 1 (proposalHash root) (lonePreparedPayload root))
      noReader,
    .message (loneCommitted root) noReader]
  ((member key).exec scheme events).getD (member key)

/-- Every member that ran the leader's lone certificates is in a reachable state. -/
theorem loneFinalized_reachable (key : Int) (root : UInt8)
    (ran : ((member key).exec scheme [.message (announce 1 root) noReader,
      .message (consensusMessage 1 .PREPARED 0 1 (proposalHash root) (lonePreparedPayload root))
        noReader, .message (loneCommitted root) noReader]).isSome) :
    Node.Reachable scheme (loneFinalized key root) :=
  (Node.reachable_boot scheme (by decide)).execD scheme _ ran

end Committee

namespace Consensus

open Committee

set_option maxRecDepth 10000 in
/-- Validator ten runs proposal one through lone certificates, and a hundred proposal two. -/
theorem lone_certificates_ran :
    ((member 10).exec scheme [.message (announce 1 1) noReader,
      .message (consensusMessage 1 .PREPARED 0 1 (proposalHash 1) (lonePreparedPayload 1))
        noReader, .message (loneCommitted 1) noReader]).isSome ∧
    ((member 100).exec scheme [.message (announce 1 2) noReader,
      .message (consensusMessage 1 .PREPARED 0 1 (proposalHash 2) (lonePreparedPayload 2))
        noReader, .message (loneCommitted 2) noReader]).isSome := by
  constructor <;> decide

set_option maxRecDepth 10000 in
/-- Each of the two appended a block of height one with the leader's bit alone. -/
theorem lone_certificates_heads :
    (loneFinalized 10 1).consensus.ChainReader.headers.length = 2 ∧
      (chainHead (loneFinalized 10 1)).Number = 1 ∧
      (chainHead (loneFinalized 10 1)).CommitBitmap = [1] ∧
      (loneFinalized 100 2).consensus.ChainReader.headers.length = 2 ∧
      (chainHead (loneFinalized 100 2)).Number = 1 ∧
      (chainHead (loneFinalized 100 2)).CommitBitmap = [1] := by
  decide

set_option maxRecDepth 10000 in
/-- The two blocks are the two proposals: their state roots differ. -/
theorem lone_certificates_roots :
    (chainHead (loneFinalized 10 1)).Root ≠ (chainHead (loneFinalized 100 2)).Root := by
  decide

set_option maxRecDepth 10000 in
/-- Validators ten and a hundred run proposal one through two different quorums of commits. -/
theorem quorum_certificates_ran :
    ((announced 10).exec scheme
      [.message quorumPrepared noReader, .message (committed [1, 10, 100] [7]) noReader]).isSome ∧
    ((announced 100).exec scheme
      [.message quorumPrepared noReader, .message (committed [1, 10, 1000] [11]) noReader]).isSome := by
  constructor <;> decide

set_option maxRecDepth 10000 in
/-- Each appended a block of height one with the bitmap of its own committed certificate. -/
theorem quorum_certificates_heads :
    (finalized 10 [1, 10, 100] [7]).consensus.ChainReader.headers.length = 2 ∧
      (chainHead (finalized 10 [1, 10, 100] [7])).Number = 1 ∧
      (chainHead (finalized 10 [1, 10, 100] [7])).CommitBitmap = [7] ∧
      (finalized 100 [1, 10, 1000] [11]).consensus.ChainReader.headers.length = 2 ∧
      (chainHead (finalized 100 [1, 10, 1000] [11])).Number = 1 ∧
      (chainHead (finalized 100 [1, 10, 1000] [11])).CommitBitmap = [11] := by
  decide

set_option maxRecDepth 10000 in
/-- The two blocks have one state root and different header hashes. -/
theorem quorum_certificates_hashes :
    (chainHead (finalized 10 [1, 10, 100] [7])).Root =
        (chainHead (finalized 100 [1, 10, 1000] [11])).Root ∧
      scheme.HeaderHash (chainHead (finalized 10 [1, 10, 100] [7])) ≠
        scheme.HeaderHash (chainHead (finalized 100 [1, 10, 1000] [11])) := by
  decide

/--
Two honest validators append different blocks at height one. A faulty leader announces proposal
one to validator ten and proposal two to validator a hundred, and hands each prepared and
committed certificates that hold its own signature alone; both validators append, so the blocks
differ in their state roots. Even on one proposal with certificates of a quorum each, the leader
can hand the two validators different quorums of the four commits, and their headers then differ
in the commit bitmap, which the header hash covers.
-/
theorem validators_append_different_blocks :
    (Node.Reachable scheme (loneFinalized 10 1) ∧ Node.Reachable scheme (loneFinalized 100 2) ∧
      (loneFinalized 10 1).consensus.ChainReader.headers.length = 2 ∧
      (loneFinalized 100 2).consensus.ChainReader.headers.length = 2 ∧
      (chainHead (loneFinalized 10 1)).Number = 1 ∧ (chainHead (loneFinalized 100 2)).Number = 1 ∧
      (chainHead (loneFinalized 10 1)).CommitBitmap = [1] ∧
      (chainHead (loneFinalized 100 2)).CommitBitmap = [1] ∧
      (chainHead (loneFinalized 10 1)).Root ≠ (chainHead (loneFinalized 100 2)).Root) ∧
    (Node.Reachable scheme (finalized 10 [1, 10, 100] [7]) ∧
      Node.Reachable scheme (finalized 100 [1, 10, 1000] [11]) ∧
      (finalized 10 [1, 10, 100] [7]).consensus.ChainReader.headers.length = 2 ∧
      (finalized 100 [1, 10, 1000] [11]).consensus.ChainReader.headers.length = 2 ∧
      (chainHead (finalized 10 [1, 10, 100] [7])).Number = 1 ∧
      (chainHead (finalized 100 [1, 10, 1000] [11])).Number = 1 ∧
      (chainHead (finalized 10 [1, 10, 100] [7])).Root =
        (chainHead (finalized 100 [1, 10, 1000] [11])).Root ∧
      (chainHead (finalized 10 [1, 10, 100] [7])).CommitBitmap = [7] ∧
      (chainHead (finalized 100 [1, 10, 1000] [11])).CommitBitmap = [11] ∧
      scheme.HeaderHash (chainHead (finalized 10 [1, 10, 100] [7])) ≠
        scheme.HeaderHash (chainHead (finalized 100 [1, 10, 1000] [11]))) := by
  -- Equivocation: the two validators' runs differ from the announce on.
  have lone₁ := loneFinalized_reachable 10 1 lone_certificates_ran.1
  have lone₂ := loneFinalized_reachable 100 2 lone_certificates_ran.2
  obtain ⟨length₁, height₁, bitmap₁, length₂, height₂, bitmap₂⟩ := lone_certificates_heads
  -- Quorums: both validators run the same announce and prepared certificate before their
  -- commits differ.
  obtain ⟨length₁', height₁', bitmap₁', length₂', height₂', bitmap₂'⟩ := quorum_certificates_heads
  obtain ⟨sameRoot, differ⟩ := quorum_certificates_hashes
  exact ⟨⟨lone₁, lone₂, length₁, length₂, height₁, height₂, bitmap₁, bitmap₂, lone_certificates_roots⟩,
    finalized_reachable 10 _ _ (announced_ran 10 (.inl rfl)) quorum_certificates_ran.1,
    finalized_reachable 100 _ _ (announced_ran 100 (.inr rfl)) quorum_certificates_ran.2,
    length₁', length₂', height₁', height₂', sameRoot, bitmap₁', bitmap₂', differ⟩

end Consensus

end Harmony
