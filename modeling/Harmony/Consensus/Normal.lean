import Harmony.Consensus.Messages

/-!
The normal-mode handlers of `consensus_v2.go`: announce, prepare, prepared, commit, committed,
finalization, and the catch-up loop.

Each handler returns as soon as a check fails, keeping what it changed before that check, as the
Go code does. `ready h` says whether the state-sync reader is waiting when the block of height
`h` is offered on the unbuffered `VerifiedNewBlock` channel.
-/

namespace Harmony

open Go

namespace Consensus

variable {K S : Type} [AddCommGroup K] [DecidableEq K] [AddCommMonoid S]
variable (P : Primitives K S)

/-- Check that a header's parent is on the chain, Go's `VerifyHeader` without a seal check. -/
def VerifyHeader (chain : Chain) (header : Header) : Bool :=
  -- `header.Number.Uint64()-1` wraps at zero, so a number-zero header finds no parent.
  (chain.GetHeader P.HeaderHash header.ParentHash ((header.Number + 2 ^ 64 - 1) % 2 ^ 64)).isSome

/-- The leader proposes a block, Go's `tryAnnounce`. -/
def tryAnnounce (c : Consensus K S) (block : Block) : Outcome (Consensus K S × List Effect) := do
  if block.NumberU64 ≠ c.blockNum then return (c, [])
  if c.PubKey ≠ c.LeaderPubKey then return (c, [])
  let c := { c with blockHash := P.HeaderHash block.header, block := P.EncodeBlock block }
  let msgToSend := c.constructAnnounceMessage P
  let c := c.switchPhase .Prepare
  let .ok pbftMsg ← ParsePbftMessage P msgToSend | return (c, [])
  let c := { c with
    pbftLog := (c.pbftLog.AddMessage pbftMsg).AddBlock block
    prepareSigs := c.prepareSigs.insert c.SelfAddress (P.SignHash c.PubKey c.blockHash.bytes) }
  return (c, [.send msgToSend])

/-- A validator prepares the announced block if it is the current round's, Go's `tryPrepare`. -/
def tryPrepare (c : Consensus K S) (blockHash : Hash) : Consensus K S × List Effect :=
  match c.pbftLog.GetBlockByHash P.HeaderHash blockHash with
  | none => (c, [])
  | some block =>
    if c.phase ≠ .Announce ∨ c.blockNum ≠ block.NumberU64 ∨
        !c.pbftLog.HasMatchingViewAnnounce c.blockNum c.viewID blockHash then (c, [])
    else
      let c := c.switchPhase .Prepare
      if c.PubKey ≠ c.LeaderPubKey then (c, [.send (c.constructPrepareMessage P)]) else (c, [])

omit [AddCommGroup K] [AddCommMonoid S] in
@[simp] theorem tryPrepare_round (c : Consensus K S) (blockHash : Hash) :
    (c.tryPrepare P blockHash).1.round = c.round := by
  unfold tryPrepare
  split
  · rfl
  · split_ifs
    · rfl
    · dsimp only
      split <;> simp

/-- A validator receives the leader's block, Go's `onAnnounce`. -/
def onAnnounce (c : Consensus K S) (msg : Message)
    (startViewChange : Consensus K S → UInt32 → Outcome (Consensus K S × List Effect)) :
    Outcome (Consensus K S × List Effect) := do
  if c.PubKey = c.LeaderPubKey then return (c, [])
  let .ok senderKey ← c.verifySenderKey P msg | return (c, [])
  if senderKey ≠ c.LeaderPubKey ∧ c.mode.mode ≠ .Syncing then return (c, [])
  let .ok () := verifyMessageSig P senderKey msg | return (c, [])
  let .ok recvMsg ← ParsePbftMessage P msg | return (c, [])
  let some blockObj := P.DecodeBlock recvMsg.Payload | return (c, [])
  if blockObj.NumberU64 ≠ recvMsg.BlockNum ∨ recvMsg.BlockNum < c.blockNum then return (c, [])
  -- Syncing nodes skip the parent check, but every node runs the block verifier.
  if c.mode.mode ≠ .Syncing ∧ !VerifyHeader P c.ChainReader blockObj.header then
    return (c, [])
  if !P.BlockVerifier c.ChainReader blockObj then return (c, [])
  let logMsgs := c.pbftLog.GetMessagesByTypeSeqView .ANNOUNCE recvMsg.BlockNum recvMsg.ViewID
  if let some first := logMsgs.head? then
    -- A second announce for the same height and view with another block names a bad leader.
    if first.BlockHash ≠ P.HeaderHash blockObj.header then
      return ← startViewChange c (c.viewID + 1)
    return (c, [])
  let c := { c with
    block := recvMsg.Payload, blockHash := recvMsg.BlockHash
    pbftLog := (c.pbftLog.AddMessage recvMsg).AddBlock blockObj }
  if c.mode.mode = .ViewChanging then return (c, [])
  let (c, effects, viewOk) := c.checkViewID recvMsg
  if !viewOk then return (c, effects)
  let (c, prepared) := c.tryPrepare P (P.HeaderHash blockObj.header)
  return (c, effects ++ prepared)

/-- The leader collects a prepare signature, Go's `onPrepare`. -/
def onPrepare (c : Consensus K S) (msg : Message) : Outcome (Consensus K S × List Effect) := do
  if c.PubKey ≠ c.LeaderPubKey then return (c, [])
  let .ok senderKey ← c.verifySenderKey P msg | return (c, [])
  let .ok () := verifyMessageSig P senderKey msg | return (c, [])
  let .ok recvMsg ← ParsePbftMessage P msg | return (c, [])
  if recvMsg.ViewID ≠ c.viewID ∨ recvMsg.BlockNum ≠ c.blockNum ∨ c.phase ≠ .Prepare then
    return (c, [])
  if !c.pbftLog.HasMatchingViewAnnounce c.blockNum c.viewID recvMsg.BlockHash then return (c, [])
  let validatorPubKey := recvMsg.SenderPubkey
  let validatorAddress := P.GetAddress validatorPubKey
  if c.prepareSigs.entries.length ≥ c.Quorum then return (c, [])
  if validatorAddress ∈ c.prepareSigs then return (c, [])
  let some sign := P.DeserializeSign recvMsg.Payload | return (c, [])
  if !P.VerifyHash sign validatorPubKey c.blockHash.bytes then return (c, [])
  let some prepareBitmap := c.prepareBitmap | throw "nil pointer dereference"
  let c := { c with
    prepareSigs := c.prepareSigs.insert validatorAddress sign
    prepareBitmap := some (orKeep (prepareBitmap.SetKey validatorPubKey true) prepareBitmap) }
  if c.prepareSigs.entries.length < c.Quorum then return (c, [])
  -- The quorum is reached: broadcast the prepared certificate and sign it for the commit phase.
  let c := c.switchPhase .Commit
  let (msgToSend, aggSig) ← c.constructPreparedMessage P
  let some prepareBitmap := c.prepareBitmap | throw "nil pointer dereference"
  let multiSigAndBitmap := P.SerializeSign aggSig ++ prepareBitmap.Bitmap
  let c := { c with
    aggregatedPrepareSig := some aggSig
    commitSigs := c.commitSigs.insert c.SelfAddress (P.SignHash c.PubKey multiSigAndBitmap) }
  return (c, [.send msgToSend])

/-- A validator receives the prepared certificate and commits to it, Go's `onPrepared`. -/
def onPrepared (c : Consensus K S) (msg : Message) : Outcome (Consensus K S × List Effect) := do
  if c.PubKey = c.LeaderPubKey then return (c, [])
  let .ok senderKey ← c.verifySenderKey P msg | return (c, [])
  if senderKey ≠ c.LeaderPubKey ∧ c.mode.mode ≠ .Syncing then return (c, [])
  let .ok () := verifyMessageSig P senderKey msg | return (c, [])
  let .ok recvMsg ← ParsePbftMessage P msg | return (c, [])
  if recvMsg.BlockNum < c.blockNum then return (c, [])
  let .ok (aggSig, mask) := c.readSignatureBitmapPayload P recvMsg.Payload 0 | return (c, [])
  -- The only check on the certificate: its aggregate verifies against its own bitmap.
  if !P.VerifyHash aggSig mask.AggregatePublic recvMsg.BlockHash.bytes then return (c, [])
  let c := { c with pbftLog := c.pbftLog.AddMessage recvMsg }
  if c.mode.mode = .ViewChanging then return (c, [])
  let (c, effects, viewOk) := c.checkViewID recvMsg
  if !viewOk then return (c, effects)
  if recvMsg.BlockNum > c.blockNum then return (c, effects)
  let c := { c with aggregatedPrepareSig := some aggSig, prepareBitmap := some mask }
  if c.phase ≠ .Prepare then return (c, effects)
  let multiSigAndBitmap := P.SerializeSign aggSig ++ mask.Bitmap
  let msgToSend := c.constructCommitMessage P multiSigAndBitmap
  return (c.switchPhase .Commit, effects ++ [.send msgToSend])

/-- The leader collects a commit signature, Go's `onCommit`. -/
def onCommit (c : Consensus K S) (msg : Message) : Outcome (Consensus K S × List Effect) := do
  if c.PubKey ≠ c.LeaderPubKey then return (c, [])
  let .ok senderKey ← c.verifySenderKey P msg | return (c, [])
  let .ok () := verifyMessageSig P senderKey msg | return (c, [])
  let .ok recvMsg ← ParsePbftMessage P msg | return (c, [])
  if recvMsg.ViewID ≠ c.viewID ∨ recvMsg.BlockNum ≠ c.blockNum ∨ c.phase ≠ .Commit then
    return (c, [])
  if !c.pbftLog.HasMatchingAnnounce c.blockNum recvMsg.BlockHash then return (c, [])
  let validatorPubKey := recvMsg.SenderPubkey
  let validatorAddress := P.GetAddress validatorPubKey
  if !c.IsValidatorInCommittee validatorAddress then return (c, [])
  if validatorAddress ∈ c.commitSigs then return (c, [])
  let quorumWasMet := c.commitSigs.entries.length ≥ c.Quorum
  let some sign := P.DeserializeSign recvMsg.Payload | return (c, [])
  let some aggregatedPrepareSig := c.aggregatedPrepareSig | throw "nil pointer dereference"
  let some prepareBitmap := c.prepareBitmap | throw "nil pointer dereference"
  let prepareMultiSigAndBitmap := P.SerializeSign aggregatedPrepareSig ++ prepareBitmap.Bitmap
  if !P.VerifyHash sign validatorPubKey prepareMultiSigAndBitmap then return (c, [])
  let some commitBitmap := c.commitBitmap | throw "nil pointer dereference"
  let c := { c with
    commitSigs := c.commitSigs.insert validatorAddress sign
    commitBitmap := some (orKeep (commitBitmap.SetKey validatorPubKey true) commitBitmap) }
  let quorumIsMet := c.commitSigs.entries.length ≥ c.Quorum
  -- Finalization is scheduled once, when the quorum is first reached.
  if !quorumWasMet ∧ quorumIsMet then return (c, [.commitFinish c.round])
  return (c, [])

/-- The leader finalizes the round's block, Go's `finalizeCommits`. -/
def finalizeCommits (c : Consensus K S) (ready : Nat → Bool) :
    Outcome (Consensus K S × List Effect) := do
  let c := c.switchPhase .Announce
  let (msgToSend, aggSig) ← c.constructCommittedMessage P
  let c := { c with aggregatedCommitSig := some aggSig }
  -- A block that does not decode leaves a zero `Block` whose nil header the setters dereference.
  let some blockObj := P.DecodeBlock c.block | throw "nil pointer dereference"
  let some aggregatedPrepareSig := c.aggregatedPrepareSig | throw "nil pointer dereference"
  let some prepareBitmap := c.prepareBitmap | throw "nil pointer dereference"
  let some commitBitmap := c.commitBitmap | throw "nil pointer dereference"
  let blockObj := (blockObj.SetPrepareSig (P.SerializeSign aggregatedPrepareSig)
    prepareBitmap.Bitmap).SetCommitSig (P.SerializeSign aggSig) commitBitmap.Bitmap
  let offered : List Effect :=
    if ready blockObj.NumberU64 then [.verifiedNewBlock blockObj] else []
  let c := c.ResetState
  let c := { c with
    viewID := c.viewID + 1, blockNum := c.blockNum + 1
    consensusTimeout := (c.consensusTimeout.Start .timeoutConsensus).Stop .timeoutBootstrap
    ChainReader := P.OnConsensusDone c.ChainReader blockObj }
  return (c, [.send msgToSend] ++ offered ++ [.consensusDone blockObj, .readySignal])

/-- A 48-byte signature and the bitmap after it, read as `tryCatchup` does with `make`. -/
def splitSignaturePayload (payload : Bytes) : Outcome (Bytes × Bytes) :=
  if payload.length < 48 then .error "makeslice: len out of range"
  else .ok (payload.take 48, payload.drop 48)

/--
One pass of the catch-up loop, Go's loop body in `tryCatchup`.

`none` is a `break` before any block is added; otherwise the block of height `blockNum` is
signed from the logged certificates and handed to the node.
-/
def catchupStep (c : Consensus K S) :
    Outcome (Option (Consensus K S × Block)) := do
  let some committed := (c.pbftLog.GetMessagesByTypeSeq .COMMITTED c.blockNum).head?
    | return none
  let some block := c.pbftLog.GetBlockByHash P.HeaderHash committed.BlockHash | return none
  if block.ParentHash ≠ P.HeaderHash c.ChainReader.CurrentHeader then return none
  let preparedMsgs :=
    c.pbftLog.GetMessagesByTypeSeqHash .PREPARED committed.BlockNum committed.BlockHash
  let some prepared := FindMessageByMaxViewID preparedMsgs | return none
  let c := { c with
    blockHash := FixedBytes.zero 32, blockNum := c.blockNum + 1
    viewID := committed.ViewID + 1, LeaderPubKey := committed.SenderPubkey }
  let (aggSig, bitmap) ← splitSignaturePayload committed.Payload
  let (prepareSig, prepareBitmap) ← splitSignaturePayload prepared.Payload
  let block := (block.SetPrepareSig prepareSig prepareBitmap).SetCommitSig aggSig bitmap
  let c := { c with ChainReader := P.OnConsensusDone c.ChainReader block }
  return some (c.ResetState, block)

/--
The catch-up loop: it stops after the first block the state-sync reader takes, and goes on to
the next height while the reader is not waiting.
-/
def catchupLoop (ready : Nat → Bool) :
    Nat → Consensus K S → Outcome (Consensus K S × List Effect)
  | 0, c => .ok (c, [])
  | fuel + 1, c => do
    let some (c', block) ← c.catchupStep P | return (c, [])
    if ready block.NumberU64 then
      return (c', [.consensusDone block, .verifiedNewBlock block])
    let (c'', effects) ← catchupLoop ready fuel c'
    return (c'', .consensusDone block :: effects)

/--
Commit every block whose certificates the log already holds, Go's `tryCatchup`.

Each pass consumes a committed message of a new height, so the log's length bounds the passes.
-/
def tryCatchup (c : Consensus K S) (ready : Nat → Bool) :
    Outcome (Consensus K S × List Effect) := do
  if c.phase ≠ .Commit ∧ c.mode.mode = .Normal then return (c, [])
  let currentBlockNum := c.blockNum
  let c := c.switchPhase .Announce
  let (c, effects) ← catchupLoop P ready (c.pbftLog.messages.length + 1) c
  -- Catching up also ends a view change the node was stuck in.
  let c := if currentBlockNum < c.blockNum ∧ c.mode.mode = .ViewChanging then
      { c with mode := { c.mode with mode := .Normal }
               consensusTimeout := c.consensusTimeout.Stop .timeoutViewChange }
    else c
  let c := { c with
    pbftLog := (c.pbftLog.DeleteBlocksLessThan c.blockNum).DeleteMessagesLessThan c.blockNum }
  return (c, effects)

/--
The checks a normal-mode validator makes on a committed certificate before catching up: it must
hold a prepared certificate, the aggregate must verify over it, and the view must match.
-/
def committedCheck (c : Consensus K S) (recvMsg : PbftMessage K S) (aggSig : S) (mask : Mask K) :
    Consensus K S × List Effect × Bool :=
  if c.mode.mode ≠ .Normal then (c, [], true)
  else match c.aggregatedPrepareSig, c.prepareBitmap with
  | some aggregatedPrepareSig, some prepareBitmap =>
    let prepareMultiSigAndBitmap := P.SerializeSign aggregatedPrepareSig ++ prepareBitmap.Bitmap
    if !P.VerifyHash aggSig mask.AggregatePublic prepareMultiSigAndBitmap then (c, [], false)
    else c.checkViewID recvMsg
  | _, _ => (c, [], false)

omit [AddCommGroup K] [DecidableEq K] [AddCommMonoid S] in
@[simp] theorem committedCheck_round (c : Consensus K S) (recvMsg : PbftMessage K S) (aggSig : S)
    (mask : Mask K) : (c.committedCheck P recvMsg aggSig mask).1.round = c.round := by
  unfold committedCheck
  split_ifs
  · rfl
  · split
    · dsimp only
      split_ifs <;> simp
    · rfl

/-- A validator receives the committed certificate, Go's `onCommitted`. -/
def onCommitted (c : Consensus K S) (msg : Message) (ready : Nat → Bool) :
    Outcome (Consensus K S × List Effect) := do
  if c.PubKey = c.LeaderPubKey then return (c, [])
  let .ok senderKey ← c.verifySenderKey P msg | return (c, [])
  if senderKey ≠ c.LeaderPubKey ∧ c.mode.mode ≠ .Syncing then return (c, [])
  let .ok () := verifyMessageSig P senderKey msg | return (c, [])
  let .ok recvMsg ← ParsePbftMessage P msg | return (c, [])
  if recvMsg.BlockNum < c.blockNum then return (c, [])
  let .ok (aggSig, mask) := c.readSignatureBitmapPayload P recvMsg.Payload 0 | return (c, [])
  let c := { c with pbftLog := c.pbftLog.AddMessage recvMsg }
  -- Syncing and view-changing nodes skip the certificate checks.
  let (c, effects, passed) := c.committedCheck P recvMsg aggSig mask
  if !passed then return (c, effects)
  if recvMsg.BlockNum > c.blockNum then return (c, effects)
  let c := { c with aggregatedCommitSig := some aggSig, commitBitmap := some mask }
  let (c, caughtUp) ← c.tryCatchup P ready
  let c := { c with
    consensusTimeout := (c.consensusTimeout.Start .timeoutConsensus).Stop .timeoutBootstrap }
  return (c, effects ++ caughtUp)

end Consensus

end Harmony
