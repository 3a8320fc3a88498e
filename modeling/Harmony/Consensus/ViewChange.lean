import Harmony.Consensus.Normal

/-!
The view-change handlers of `view_change.go`: starting a view change, collecting view-change
messages on the prospective leader, and adopting a new view on a validator.
-/

namespace Harmony

open Go

namespace Consensus

variable {K S : Type} [AddCommGroup K] [DecidableEq K] [AddCommMonoid S]
variable (P : Primitives K S)

/-- Enable a key in a bitmap the handler expects to exist; `SetKey`'s error is dropped. -/
def enableKey (bitmap : Option (Mask K)) (pubKey : K) : Outcome (Option (Mask K)) :=
  match bitmap with
  | none => .error "nil pointer dereference"
  | some mask => .ok (some (orKeep (mask.SetKey pubKey true) mask))

/-- Propose the view `viewID` and the next leader in the rotation, Go's `startViewChange`. -/
def startViewChange (c : Consensus K S) (viewID : UInt32) :
    Outcome (Consensus K S × List Effect) := do
  if c.disableViewChange then return (c, [])
  let c := { c with
    consensusTimeout := (c.consensusTimeout.Stop .timeoutConsensus).Stop .timeoutBootstrap
    mode := { mode := .ViewChanging, viewID := viewID } }
  -- Each call moves one step along the committee from the current leader, whatever `viewID` is.
  let leaderPubKey ← c.GetNextLeaderKey
  let c := { c with LeaderPubKey := leaderPubKey }
  let msgToSend := c.constructViewChangeMessage P
  return ({ c with consensusTimeout := c.consensusTimeout.Start .timeoutViewChange },
    [.send msgToSend])

/--
The prospective leader's own m1 or m2 signature and its m3 signature, each added once per view
change; the m3 signature is made over the view of the message that triggers it.
-/
def addSelfViewChangeSigs (c : Consensus K S) (recvMsg : PbftMessage K S) :
    Outcome (Consensus K S) := do
  let c ← if c.SelfAddress ∈ c.nilSigs ∨ c.SelfAddress ∈ c.bhpSigs then pure c else
    match FindMessageByMaxViewID (c.pbftLog.GetMessagesByTypeSeq .PREPARED recvMsg.BlockNum) with
    | none => do
      let nilBitmap ← enableKey c.nilBitmap c.PubKey
      pure { c with
        nilSigs := c.nilSigs.insert c.SelfAddress (P.SignHash c.PubKey NIL)
        nilBitmap := nilBitmap }
    | some preparedMsg => do
      let msgToSign := preparedMsg.BlockHash.bytes ++ preparedMsg.Payload
      let bhpBitmap ← enableKey c.bhpBitmap c.PubKey
      pure { c with
        bhpSigs := c.bhpSigs.insert c.SelfAddress (P.SignHash c.PubKey msgToSign)
        bhpBitmap := bhpBitmap }
  if c.SelfAddress ∈ c.viewIDSigs then pure c else do
    let viewIDHash := putUint32LE recvMsg.ViewID
    let viewIDBitmap ← enableKey c.viewIDBitmap c.PubKey
    pure { c with
      viewIDSigs := c.viewIDSigs.insert c.SelfAddress (P.SignHash c.PubKey viewIDHash)
      viewIDBitmap := viewIDBitmap }

/-- Whether an m1 payload holds a block hash and a prepared aggregate that verifies over it. -/
def validM1Payload (c : Consensus K S) (payload : Bytes) : Bool :=
  payload.length > 32 &&
    match c.readSignatureBitmapPayload P payload 32 with
    | .ok (aggSig, mask) => P.VerifyHash aggSig mask.AggregatePublic (payload.take 32)
    | .error _ => false

/--
Record a sender's m2 (empty payload, signed `NIL`) or m1 (prepared certificate) signature;
`false` is one of the handler's early returns.
-/
def acceptViewChangeSig (c : Consensus K S) (recvMsg : PbftMessage K S) (senderKey : K)
    (validatorAddress : Address) (viewchangeSig : S) : Outcome (Consensus K S × Bool) := do
  if recvMsg.Payload.length = 0 then
    if validatorAddress ∈ c.nilSigs then return (c, false)
    if !P.VerifyHash viewchangeSig senderKey NIL then return (c, false)
    let nilBitmap ← enableKey c.nilBitmap recvMsg.SenderPubkey
    let c := { c with
      nilSigs := c.nilSigs.insert validatorAddress viewchangeSig
      nilBitmap := nilBitmap }
    return (c, true)
  if validatorAddress ∈ c.bhpSigs then return (c, false)
  if !P.VerifyHash viewchangeSig recvMsg.SenderPubkey recvMsg.Payload then return (c, false)
  -- A payload other than the stored one is checked; the first valid one is kept.
  if (c.m1Payload.length = 0 ∨ c.m1Payload ≠ recvMsg.Payload) ∧
      !c.validM1Payload P recvMsg.Payload then return (c, false)
  let m1Payload := if c.m1Payload.length = 0 then recvMsg.Payload else c.m1Payload
  let bhpBitmap ← enableKey c.bhpBitmap recvMsg.SenderPubkey
  let c := { c with
    m1Payload := m1Payload
    bhpSigs := c.bhpSigs.insert validatorAddress viewchangeSig
    bhpBitmap := bhpBitmap }
  return (c, true)

/-- Record a sender's m3 signature over the message's view; `false` is an early return. -/
def acceptViewIDSig (c : Consensus K S) (recvMsg : PbftMessage K S)
    (validatorAddress : Address) : Outcome (Consensus K S × Bool) := do
  if validatorAddress ∈ c.viewIDSigs then return (c, false)
  let some viewidSig := recvMsg.ViewidSig | throw "nil pointer dereference"
  if !P.VerifyHash viewidSig recvMsg.SenderPubkey (putUint32LE recvMsg.ViewID) then
    return (c, false)
  let viewIDBitmap ← enableKey c.viewIDBitmap recvMsg.SenderPubkey
  let c := { c with
    viewIDSigs := c.viewIDSigs.insert validatorAddress viewidSig
    viewIDBitmap := viewIDBitmap }
  return (c, true)

/-- Broadcast the new view for `recvMsg`'s view and leave view change, `onViewChange`'s tail. -/
def announceNewView (c : Consensus K S) (recvMsg : PbftMessage K S) (effects : List Effect) :
    Outcome (Consensus K S × List Effect) := do
  let c := { c with mode := { c.mode with viewID := recvMsg.ViewID } }
  let msgToSend ← c.constructNewViewMessage P
  let c := ({ c with viewID := recvMsg.ViewID } : Consensus K S).ResetViewChangeState
  let c := { c with
    consensusTimeout := (c.consensusTimeout.Stop .timeoutViewChange).Start .timeoutConsensus }
  return (c, effects ++ [.send msgToSend])

/--
The quorum of m3 signatures is reached: the node becomes leader and, holding an m1 payload,
enters the commit phase on that payload's block.
-/
def finishViewChange (c : Consensus K S) (recvMsg : PbftMessage K S) :
    Outcome (Consensus K S × List Effect) := do
  let c := ({ c with mode := { c.mode with mode := .Normal }, LeaderPubKey := c.PubKey } :
    Consensus K S).ResetState
  if c.m1Payload.length = 0 then return ← c.announceNewView P recvMsg [.readySignal]
  let c := { c with phase := .Commit }
  let some blockHash := slice? c.m1Payload 0 32 | throw "slice bounds out of range"
  let c := { c with blockHash := c.blockHash.overwrite blockHash }
  -- The aggregate is read from the message that completed the quorum, not from `m1Payload`.
  let .ok (aggSig, mask) := c.readSignatureBitmapPayload P recvMsg.Payload 32 | return (c, [])
  let some prepared := sliceFrom? c.m1Payload 32 | throw "slice bounds out of range"
  let c := { c with
    aggregatedPrepareSig := some aggSig, prepareBitmap := some mask
    commitSigs := c.commitSigs.insert c.SelfAddress (P.SignHash c.PubKey prepared) }
  c.announceNewView P recvMsg []

/-- The prospective leader collects a view-change message, Go's `onViewChange`. -/
def onViewChange (c : Consensus K S) (msg : Message) : Outcome (Consensus K S × List Effect) := do
  let .ok (senderKey, validatorAddress) ← c.verifyViewChangeSenderKey P msg | return (c, [])
  let .ok recvMsg ← ParseViewChangeMessage P msg | return (c, [])
  if recvMsg.LeaderPubkey ≠ some c.PubKey then return (c, [])
  if c.blockNum > recvMsg.BlockNum then return (c, [])
  -- Older views are refused only while the node is itself changing views.
  if c.mode.mode = .ViewChanging ∧ c.mode.viewID > recvMsg.ViewID then return (c, [])
  let .ok () := verifyMessageSig P senderKey msg | return (c, [])
  let c ← c.addSelfViewChangeSigs P recvMsg
  if c.viewIDSigs.entries.length ≥ c.Quorum then return (c, [])
  let some viewchangeSig := recvMsg.ViewchangeSig | throw "nil pointer dereference"
  let (c, accepted) ← c.acceptViewChangeSig P recvMsg senderKey validatorAddress viewchangeSig
  if !accepted then return (c, [])
  let (c, accepted) ← c.acceptViewIDSig P recvMsg validatorAddress
  if !accepted then return (c, [])
  if c.viewIDSigs.entries.length < c.Quorum then return (c, [])
  c.finishViewChange P recvMsg

/--
The m1 branch of `onNewView`: adopt the carried prepared certificate, log it as a `PREPARED`
message of the new view, and commit to it; `false` is an early return.
-/
def commitNewViewPayload (c : Consensus K S) (recvMsg : PbftMessage K S) (senderKey : K) :
    Consensus K S × List Effect × Bool :=
  let blockHash := recvMsg.Payload.take 32
  match c.readSignatureBitmapPayload P recvMsg.Payload 32 with
  | .error _ => (c, [], false)
  | .ok (aggSig, mask) =>
    if !P.VerifyHash aggSig mask.AggregatePublic blockHash then (c, [], false)
    else
      let preparedMsg : PbftMessage K S := {
        MessageType := .PREPARED, ViewID := recvMsg.ViewID, BlockNum := recvMsg.BlockNum,
        BlockHash := FixedBytes.ofBytes 32 blockHash, SenderPubkey := senderKey,
        LeaderPubkey := none, Payload := recvMsg.Payload.drop 32, ViewchangeSig := none,
        ViewidSig := none, M2AggSig := none, M2Bitmap := none, M3AggSig := none,
        M3Bitmap := none }
      let c := { c with
        blockHash := c.blockHash.overwrite blockHash
        aggregatedPrepareSig := some aggSig, prepareBitmap := some mask
        pbftLog := c.pbftLog.AddMessage preparedMsg }
      if recvMsg.BlockNum > c.blockNum then (c, [], false)
      else
        let c := { c with viewID := c.mode.viewID }
        let msgToSend := c.constructCommitMessage P (P.SerializeSign aggSig ++ mask.Bitmap)
        ({ c with phase := .Commit }, [.send msgToSend], true)

omit [AddCommMonoid S] in
@[simp] theorem commitNewViewPayload_round (c : Consensus K S) (recvMsg : PbftMessage K S)
    (senderKey : K) : (c.commitNewViewPayload P recvMsg senderKey).1.round = c.round := by
  unfold commitNewViewPayload
  split
  · rfl
  · dsimp only
    split_ifs <;> rfl

/-- A validator adopts the new view its new leader announces, Go's `onNewView`. -/
def onNewView (c : Consensus K S) (msg : Message) : Outcome (Consensus K S × List Effect) := do
  let .ok (senderKey, _) ← c.verifyViewChangeSenderKey P msg | return (c, [])
  let .ok recvMsg ← c.ParseNewViewMessage P msg | return (c, [])
  if c.blockNum ≠ recvMsg.BlockNum then return (c, [])
  let .ok () := verifyMessageSig P senderKey msg | return (c, [])
  let some m3Sig := recvMsg.M3AggSig | return (c, [])
  let some m3Mask := recvMsg.M3Bitmap | throw "nil pointer dereference"
  if !P.VerifyHash m3Sig m3Mask.AggregatePublic (putUint32LE recvMsg.ViewID) then return (c, [])
  if let some m2Sig := recvMsg.M2AggSig then
    let some m2Mask := recvMsg.M2Bitmap | throw "nil pointer dereference"
    if !P.VerifyHash m2Sig m2Mask.AggregatePublic NIL then return (c, [])
  let (c, effects, continued) :=
    if recvMsg.Payload.length > 32 then c.commitNewViewPayload P recvMsg senderKey
    else (c.ResetState, [], true)
  if !continued then return (c, effects)
  -- The view adopted is the node's own view-change view, not the one the message carries.
  let c := ({ c with LeaderPubKey := senderKey, viewID := c.mode.viewID } :
    Consensus K S).ResetViewChangeState
  let c := { c with
    consensusTimeout := (c.consensusTimeout.Start .timeoutConsensus).Stop .timeoutViewChange }
  return (c, effects)

end Consensus

end Harmony
