import Harmony.Consensus.Service

/-! The consensus messages a node builds and signs, from `consensus_*_msg.go`. -/

namespace Harmony

open Go

namespace Consensus

variable {K S : Type} [AddCommGroup K] [DecidableEq K] [AddCommMonoid S]
variable (P : Primitives K S)

/-- The signatures held in a signature map, in map order. -/
def sigsArray (sigs : SigMap S) : List S := sigs.entries.map Sigma.snd

/-- Sign a message over its encoding with the signature cleared, Go's `signConsensusMessage`. -/
def signConsensusMessage (c : Consensus K S) (message : Message) : Message :=
  let msgHash := P.MessageHash { message with Signature := [] }
  { message with Signature := P.SerializeSign (P.SignHash c.PubKey msgHash) }

/-- A normal-mode message with the common fields, Go's `populateMessageFields`. -/
def populateMessageFields (c : Consensus K S) (msgType : MessageType) (payload : Bytes) :
    Message :=
  { serviceType := .CONSENSUS, msgType := msgType, Signature := [],
    request := .consensus {
      ViewId := c.viewID, BlockNum := c.blockNum, BlockHash := c.blockHash.bytes,
      SenderPubkey := P.SerializeKey c.PubKey, Payload := payload } }

/-- The leader's announce carrying the encoded block, Go's `constructAnnounceMessage`. -/
def constructAnnounceMessage (c : Consensus K S) : Message :=
  c.signConsensusMessage P (c.populateMessageFields P .ANNOUNCE c.block)

/-- A validator's prepare: its signature on the block hash, Go's `constructPrepareMessage`. -/
def constructPrepareMessage (c : Consensus K S) : Message :=
  c.signConsensusMessage P (c.populateMessageFields P .PREPARE
    (P.SerializeSign (P.SignHash c.PubKey c.blockHash.bytes)))

/--
The leader's prepared certificate, Go's `constructPreparedMessage`: the aggregate of the
prepare signatures followed by the prepare bitmap, which must not be `nil`.
-/
def constructPreparedMessage (c : Consensus K S) : Except GoPanic (Message × S) :=
  match c.prepareBitmap with
  | none => .error "nil pointer dereference"
  | some prepareBitmap =>
    let aggSig := AggregateSig (sigsArray c.prepareSigs)
    let payload := P.SerializeSign aggSig ++ prepareBitmap.Bitmap
    .ok (c.signConsensusMessage P (c.populateMessageFields P .PREPARED payload), aggSig)

/-- A validator's commit on the prepared certificate, Go's `constructCommitMessage`. -/
def constructCommitMessage (c : Consensus K S) (multiSigAndBitmap : Bytes) : Message :=
  c.signConsensusMessage P (c.populateMessageFields P .COMMIT
    (P.SerializeSign (P.SignHash c.PubKey multiSigAndBitmap)))

/-- The leader's committed certificate, Go's `constructCommittedMessage`. -/
def constructCommittedMessage (c : Consensus K S) : Except GoPanic (Message × S) :=
  match c.commitBitmap with
  | none => .error "nil pointer dereference"
  | some commitBitmap =>
    let aggSig := AggregateSig (sigsArray c.commitSigs)
    let payload := P.SerializeSign aggSig ++ commitBitmap.Bitmap
    .ok (c.signConsensusMessage P (c.populateMessageFields P .COMMITTED payload), aggSig)

/--
A view change towards `LeaderPubKey`, Go's `constructViewChangeMessage`.

An m1 message carries the highest-view prepared certificate for the current block;
an m2 message carries none and signs `NIL`.
-/
def constructViewChangeMessage (c : Consensus K S) : Message :=
  let preparedMsgs := c.pbftLog.GetMessagesByTypeSeqHash .PREPARED c.blockNum c.blockHash
  let msgToSign : Bytes :=
    match FindMessageByMaxViewID preparedMsgs with
    | none => NIL
    | some preparedMsg => preparedMsg.BlockHash.bytes ++ preparedMsg.Payload
  let payload : Bytes :=
    match FindMessageByMaxViewID preparedMsgs with
    | none => []
    | some _ => msgToSign
  c.signConsensusMessage P
    { serviceType := .CONSENSUS, msgType := .VIEWCHANGE, Signature := [],
      request := .viewchange {
        ViewId := c.mode.viewID, BlockNum := c.blockNum,
        SenderPubkey := P.SerializeKey c.PubKey, LeaderPubkey := P.SerializeKey c.LeaderPubKey,
        Payload := payload,
        ViewchangeSig := P.SerializeSign (P.SignHash c.PubKey msgToSign),
        ViewidSig := P.SerializeSign (P.SignHash c.PubKey (putUint32LE c.mode.viewID)),
        M2Aggsigs := [], M2Bitmap := [], M3Aggsigs := [], M3Bitmap := [] } }

/-- An aggregate of a signature map with its bitmap, or nothing when the map is empty. -/
def aggregateWithBitmap (sigs : SigMap S) (bitmap : Option (Mask K)) :
    Except GoPanic (Bytes × Bytes) :=
  if sigs.entries.length > 0 then
    match bitmap with
    | none => .error "nil pointer dereference"
    | some mask => .ok (P.SerializeSign (AggregateSig (sigsArray sigs)), mask.Bitmap)
  else .ok ([], [])

/--
The new leader's new-view message, Go's `constructNewViewMessage`: the m1 payload, and the
aggregates of the m2 (nil) and m3 (view ID) signatures with their bitmaps.
-/
def constructNewViewMessage (c : Consensus K S) : Except GoPanic Message :=
  match aggregateWithBitmap P c.nilSigs c.nilBitmap,
    aggregateWithBitmap P c.viewIDSigs c.viewIDBitmap with
  | .ok (m2Sig, m2Bitmap), .ok (m3Sig, m3Bitmap) =>
    .ok (c.signConsensusMessage P
      { serviceType := .CONSENSUS, msgType := .NEWVIEW, Signature := [],
        request := .viewchange {
          ViewId := c.mode.viewID, BlockNum := c.blockNum,
          SenderPubkey := P.SerializeKey c.PubKey, LeaderPubkey := [], Payload := c.m1Payload,
          ViewchangeSig := [], ViewidSig := [],
          M2Aggsigs := m2Sig, M2Bitmap := m2Bitmap, M3Aggsigs := m3Sig, M3Bitmap := m3Bitmap } })
  | .error p, _ => .error p
  | _, .error p => .error p

end Consensus

end Harmony
