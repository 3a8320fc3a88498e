import Harmony.Consensus.State

/-! The helpers of `consensus_service.go` and `view_change.go` that the v2 handlers call. -/

namespace Harmony

open Go

namespace Consensus

variable {K S : Type} [AddCommGroup K] [DecidableEq K] [AddCommMonoid S]

/-- The quorum `2f+1` of the current committee, Go's `Quorum`. -/
def Quorum (c : Consensus K S) : Nat := c.PublicKeys.length * 2 / 3 + 1

/-- Move to `desirePhase` only when it is the phase after the current one, Go's `switchPhase`. -/
def switchPhase (c : Consensus K S) (desirePhase : PbftPhase) : Consensus K S :=
  let nextPhase : PbftPhase :=
    match c.phase with
    | .Announce => .Prepare
    | .Prepare => .Commit
    | .Commit => .Announce
  if nextPhase = desirePhase then { c with phase := nextPhase } else c

omit [AddCommGroup K] [DecidableEq K] [AddCommMonoid S] in
/-- Switching phase changes nothing but the phase. -/
theorem switchPhase_eq (c : Consensus K S) (desirePhase : PbftPhase) :
    ∃ phase, c.switchPhase desirePhase = { c with phase := phase } := by
  unfold switchPhase
  dsimp only
  split_ifs
  · exact ⟨_, rfl⟩
  · exact ⟨c.phase, rfl⟩

omit [AddCommGroup K] [DecidableEq K] [AddCommMonoid S] in
@[simp] theorem switchPhase_round (c : Consensus K S) (desirePhase : PbftPhase) :
    (c.switchPhase desirePhase).round = c.round := by
  obtain ⟨phase, switched⟩ := c.switchPhase_eq desirePhase
  rw [switched]

/-- The position of a key in the committee, or `-1`, Go's `getIndexOfPubKey`. -/
def getIndexOfPubKey (c : Consensus K S) (pubKey : K) : Int :=
  match c.PublicKeys.idxOf? pubKey with
  | some i => i
  | none => -1

/--
The key after the current leader, Go's `GetNextLeaderKey`.

An unknown leader counts as index `-1`, so the rotation restarts at the first key; an empty
committee divides by zero.
-/
def GetNextLeaderKey (c : Consensus K S) : Except GoPanic K :=
  if c.PublicKeys.length = 0 then .error "integer divide by zero"
  else
    let idx := ((c.getIndexOfPubKey c.LeaderPubKey + 1) % c.PublicKeys.length).toNat
    match c.PublicKeys[idx]? with
    | some key => .ok key
    | none => .error "index out of range"

/-- Whether an address belongs to the committee, Go's `IsValidatorInCommittee`. -/
def IsValidatorInCommittee (c : Consensus K S) (address : Address) : Bool :=
  address ∈ c.CommitteeAddresses

/-- Start a new round, Go's `ResetState`. -/
def ResetState (c : Consensus K S) : Consensus K S :=
  { c with
    round := c.round + 1
    phase := .Announce
    blockHash := FixedBytes.zero 32
    prepareSigs := ∅
    commitSigs := ∅
    prepareBitmap := (NewMask c.PublicKeys (some c.LeaderPubKey)).toOption
    commitBitmap := (NewMask c.PublicKeys (some c.LeaderPubKey)).toOption
    aggregatedPrepareSig := none
    aggregatedCommitSig := none }

omit [AddCommMonoid S] in
@[simp] theorem ResetState_round (c : Consensus K S) : c.ResetState.round = c.round + 1 := rfl

/-- Leave view change and clear what it collected, Go's `ResetViewChangeState`. -/
def ResetViewChangeState (c : Consensus K S) : Consensus K S :=
  { c with
    mode := { c.mode with mode := .Normal }
    bhpBitmap := (NewMask c.PublicKeys none).toOption
    nilBitmap := (NewMask c.PublicKeys none).toOption
    viewIDBitmap := (NewMask c.PublicKeys none).toOption
    m1Payload := []
    bhpSigs := ∅
    nilSigs := ∅
    viewIDSigs := ∅ }

omit [AddCommMonoid S] in
@[simp] theorem ResetViewChangeState_round (c : Consensus K S) :
    c.ResetViewChangeState.round = c.round := rfl

/--
Compare a message's view with the node's, Go's `checkViewID`.

The first check after joining adopts the message's view and sender; a later view switches
the node to syncing.
-/
def checkViewID (c : Consensus K S) (msg : PbftMessage K S) :
    Consensus K S × List Effect × Bool :=
  if c.ignoreViewIDCheck then
    ({ c with viewID := msg.ViewID, LeaderPubKey := msg.SenderPubkey, ignoreViewIDCheck := false },
      [], true)
  else if msg.ViewID > c.viewID then
    ({ c with mode := { c.mode with mode := .Syncing } }, [.viewIDLow], false)
  else if msg.ViewID < c.viewID then (c, [], false)
  else (c, [], true)

omit [AddCommGroup K] [DecidableEq K] [AddCommMonoid S] in
@[simp] theorem checkViewID_round (c : Consensus K S) (msg : PbftMessage K S) :
    (c.checkViewID msg).1.round = c.round := by
  unfold checkViewID
  split_ifs <;> rfl

/-- Set the height to agree on next, Go's `SetBlockNum`. -/
def SetBlockNum (c : Consensus K S) (blockNum : Nat) : Consensus K S :=
  { c with blockNum := blockNum }

omit [AddCommGroup K] [DecidableEq K] [AddCommMonoid S] in
@[simp] theorem SetBlockNum_round (c : Consensus K S) (blockNum : Nat) :
    (c.SetBlockNum blockNum).round = c.round := rfl

/-- Go's `SetViewID`, which `main` calls with the chain height. -/
def SetViewID (c : Consensus K S) (height : UInt32) : Consensus K S :=
  { c with viewID := height }

end Consensus

section Verify

variable {K S : Type} [AddCommGroup K] [DecidableEq K] [AddCommMonoid S]
variable (P : Primitives K S)

/-- Check a message's signature against its signer, Go's `verifyMessageSig`. -/
def verifyMessageSig (signerPubKey : K) (message : Message) : Except String Unit :=
  match P.DeserializeSign message.Signature with
  | none => .error "signature deserialization failed"
  | some msgSig =>
    if P.VerifyHash msgSig signerPubKey (P.MessageHash { message with Signature := [] }) then
      .ok ()
    else .error "failed to verify the signature"

/--
The committee key of a normal-mode message's sender, Go's `verifySenderKey`.

A message whose oneof is not a consensus body dereferences `nil`.
-/
def Consensus.verifySenderKey (c : Consensus K S) (msg : Message) :
    Except GoPanic (Except String K) :=
  match msg.GetConsensus with
  | none => .error "nil pointer dereference"
  | some consensusMsg =>
    match P.DeserializeKey consensusMsg.SenderPubkey with
    | none => .ok (.error "public key deserialization failed")
    | some senderKey =>
      if c.IsValidatorInCommittee (P.GetAddress senderKey) then .ok (.ok senderKey)
      else .ok (.error "Validator address is not in committee")

/-- The committee key and address of a view-change sender, Go's `verifyViewChangeSenderKey`. -/
def Consensus.verifyViewChangeSenderKey (c : Consensus K S) (msg : Message) :
    Except GoPanic (Except String (K × Address)) :=
  match msg.GetViewchange with
  | none => .error "nil pointer dereference"
  | some vcMsg =>
    match P.DeserializeKey vcMsg.SenderPubkey with
    | none => .ok (.error "public key deserialization failed")
    | some senderKey =>
      if c.IsValidatorInCommittee (P.GetAddress senderKey) then
        .ok (.ok (senderKey, P.GetAddress senderKey))
      else .ok (.error "Validator address is not in committee")

/-- Parse a normal-mode message for the log, Go's `ParsePbftMessage`. -/
def ParsePbftMessage (msg : Message) : Except GoPanic (Except String (PbftMessage K S)) :=
  match msg.GetConsensus with
  | none => .error "nil pointer dereference"
  | some consensusMsg =>
    match P.DeserializeKey consensusMsg.SenderPubkey with
    | none => .ok (.error "public key deserialization failed")
    | some pubKey =>
      .ok (.ok {
        MessageType := msg.msgType, ViewID := consensusMsg.ViewId,
        BlockNum := consensusMsg.BlockNum,
        BlockHash := FixedBytes.ofBytes 32 consensusMsg.BlockHash,
        SenderPubkey := pubKey, LeaderPubkey := none, Payload := consensusMsg.Payload,
        ViewchangeSig := none, ViewidSig := none, M2AggSig := none, M2Bitmap := none,
        M3AggSig := none, M3Bitmap := none })

/-- Parse a view-change message, Go's `ParseViewChangeMessage`. -/
def ParseViewChangeMessage (msg : Message) : Except GoPanic (Except String (PbftMessage K S)) :=
  if msg.msgType ≠ .VIEWCHANGE then .ok (.error "ParseViewChangeMessage: incorrect message type")
  else match msg.GetViewchange with
  | none => .error "nil pointer dereference"
  | some vcMsg =>
    match P.DeserializeKey vcMsg.SenderPubkey, P.DeserializeKey vcMsg.LeaderPubkey,
      P.DeserializeSign vcMsg.ViewchangeSig, P.DeserializeSign vcMsg.ViewidSig with
    | some pubKey, some leaderKey, some vcSig, some vcSig1 =>
      .ok (.ok {
        MessageType := msg.msgType, ViewID := vcMsg.ViewId, BlockNum := vcMsg.BlockNum,
        BlockHash := FixedBytes.zero 32, SenderPubkey := pubKey, LeaderPubkey := some leaderKey,
        Payload := vcMsg.Payload, ViewchangeSig := some vcSig, ViewidSig := some vcSig1,
        M2AggSig := none, M2Bitmap := none, M3AggSig := none, M3Bitmap := none })
    | _, _, _, _ => .ok (.error "ParseViewChangeMessage failed to deserialize")

/-- An aggregate signature and its bitmap, read as `SetMask` leaves them (its error is dropped). -/
def Consensus.readAggregate (c : Consensus K S) (aggSigs bitmap : Bytes) :
    Except String (Option (S × Mask K)) :=
  if aggSigs.length > 0 then
    match P.DeserializeSign aggSigs with
    | none => .error "failed to deserialize the multi signature"
    | some sig =>
      match NewMask c.PublicKeys none with
      | .ok mask => .ok (some (sig, orKeep (mask.SetMask bitmap) mask))
      | .error e => .error e
  else .ok none

/-- Parse a new-view message, Go's `ParseNewViewMessage`. -/
def Consensus.ParseNewViewMessage (c : Consensus K S) (msg : Message) :
    Except GoPanic (Except String (PbftMessage K S)) :=
  if msg.msgType ≠ .NEWVIEW then .ok (.error "ParseNewViewMessage: incorrect message type")
  else match msg.GetViewchange with
  | none => .error "nil pointer dereference"
  | some vcMsg =>
    match P.DeserializeKey vcMsg.SenderPubkey with
    | none => .ok (.error "public key deserialization failed")
    | some pubKey =>
      match c.readAggregate P vcMsg.M3Aggsigs vcMsg.M3Bitmap,
        c.readAggregate P vcMsg.M2Aggsigs vcMsg.M2Bitmap with
      | .ok m3, .ok m2 =>
        .ok (.ok {
          MessageType := msg.msgType, ViewID := vcMsg.ViewId, BlockNum := vcMsg.BlockNum,
          BlockHash := FixedBytes.zero 32, SenderPubkey := pubKey, LeaderPubkey := none,
          Payload := vcMsg.Payload, ViewchangeSig := none, ViewidSig := none,
          M2AggSig := m2.map Prod.fst, M2Bitmap := m2.map Prod.snd,
          M3AggSig := m3.map Prod.fst, M3Bitmap := m3.map Prod.snd })
      | .error e, _ => .ok (.error e)
      | _, .error e => .ok (.error e)

/--
Split a payload into a 48-byte aggregate signature and a bitmap from `offset` on,
Go's `readSignatureBitmapPayload`; the bitmap is applied with `SetMask`, whose error is dropped.
-/
def Consensus.readSignatureBitmapPayload (c : Consensus K S) (recvPayload : Bytes) (offset : Nat) :
    Except String (S × Mask K) :=
  if offset + 48 > recvPayload.length then .error "payload not have enough length"
  else
    let multiSig := (recvPayload.drop offset).take 48
    let bitmap := recvPayload.drop (offset + 48)
    match P.DeserializeSign multiSig with
    | none => .error "unable to deserialize multi-signature from payload"
    | some aggSig =>
      match NewMask c.PublicKeys none with
      | .ok mask => .ok (aggSig, orKeep (mask.SetMask bitmap) mask)
      | .error _ => .error "unable to setup mask from payload"

/--
Install a committee led by its first key, Go's `UpdatePublicKeys`; an empty list indexes past its
end.
-/
def Consensus.UpdatePublicKeys (c : Consensus K S) (pubKeys : List K) : Outcome (Consensus K S) :=
  match pubKeys with
  | [] => .error "index out of range"
  | leaderKey :: _ =>
    let c := { c with
      PublicKeys := pubKeys, CommitteeAddresses := pubKeys.map P.GetAddress
      LeaderPubKey := leaderKey }
    -- The masks are installed only when they build; `ResetState` rebuilds them in any case.
    let c := match NewMask pubKeys (some leaderKey) with
      | .ok mask => { c with prepareBitmap := some mask, commitBitmap := some mask }
      | .error _ => c
    .ok c.ResetState.ResetViewChangeState

omit [AddCommGroup K] [AddCommMonoid S] in
/--
The inner loop of `RemovePeers` for one peer's key:
`for i, pp := range newList { if DeepEqual(peer, pp) { newList = append(newList[:i], newList[i+1:]...) } }`.
The range reads, at the indices of the slice it started with, the backing array that each removal
shifts left in place; `store` is that array, `len` the current length of `newList`, and `count`
Go's `count2`.
-/
def removeKeyInPlace (peer : K) (store : List K) (len count : Nat) :
    List Nat → Outcome (List K × Nat × Nat)
  | [] => .ok (store, len, count)
  | i :: rest =>
    match store[i]? with
    | some pp =>
      if pp = peer then
        -- `newList[i+1:]` is out of bounds once earlier removals shortened the slice below `i + 1`.
        if i + 1 ≤ len then
          removeKeyInPlace peer
            (store.take i ++ (store.drop (i + 1)).take (len - 1 - i) ++ store.drop (len - 1))
            (len - 1) (count + 1) rest
        else .error "slice bounds out of range"
      else removeKeyInPlace peer store len count rest
    | none => removeKeyInPlace peer store len count rest

/--
Drop the keys of disconnected peers from the committee, Go's `RemovePeers`, with the number of keys
removed; a committee that lost a key is installed again through `UpdatePublicKeys`. The validator
map keyed by the peers' addresses and the pong broadcast are not modelled.
-/
def Consensus.RemovePeers (c : Consensus K S) (peers : List K) : Outcome (Consensus K S × Nat) := do
  if peers = [] then return (c, 0)
  -- `newList` starts as a copy of `PublicKeys`; each peer's loop ranges over its current length.
  let (store, len, count2) ← peers.foldlM
    (fun (store, len, count) peer => removeKeyInPlace peer store len count (List.range len))
    (c.PublicKeys, c.PublicKeys.length, 0)
  if count2 > 0 then
    let c ← c.UpdatePublicKeys P (store.take len)
    return (c, count2)
  return (c, count2)

/-- One peer of `AddPeers`: the committee and the addresses in the validator map after it. -/
def addPeer (state : Consensus K S × List Address) (key : K) : Consensus K S × List Address :=
  let (c, validators) := state
  let addr := P.GetAddress key
  -- `validators.LoadOrStore`: a peer already stored is left alone.
  if addr ∈ validators then (c, validators)
  else
    let validators := validators ++ [addr]
    if addr ∈ c.CommitteeAddresses then (c, validators)
    else ({ c with PublicKeys := c.PublicKeys ++ [key],
                   CommitteeAddresses := c.CommitteeAddresses ++ [addr] }, validators)

/--
Add the keys of new peers to the committee, Go's `AddPeers`, with the number of peers handled.
`validators` lists the addresses the validator map holds (Go keys it by their hex). The masks are
left as they are, over the keys they were built with.
-/
def Consensus.AddPeers (c : Consensus K S) (validators : List Address) (peers : List K) :
    Consensus K S × List Address × Nat :=
  let (c, validators) := peers.foldl (addPeer P) (c, validators)
  (c, validators, peers.length)

end Verify

end Harmony
