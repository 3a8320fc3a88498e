import Harmony.Consensus.Service

/-!
The leader's side of the distributed randomness protocol, `drand/drand.go` and
`drand/drand_leader.go`.

At an epoch's last block the leader resets its state, evaluates its own VRF on the block's hash and
collects validators' VRF commits; once it holds `len(PublicKeys)/3 + 1` of them it XORs their first
32 bytes into the preimage `pRnd` and emits it on `PRndChannel`, followed by the bitmap of the
committee members whose commits it took. `vrfs` is keyed by BLS address, while the bitmap is a mask
built by `ResetState` over the keys of that moment; `AddPeers` and `UpdatePublicKeys` change the
keys, the threshold and the committee's addresses but not the mask.

The VRF is a parameter. Go iterates over `vrfs` in a random order, which XOR does not see; the
model takes the map's entries in order. Messages to validators are not modelled.
-/

namespace Harmony

open Go

namespace Drand

/-- The VRF of `crypto/vrf/p256` as the protocol uses it. -/
structure Vrf where
  /-- `dRand.vrf(blockHash)`: the leader's own randomness and proof on a block hash. -/
  Evaluate : FixedBytes 32 → FixedBytes 32 × Bytes
  /-- `vrfPubKey.Deserialize(pubKeyBytes)` and then `vrfPubKey.ProofToHash(m, proof)`. -/
  ProofToHash : Bytes → Bytes → Bytes → Except String (FixedBytes 32)

/-- The fields of Go's `DRand` that the leader's handlers read and write. -/
structure DRand (K : Type) where
  /-- The VRF commits by BLS address, the leader's own included. -/
  vrfs : AList fun _ : Address => Bytes
  /-- The participation mask; `nil` when `NewMask` failed. -/
  bitmap : Option (Mask K)
  /-- `leader.ConsensusPubKey`. -/
  leaderKey : K
  PublicKeys : List K
  /-- The keys of the `CommitteeAddresses` map. -/
  CommitteeAddresses : List Address
  /-- The addresses the `validators` map holds; Go keys it by their hex. -/
  validators : List Address
  SelfAddress : Address
  blockHash : FixedBytes 32

section

variable {K S : Type} [AddCommGroup K] [DecidableEq K] [AddCommMonoid S]
variable (P : Primitives K S) (V : Vrf)

/-- Go's `ResetState`: no commits, and a fresh mask over the current keys with the leader's set. -/
def DRand.ResetState (d : DRand K) : DRand K :=
  { d with vrfs := ∅, bitmap := (NewMask d.PublicKeys (some d.leaderKey)).toOption }

/-- Go's `init`: reset, take the epoch block's hash, and commit the leader's own VRF output. -/
def DRand.init (d : DRand K) (epochBlock : Block) : DRand K :=
  let d := d.ResetState
  let d := { d with blockHash := P.HeaderHash epochBlock.header }
  let (rand, proof) := V.Evaluate d.blockHash
  { d with vrfs := d.vrfs.insert d.SelfAddress (rand.bytes ++ proof) }

/-- Go's `IsValidatorInCommittee`. -/
def DRand.IsValidatorInCommittee (d : DRand K) (validatorBlsAddress : Address) : Bool :=
  validatorBlsAddress ∈ d.CommitteeAddresses

/-- How many commits the leader collects, `len(PublicKeys)/3 + 1`. -/
def DRand.threshold (d : DRand K) : Nat := d.PublicKeys.length / 3 + 1

/-- One commit of the XOR loop: `pRnd[i] = pRnd[i] ^ vrf[i]` for the first 32 bytes. -/
def xorInto (pRnd vrf : Bytes) : Outcome Bytes :=
  if vrf.length < 32 then .error "index out of range"
  else .ok (List.zipWith (· ^^^ ·) pRnd (vrf.take 32))

/--
Go's `processCommitMessage`: the state after a message reaches the leader, and what it emits on
`PRndChannel`. A message that fails a check is logged and dropped; a payload shorter than 96 bytes
fails the slice `Payload[32 : len(Payload)-64]`, and a nil mask fails `SetKey`.
-/
def DRand.processCommitMessage (d : DRand K) (message : Message) :
    Outcome (DRand K × Option Bytes) :=
  if message.msgType ≠ .DRAND_COMMIT then .ok (d, none)
  else match message.GetDrand with
  | none => .error "nil pointer dereference"
  | some drandMsg =>
    match P.DeserializeKey drandMsg.SenderPubkey with
    | none => .ok (d, none)
    | some senderPubKey =>
      let validatorAddress := P.GetAddress senderPubKey
      if !d.IsValidatorInCommittee validatorAddress then .ok (d, none)
      else if d.vrfs.entries.length ≥ d.threshold then .ok (d, none)
      else match verifyMessageSig P senderPubKey message with
      | .error _ => .ok (d, none)
      | .ok () =>
        let payload := drandMsg.Payload
        if payload.length < 96 then .error "slice bounds out of range"
        else
          let rand := payload.take 32
          let proof := (payload.drop 32).take (payload.length - 96)
          let pubKeyBytes := payload.drop (payload.length - 64)
          match V.ProofToHash pubKeyBytes d.blockHash.bytes proof with
          | .error _ => .ok (d, none)
          | .ok expectedRand =>
            if expectedRand.bytes ≠ rand then .ok (d, none)
            else
              let vrfs := d.vrfs.insert validatorAddress payload
              match d.bitmap with
              | none => .error "nil pointer dereference"
              | some bitmap =>
                -- `SetKey` fails silently for a key the mask was not built over.
                let bitmap := (bitmap.SetKey senderPubKey true).toOption.getD bitmap
                let d := { d with vrfs := vrfs, bitmap := some bitmap }
                if vrfs.entries.length ≥ d.threshold then do
                  let pRnd ← vrfs.entries.foldlM (fun pRnd vrf => xorInto pRnd vrf.2)
                    (List.replicate 32 0)
                  pure (d, some (pRnd ++ bitmap.Bitmap))
                else .ok (d, none)

/-- One peer of Go's `AddPeers`. -/
def addPeer (d : DRand K) (key : K) : DRand K :=
  let addr := P.GetAddress key
  -- `validators.LoadOrStore`: a peer already stored is left alone.
  if addr ∈ d.validators then d
  else
    let d := { d with validators := d.validators ++ [addr] }
    if addr ∈ d.CommitteeAddresses then d
    else { d with PublicKeys := d.PublicKeys ++ [key],
                  CommitteeAddresses := d.CommitteeAddresses ++ [addr] }

/-- Go's `AddPeers`: the keys of new peers join the committee; the mask is left as it is. -/
def DRand.AddPeers (d : DRand K) (peers : List K) : DRand K × Nat :=
  (peers.foldl (addPeer P) d, peers.length)

/-- Go's `UpdatePublicKeys`; the mask is left as it is. An empty list panics on `pubKeys[0]`. -/
def DRand.UpdatePublicKeys (d : DRand K) (pubKeys : List K) : Outcome (DRand K × Nat) :=
  match pubKeys with
  | [] => .error "index out of range"
  | leaderKey :: _ =>
    .ok ({ d with PublicKeys := pubKeys, CommitteeAddresses := pubKeys.map P.GetAddress,
                  leaderKey := leaderKey }, pubKeys.length)

/--
What reaches the leader, in the order it arrives: an epoch's last block, on which
`WaitForEpochBlock` calls `init`; a message, which `ProcessMessageLeader` hands to
`processCommitMessage`; or a change of the committee.
-/
inductive Event (K : Type) where
  | epochLastBlock (block : Block)
  | message (message : Message)
  | addPeers (peers : List K)
  | updatePublicKeys (pubKeys : List K)

/-- One event handled: the leader's next state, and what it emits on `PRndChannel`. -/
def DRand.handle (d : DRand K) : Event K → Outcome (DRand K × Option Bytes)
  | .epochLastBlock block => .ok (d.init P V block, none)
  | .message message => d.processCommitMessage P V message
  | .addPeers peers => .ok ((d.AddPeers P peers).1, none)
  | .updatePublicKeys pubKeys => (d.UpdatePublicKeys P pubKeys).map fun updated => (updated.1, none)

end

end Drand

end Harmony
