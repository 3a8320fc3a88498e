import Harmony.Consensus.State

/-!
A concrete instance of the primitives: integer keys with a linear signature, fixed-width byte
encodings, and a block codec over a list of known blocks.

A signature by `k` on `m` is `k * digest m`, so signatures and keys add as BLS signatures and
public keys do: an aggregate of signatures on one message verifies against the sum of the
signers' keys. The concrete runs of the consensus proofs sign every message with its sender's
key, so they are runs under real BLS as well.
-/

namespace Harmony

open Go

namespace Linear

/-- The little-endian digits of `n` in base 256, cut to `width` bytes. -/
def encodeNat : Nat → Nat → Bytes
  | 0, _ => []
  | width + 1, n => (n % 256).toUInt8 :: encodeNat width (n / 256)

/-- Read little-endian base-256 digits back. -/
def decodeNat : Bytes → Nat
  | [] => 0
  | b :: rest => b.toNat + 256 * decodeNat rest

/-- An encoding always has its width. -/
@[simp] theorem length_encodeNat (width n : Nat) : (encodeNat width n).length = width := by
  induction width generalizing n with
  | zero => rfl
  | succ width ih => simp [encodeNat, ih]

/-- An integer as a sign byte followed by its magnitude in `width - 1` bytes. -/
def encodeInt (width : Nat) (v : Int) : Bytes :=
  (if v < 0 then 1 else 0) :: encodeNat (width - 1) v.natAbs

/-- Read an `encodeInt` value of the given width; other lengths do not deserialize. -/
def decodeInt (width : Nat) (bytes : Bytes) : Option Int :=
  match bytes with
  | sign :: magnitude =>
    if bytes.length ≠ width then none
    else if sign = 1 then some (-(decodeNat magnitude : Int)) else some (decodeNat magnitude)
  | [] => none

/-- An encoded integer has the requested width. -/
@[simp] theorem length_encodeInt (width : Nat) (positive : 0 < width) (v : Int) :
    (encodeInt width v).length = width := by
  simp [encodeInt]
  omega

/-- A short digest of a byte string, positive so that distinct keys give distinct signatures. -/
def digest (m : Bytes) : Int :=
  1 + (m.foldl (fun acc b => (acc * 257 + b.toNat + 1) % 1000000007) 0 : Nat)

/-- The position of a message type in the protobuf enum. -/
def typeCode : MessageType → UInt8
  | .NEWNODE_BEACON_STAKING => 0
  | .ANNOUNCE => 1
  | .PREPARE => 2
  | .PREPARED => 3
  | .COMMIT => 4
  | .COMMITTED => 5
  | .VIEWCHANGE => 6
  | .NEWVIEW => 7
  | .DRAND_INIT => 8
  | .DRAND_COMMIT => 9
  | .LOTTERY_REQUEST => 10
  | .unknown _ => 255

/-- The bytes of a message that its hash covers: its type and every field of its body. -/
def messageBytes (msg : Message) : Bytes :=
  typeCode msg.msgType ::
    match msg.request with
    | .consensus body =>
      putUint32LE body.ViewId ++ encodeNat 8 body.BlockNum ++ body.BlockHash ++
        body.SenderPubkey ++ body.Payload
    | .viewchange body =>
      putUint32LE body.ViewId ++ encodeNat 8 body.BlockNum ++ body.SenderPubkey ++
        body.LeaderPubkey ++ body.Payload ++ body.ViewchangeSig ++ body.ViewidSig ++
        body.M2Aggsigs ++ body.M2Bitmap ++ body.M3Aggsigs ++ body.M3Bitmap
    | _ => []

/-- The header fields a header hash distinguishes in the runs: height, links and certificates. -/
def headerBytes (header : Header) : Bytes :=
  encodeNat 2 header.Number ++ header.ParentHash.bytes.take 4 ++ header.Root.bytes.take 4 ++
    header.PrepareBitmap ++ header.CommitBitmap ++ header.PrepareSignature.bytes.take 8 ++
    header.CommitSignature.bytes.take 8

/-- The width of a serialized signature, as in the header's signature fields. -/
def sigWidth : Nat := 48

/-- The width of a serialized public key. -/
def keyWidth : Nat := 96

/--
The linear scheme with a block codec over `blocks`: a block is encoded as its position, and
the node accepts every block and appends it to its chain.
-/
def primitives (blocks : List Block) : Primitives Int Int where
  VerifyHash sig key m := sig == key * digest m
  SignHash key m := key * digest m
  SerializeSign sig := encodeInt sigWidth sig
  DeserializeSign bytes := decodeInt sigWidth bytes
  SerializeKey key := encodeInt keyWidth key
  DeserializeKey bytes := decodeInt keyWidth bytes
  GetAddress key := FixedBytes.ofBytes 20 (encodeInt 20 key)
  MessageHash msg := messageBytes msg
  HeaderHash header := FixedBytes.ofBytes 32 (headerBytes header)
  EncodeBlock block := [(blocks.idxOf block).toUInt8]
  DecodeBlock bytes :=
    match bytes with
    | [i] => blocks[i.toNat]?
    | _ => none
  BlockVerifier _ _ := true
  OnConsensusDone chain block := ⟨chain.headers ++ [block.header], by simp⟩

end Linear

end Harmony
