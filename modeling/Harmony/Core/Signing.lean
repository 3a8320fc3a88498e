import Harmony.Core.Types

/-!
Transaction signing hashes and sender recovery, from `core/types/transaction_signing.go`.

`rlpHash` (Keccak of the RLP encoding of an argument list) and the secp256k1 recovery
`recoverPlain` are parameters; the signers decide which fields the hash covers. The hash's type
`H` is a parameter too, so that an injective `rlpHash` can be assumed: Go's is a 32-byte hash.
-/

namespace Harmony

open Go

/-- A value in an `rlpHash` argument list, tagged by its Go type. -/
inductive RlpValue where
  /-- A `uint64`, `uint32` or `uint`. -/
  | uint (value : Nat)
  /-- A `*big.Int`. -/
  | bigInt (value : Int)
  /-- A `*common.Address`, `nil` for contract creation. -/
  | address (value : Option Address)
  /-- A `[]byte`. -/
  | bytes (value : Bytes)
  deriving DecidableEq

/-- The signers of `transaction_signing.go`; Homestead embeds Frontier and keeps its hash. -/
inductive Signer where
  | FrontierSigner
  | HomesteadSigner
  | EIP155Signer (chainID : Int)
  deriving DecidableEq

namespace Signer

variable {H : Type} (rlpHash : List RlpValue → H)

/-- The fields Frontier and Homestead sign, Go's `FrontierSigner.Hash`: the shard included. -/
def frontierHash (tx : Transaction) : H :=
  rlpHash [.uint tx.AccountNonce, .bigInt tx.Price, .uint tx.GasLimit, .uint tx.ShardID,
    .address tx.Recipient, .bigInt tx.Amount, .bytes tx.Payload]

/-- The fields EIP-155 signs, Go's `EIP155Signer.Hash`: the chain but not the shard. -/
def eip155Hash (chainID : Int) (tx : Transaction) : H :=
  rlpHash [.uint tx.AccountNonce, .bigInt tx.Price, .uint tx.GasLimit, .address tx.Recipient,
    .bigInt tx.Amount, .bytes tx.Payload, .bigInt chainID, .uint 0, .uint 0]

/-- The hash a signer signs, Go's `Signer.Hash`. -/
def Hash : Signer → Transaction → H
  | FrontierSigner, tx => frontierHash rlpHash tx
  | HomesteadSigner, tx => frontierHash rlpHash tx
  | EIP155Signer chainID, tx => eip155Hash rlpHash chainID tx

end Signer

/-- Whether `V` marks an EIP-155 transaction, Go's `isProtectedV`: eight-bit 27 and 28 do not. -/
def isProtectedV (V : Int) : Bool :=
  if V.natAbs < 2 ^ 8 then V.natAbs ≠ 27 ∧ V.natAbs ≠ 28 else true

/-- The chain a protected `V` names, Go's `deriveChainID`, with `uint64` wrapping below 35. -/
def deriveChainID (V : Int) : Int :=
  if V.natAbs < 2 ^ 64 then
    if V.natAbs = 27 ∨ V.natAbs = 28 then 0
    else (((V.natAbs + 2 ^ 64 - 35) % 2 ^ 64) / 2 : Nat)
  else (V - 35) / 2

namespace Signer

variable {H : Type} (rlpHash : List RlpValue → H)
variable (recoverPlain : H → Int → Int → Int → Bool → Except String Address)

/-- The address that signed a transaction, Go's `Signer.Sender`. -/
def Sender : Signer → Transaction → Except String Address
  | FrontierSigner, tx => recoverPlain (frontierHash rlpHash tx) tx.R tx.S tx.V false
  | HomesteadSigner, tx => recoverPlain (frontierHash rlpHash tx) tx.R tx.S tx.V true
  | EIP155Signer chainID, tx =>
    -- An unprotected transaction is checked as Homestead checks it.
    if !isProtectedV tx.V then recoverPlain (frontierHash rlpHash tx) tx.R tx.S tx.V true
    else if deriveChainID tx.V ≠ chainID then .error "invalid chain id for signer"
    else recoverPlain (eip155Hash rlpHash chainID tx) tx.R tx.S (tx.V - chainID * 2 - 8) true

end Signer

end Harmony
