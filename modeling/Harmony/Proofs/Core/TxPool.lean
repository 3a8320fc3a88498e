import Harmony.Core.TxPool

/-!
The pool's internal bookkeeping, as the test suite checks it (`validateTxPoolInternals` of
`core/tx_pool_test.go`): `all` holds the pending and queued transactions, the price heap holds
them too once its stale entries are taken off, and every pending account's next nonce follows its
last pending transaction.

The price heap's count breaks on a run of ordinary operations. Dropping a queued transaction
counts its heap entry as stale and leaves it in the heap. If the same transaction comes back, the
heap holds it twice, and a price floor above it pops both entries as live, takes the transaction
out once, and leaves the stale count one too high.
-/

namespace Harmony

open Go

namespace Core

/-- Go's `validateTxPoolInternals`, with its error texts. -/
def validateTxPoolInternals (pool : TxPool) : Except String Unit := do
  let (pending, queued) := pool.stats
  let total := pool.all.Count
  if total ≠ pending + queued then
    throw s!"total transaction count {total} != {pending} pending + {queued} queued"
  let priced : Int := pool.priced.items.length - pool.priced.stales
  if priced ≠ pending + queued then
    throw s!"total priced transaction count {priced} != {pending} pending + {queued} queued"
  -- The next nonce to assign follows the account's last pending transaction.
  for e in pool.pending.entries do
    let last := (e.2.txs.items.map (·.AccountNonce)).foldl max 0
    let nonce := pool.pendingState.GetNonce e.1
    if nonce ≠ last + 1 then
      throw s!"pending nonce mismatch: have {nonce}, want {last + 1}"

section Sample

/-- A byte for each RLP value, standing in for its encoding. -/
def rlpByte : RlpValue → UInt8
  | .uint n => n.toUInt8
  | .bigInt i => i.toNat.toUInt8
  | .address _ => 0
  | .bytes b => b.length.toUInt8

/--
A codec for the sample run: a transaction's hash lists a byte of each of its fields, so the run's
transactions hash apart; the signer of `V` is the address of that byte.
-/
def sampleCodec : Codec where
  rlpHash fields := FixedBytes.ofBytes 32 (fields.map rlpByte)
  rlpSize _ := 100
  recoverPlain _ _ _ V _ := .ok (FixedBytes.ofBytes 20 [V.toNat.toUInt8])

/-- A plain transfer of nothing, signed with `V` (27 or 28, so unprotected). -/
def signedTransfer (nonce : Nat) (price V : Int) : Transaction :=
  ⟨nonce, price, 21000, 0, some (FixedBytes.zero 20), 0, [], V, 1, 1⟩

/-- A head block with an eight-million gas limit. -/
def sampleHead : Block :=
  ⟨⟨FixedBytes.zero 32, FixedBytes.zero 32, FixedBytes.zero 32, FixedBytes.zero 32, [], 0, 8000000,
    0, 0, 0, FixedBytes.zero 48, [], FixedBytes.zero 48, [], FixedBytes.zero 32, FixedBytes.zero 32,
    []⟩, []⟩

/-- A chain at that head, whose state gives every account nonce zero and a large balance. -/
def sampleChain : blockChain where
  CurrentBlock := sampleHead
  GetBlock _ _ := none
  StateAt _ := .ok ⟨fun _ => 0, fun _ => 1000000000⟩
  HeaderHash _ := FixedBytes.zero 32

/-- A clock past one queue lifetime. -/
def sampleNow : Nat := 2 * DefaultTxPoolConfig.Lifetime

/-- Four transfers at price 10 from the signer of 27, nonces 0 to 3. -/
def executableTransfers : List Transaction :=
  (List.range 4).map fun nonce => signedTransfer nonce 10 27

/-- A transfer at price 2 from the signer of 28, whose nonce 1 leaves a gap, so it stays queued. -/
def gappedTransfer : Transaction := signedTransfer 1 2 28

end Sample

/--
A run of `NewTxPool`, `AddRemotes`, `AddRemote`, the eviction tick, `AddRemote` of the same
transaction and `SetGasPrice` passes every check of `validateTxPoolInternals` until the last step,
where the price heap counts one transaction fewer than the pool holds.
-/
theorem readded_transaction_breaks_priced_count :
    ∃ pool₀, TxPool.NewTxPool sampleCodec sampleNow sampleChain DefaultTxPoolConfig 1 = .ok pool₀ ∧
      let added := pool₀.AddRemotes sampleCodec sampleNow executableTransfers
      let queued := added.2.AddRemote sampleCodec sampleNow gappedTransfer
      let evicted := queued.2.evict sampleCodec sampleNow
      let readded := evicted.AddRemote sampleCodec sampleNow gappedTransfer
      let floored := readded.2.SetGasPrice sampleCodec 5
      added.1 = [.ok (), .ok (), .ok (), .ok ()] ∧ queued.1 = .ok () ∧ readded.1 = .ok () ∧
      validateTxPoolInternals pool₀ = .ok () ∧ validateTxPoolInternals added.2 = .ok () ∧
      validateTxPoolInternals queued.2 = .ok () ∧ validateTxPoolInternals evicted = .ok () ∧
      validateTxPoolInternals readded.2 = .ok () ∧
      validateTxPoolInternals floored =
        .error "total priced transaction count 3 != 4 pending + 0 queued" := by
  refine ⟨_, rfl, ?_⟩
  decide

end Core

end Harmony
