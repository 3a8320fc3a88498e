import Harmony.Explorer.Storage

/-!
What a dump leaves under an address key. Every update of a block reads the address's record from
the database as it was before the block, and the batch keeps the last put of each key; so the record
is the one the last transaction of the block touching the address writes alone, and what the
earlier ones wrote is lost. Two transfers to one payee in one block leave the payee's record with
the second alone. Over a run of dumps whose blocks touch each address at most once, every record
lists all the address's transactions, in dump order, with their total value.
-/

namespace Harmony

open Go

namespace Explorer

section

variable {H : Type} (enc : Encoding H)

/-- The transactions of a list that `Dump` records under address `adr`, with their records. -/
def touching (adr : String) (txs : List Harmony.Transaction) :
    List (Transaction × Harmony.Transaction) :=
  txs.filterMap fun tx => (GetTransaction enc tx).bind fun explorerTransaction =>
    if explorerTransaction.To = adr ∨ explorerTransaction.From = adr then
      some (explorerTransaction, tx)
    else none

/--
What the database holds under `adr`'s key once the update of one transaction touching it is written
alone.
-/
def writtenAlone (db : Database) (adr : String) (entry : Transaction × Harmony.Transaction) :
    Option Record :=
  (Write db (UpdateAddressStorage db [] adr entry.1 entry.2)).lookup (GetAddressKey adr)

/-- The last value a batch puts under `key`. -/
def lastPut (batch : Batch) (key : String) : Option Record :=
  ((batch.filter fun put => put.1 = key).getLast?).map Prod.snd

/-! ## Keys -/

@[simp] theorem GetAddressKey_inj (a b : String) : GetAddressKey a = GetAddressKey b ↔ a = b := by
  simp [GetAddressKey]

/-- The keys other than address keys differ from every address key in their prefix. -/
theorem GetAddressKey_ne (adr : String) (height : Nat) (hash : String) :
    BlockHeightKey ≠ GetAddressKey adr ∧ GetBlockKey height ≠ GetAddressKey adr ∧
      GetTXKey hash ≠ GetAddressKey adr := by
  refine ⟨fun same => ?_, fun same => ?_, fun same => ?_⟩ <;>
  · have letters := congrArg String.toList same
    simp [BlockHeightKey, GetBlockKey, GetTXKey, GetAddressKey] at letters

/-! ## Batches -/

theorem lastPut_append (batch batch' : Batch) (key : String) :
    lastPut (batch ++ batch') key = (lastPut batch' key).or (lastPut batch key) := by
  simp only [lastPut, List.filter_append, List.getLast?_append]
  cases (batch'.filter fun put => put.1 = key).getLast? <;> rfl

theorem Write_append_singleton (db : Database) (batch : Batch) (put : String × Record) :
    Write db (batch ++ [put]) = (Write db batch).insert put.1 put.2 := by
  simp [Write, List.foldl_append]

/-- A written batch leaves under each key the last value it puts there, if any. -/
theorem Write_lookup (db : Database) (batch : Batch) (key : String) :
    (Write db batch).lookup key = (lastPut batch key).or (db.lookup key) := by
  induction batch using List.reverseRecOn with
  | nil => rfl
  | append_singleton batch put ih =>
    rw [Write_append_singleton, lastPut_append]
    obtain ⟨k, value⟩ := put
    by_cases same : k = key
    · subst same
      simp [lastPut, AList.lookup_insert]
    · rw [AList.lookup_insert_ne (Ne.symm same), ih]
      simp [lastPut, same]

/-- Every update of a dump appends to the batch it is given. -/
theorem dumpTransaction_append (db : Database) (batch : Batch) (tx : Harmony.Transaction) :
    dumpTransaction enc db batch tx = batch ++ dumpTransaction enc db [] tx := by
  unfold dumpTransaction
  split <;> simp [UpdateTXStorage, UpdateAddress, UpdateAddressStorage]

/-- The update of one address appends one put, under the address's key. -/
theorem lastPut_UpdateAddressStorage (db : Database) (adr : String) (explorerTransaction : Transaction)
    (tx : Harmony.Transaction) (key : String) :
    lastPut (UpdateAddressStorage db [] adr explorerTransaction tx) key =
      if GetAddressKey adr = key then writtenAlone db adr (explorerTransaction, tx) else none := by
  split
  · rename_i same
    subst same
    simp [writtenAlone, Write_lookup, UpdateAddressStorage, lastPut]
  · rename_i other
    simp [lastPut, UpdateAddressStorage, other]

theorem writtenAlone_isSome (db : Database) (adr : String)
    (entry : Transaction × Harmony.Transaction) : (writtenAlone db adr entry).isSome := by
  simp [writtenAlone, Write_lookup, UpdateAddressStorage, lastPut]

/-- Under an address key, one transaction of a dump puts the record it writes alone, if it touches
the address, and nothing otherwise: its recipient's and its sender's updates put the same record when
both are the address. -/
theorem lastPut_dumpTransaction (db : Database) (tx : Harmony.Transaction) (adr : String) :
    lastPut (dumpTransaction enc db [] tx) (GetAddressKey adr) =
      (touching enc adr [tx]).getLast?.bind (writtenAlone db adr) := by
  unfold dumpTransaction
  cases found : GetTransaction enc tx with
  | none => simp [touching, found, lastPut]
  | some explorerTransaction =>
    -- The transaction's own put is under a key of its own; each address update appends one put.
    have own : lastPut [(GetTXKey (enc.hashHex tx), .transaction explorerTransaction)]
        (GetAddressKey adr) = none := by
      simp [lastPut, (GetAddressKey_ne adr 0 (enc.hashHex tx)).2.2]
    have append : ∀ batch adr', UpdateAddressStorage db batch adr' explorerTransaction tx =
        batch ++ UpdateAddressStorage db [] adr' explorerTransaction tx := fun _ _ => rfl
    obtain ⟨record, written⟩ :=
      Option.isSome_iff_exists.mp (writtenAlone_isSome db adr (explorerTransaction, tx))
    simp only [UpdateAddress, UpdateTXStorage, List.nil_append]
    rw [append _ explorerTransaction.From, append _ explorerTransaction.To]
    simp only [lastPut_append, lastPut_UpdateAddressStorage, GetAddressKey_inj, own]
    by_cases received : explorerTransaction.To = adr <;> by_cases sent : explorerTransaction.From = adr
    all_goals simp_all [touching]

theorem touching_append (adr : String) (txs txs' : List Harmony.Transaction) :
    touching enc adr (txs ++ txs') = touching enc adr txs ++ touching enc adr txs' :=
  List.filterMap_append

/-- Under an address key, the updates of a run of transactions put the record the last one
touching the address writes alone. -/
theorem lastPut_foldl_dumpTransaction (db : Database) {batch : Batch} {adr : String}
    (untouched : lastPut batch (GetAddressKey adr) = none) (txs : List Harmony.Transaction) :
    lastPut (txs.foldl (dumpTransaction enc db) batch) (GetAddressKey adr) =
      (touching enc adr txs).getLast?.bind (writtenAlone db adr) := by
  induction txs using List.reverseRecOn with
  | nil => simpa [touching] using untouched
  | append_singleton txs tx ih =>
    rw [List.foldl_append, List.foldl_cons, List.foldl_nil, dumpTransaction_append, lastPut_append,
      lastPut_dumpTransaction, ih, touching_append, List.getLast?_append]
    -- A transaction touching the address puts a record, so the earlier ones no longer count.
    cases (touching enc adr [tx]).getLast? with
    | none => rfl
    | some entry =>
      obtain ⟨record, written⟩ := Option.isSome_iff_exists.mp (writtenAlone_isSome db adr entry)
      simp [written]

/--
After a block is dumped, an address's record is the one the last transaction of the block touching
the address writes alone, reading the database as it was before the block; an address no
transaction of the block touches keeps its record.
-/
theorem Dump_lookup_address (db : Database) (block : Block) (height : Nat) (adr : String) :
    (Dump enc db (some block) height).lookup (GetAddressKey adr) =
      match (touching enc adr block.transactions).getLast? with
      | some entry => writtenAlone db adr entry
      | none => db.lookup (GetAddressKey adr) := by
  obtain ⟨heightKey, blockKey, -⟩ := GetAddressKey_ne adr height ""
  have untouched : lastPut [(BlockHeightKey, .height height), (GetBlockKey height, .block block)]
      (GetAddressKey adr) = none := by
    simp [lastPut, heightKey, blockKey]
  simp only [Dump]
  rw [Write_lookup, lastPut_foldl_dumpTransaction enc db untouched]
  cases (touching enc adr block.transactions).getLast? with
  | none => rfl
  | some entry =>
    obtain ⟨record, written⟩ := Option.isSome_iff_exists.mp (writtenAlone_isSome db adr entry)
    simp [written]

/-! ## Runs of dumps whose blocks touch each address once -/

/-- Dumps of blocks at their heights, one after another. -/
def dumpRun (db : Database) (dumps : List (Option Block × Nat)) : Database :=
  dumps.foldl (fun db dump => Dump enc db dump.1 dump.2) db

/-- The transactions a run of dumps records, in dump order. -/
def dumpedTransactions (dumps : List (Option Block × Nat)) : List Harmony.Transaction :=
  dumps.flatMap fun dump => (dump.1.map Block.transactions).getD []

/-- The record of an address that lists the given transactions, with their total value. -/
def listing (adr : String) (entries : List (Transaction × Harmony.Transaction)) : Option Record :=
  if entries = [] then none
  else some (.address ⟨adr, (entries.map fun entry => entry.1.Value).sum, entries.map Prod.fst⟩)

/-- No dumped block has two transactions touching one address. -/
def OneTouchPerBlock (dumps : List (Option Block × Nat)) : Prop :=
  ∀ dump ∈ dumps, ∀ block, dump.1 = some block →
    ∀ adr, (touching enc adr block.transactions).length ≤ 1

theorem GetTransaction_Value {tx : Harmony.Transaction} {explorerTransaction : Transaction}
    (found : GetTransaction enc tx = some explorerTransaction) :
    explorerTransaction.Value = tx.Amount := by
  unfold GetTransaction at found
  split at found
  · cases found
  · cases found
    rfl

theorem touching_Value {adr : String} {txs : List Harmony.Transaction}
    {entry : Transaction × Harmony.Transaction} (member : entry ∈ touching enc adr txs) :
    entry.1.Value = entry.2.Amount := by
  obtain ⟨tx, -, kept⟩ := List.mem_filterMap.mp member
  obtain ⟨explorerTransaction, built, picked⟩ := Option.bind_eq_some_iff.mp kept
  split at picked
  · cases picked
    exact GetTransaction_Value enc built
  · cases picked

/-- One dump keeps an address's record the listing of its transactions, when at most one
transaction of the block touches it. -/
theorem Dump_listing {db : Database} {adr : String} {prior : List (Transaction × Harmony.Transaction)}
    (listed : db.lookup (GetAddressKey adr) = listing adr prior) (block : Option Block)
    (height : Nat) (once : ∀ b, block = some b → (touching enc adr b.transactions).length ≤ 1) :
    (Dump enc db block height).lookup (GetAddressKey adr) =
      listing adr (prior ++ touching enc adr ((block.map Block.transactions).getD [])) := by
  cases block with
  | none => simpa [Dump, touching] using listed
  | some block =>
    rw [Dump_lookup_address]
    have short := once block rfl
    match entries : touching enc adr block.transactions, short with
    | [], _ => simpa [entries] using listed
    | [entry], _ =>
      have value := touching_Value enc (entries ▸ List.mem_singleton_self entry)
      -- The update reads the listing of the earlier transactions and appends this one.
      by_cases first : prior = []
      · subst first
        simp only [listing, if_pos] at listed
        simp [writtenAlone, Write_lookup, UpdateAddressStorage, lastPut, listed, listing, value]
      · simp only [listing, if_neg first] at listed
        simp [writtenAlone, Write_lookup, UpdateAddressStorage, lastPut, listed, listing, first,
          value]

theorem dumpRun_append_singleton (db : Database) (dumps : List (Option Block × Nat))
    (dump : Option Block × Nat) :
    dumpRun enc db (dumps ++ [dump]) = Dump enc (dumpRun enc db dumps) dump.1 dump.2 := by
  simp [dumpRun, List.foldl_append]

/-- A block touches each address at most as often as it has transactions. -/
theorem length_touching_le (adr : String) (txs : List Harmony.Transaction) :
    (touching enc adr txs).length ≤ txs.length :=
  List.length_filterMap_le _ _

/-- Runs of blocks of one transaction each touch each address once per block. -/
theorem oneTouchPerBlock_of_singletons {dumps : List (Option Block × Nat)}
    (single : ∀ dump ∈ dumps, ∀ block, dump.1 = some block → block.transactions.length ≤ 1) :
    OneTouchPerBlock enc dumps :=
  fun dump member block found adr =>
    (length_touching_le enc adr block.transactions).trans (single dump member block found)

/-- The payee of the transfers below. -/
def payee : Harmony.Address := FixedBytes.ofBytes 20 [1]

/-- A transfer of `amount` to the payee, with nonce `nonce`. -/
def transferToPayee (nonce : Nat) (amount : Int) : Harmony.Transaction :=
  ⟨nonce, 1, 21000, 0, some payee, amount, [], 27, 1, 1⟩

/-- A header of zeros; a dump reads none of its fields. -/
def blankHeader : Header := {
  ParentHash := FixedBytes.zero 32, Root := FixedBytes.zero 32, TxHash := FixedBytes.zero 32
  ReceiptHash := FixedBytes.zero 32, Bloom := [], Number := 0, GasLimit := 0, GasUsed := 0
  Epoch := 0, ShardID := 0, PrepareSignature := FixedBytes.zero 48, PrepareBitmap := []
  CommitSignature := FixedBytes.zero 48, CommitBitmap := [], RandSeed := FixedBytes.zero 32
  ShardStateHash := FixedBytes.zero 32, ShardState := [] }

/-- An encoding whose hashes are zero and whose senders are the zero address, and which writes a
transaction as its nonce and an address as its bytes. -/
def plainEncoding : Encoding Nat where
  rlpHash _ := 0
  recoverPlain _ _ _ _ _ := .ok (FixedBytes.zero 20)
  hashHex tx := toString tx.AccountNonce
  addressHex a := toString a.bytes

/-- The transfers of 1 and 2 to the payee, dumped in two blocks at heights 1 and 2. -/
def transfersInTwoBlocks : List (Option Block × Nat) :=
  [(some ⟨blankHeader, [transferToPayee 0 1]⟩, 1), (some ⟨blankHeader, [transferToPayee 1 2]⟩, 2)]

/--
Over a run of dumps from an empty database in which no block has two transactions touching one
address, every address's record lists every dumped transaction touching it, in dump order, with
their total value.
-/
theorem dumpRun_lookup_address {dumps : List (Option Block × Nat)}
    (spread : OneTouchPerBlock enc dumps) (adr : String) :
    (dumpRun enc ∅ dumps).lookup (GetAddressKey adr) =
      listing adr (touching enc adr (dumpedTransactions dumps)) := by
  induction dumps using List.reverseRecOn with
  | nil => rfl
  | append_singleton dumps dump ih =>
    have earlier : OneTouchPerBlock enc dumps := fun d member => spread d (by simp [member])
    have once : ∀ b, dump.1 = some b → (touching enc adr b.transactions).length ≤ 1 :=
      fun b same => spread dump (by simp) b same adr
    rw [dumpRun_append_singleton, Dump_listing enc (ih earlier) dump.1 dump.2 once]
    simp [dumpedTransactions, touching_append]

/-- Dumped in two blocks, the two transfers are both listed under the payee, in dump order. -/
theorem dumpRun_lookup_address_two_blocks :
    OneTouchPerBlock plainEncoding transfersInTwoBlocks ∧
      (dumpRun plainEncoding ∅ transfersInTwoBlocks).lookup
          (GetAddressKey (plainEncoding.addressHex payee)) =
        listing (plainEncoding.addressHex payee)
          (touching plainEncoding (plainEncoding.addressHex payee)
            (dumpedTransactions transfersInTwoBlocks)) ∧
      (touching plainEncoding (plainEncoding.addressHex payee)
          (dumpedTransactions transfersInTwoBlocks)).map (·.2) =
        [transferToPayee 0 1, transferToPayee 1 2] := by
  have spread : OneTouchPerBlock plainEncoding transfersInTwoBlocks :=
    oneTouchPerBlock_of_singletons plainEncoding (by simp [transfersInTwoBlocks])
  refine ⟨spread, dumpRun_lookup_address plainEncoding spread _, ?_⟩
  decide

end

/--
Two transfers to one payee in one block, of 1 and then 2, dumped into an empty database: the payee's
record lists the second transfer alone, with balance 2.
-/
theorem Dump_drops_earlier_transfer {H : Type} (enc : Encoding H) (header : Header) (height : Nat) :
    ∃ first second : Transaction,
      GetTransaction enc (transferToPayee 0 1) = some first ∧ first.To = enc.addressHex payee ∧
      GetTransaction enc (transferToPayee 1 2) = some second ∧ second.To = enc.addressHex payee ∧
      (Dump enc ∅ (some ⟨header, [transferToPayee 0 1, transferToPayee 1 2]⟩) height).lookup
          (GetAddressKey (enc.addressHex payee)) =
        some (.address ⟨enc.addressHex payee, 2, [second]⟩) := by
  refine ⟨_, _, rfl, rfl, rfl, rfl, ?_⟩
  rw [Dump_lookup_address]
  simp [touching, GetTransaction, transferToPayee, writtenAlone, Write_lookup, UpdateAddressStorage,
    lastPut]

end Explorer

end Harmony
