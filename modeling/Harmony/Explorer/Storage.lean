import Harmony.Core.Signing

/-!
The explorer's block dump, `api/service/explorer/storage.go`: `Storage.Dump` indexes a block's
transactions into a key-value database, one record per transaction and one per address that sent
or received one.

All the writes of a block go into one batch, written at the end; `UpdateAddressStorage` reads the
address's earlier record from the database, not from the batch. The database holds the values RLP
decodes to: a value under an address key that is not an address record fails to decode.
-/

namespace Harmony

open Go

namespace Explorer

/--
The functions `Dump` calls whose results the model leaves abstract: the sender recovery of the
signing model's two parameters, and the hex forms of hashes and addresses.
-/
structure Encoding (H : Type) where
  /-- Keccak over an RLP argument list, as `Signer.Hash` takes it. -/
  rlpHash : List RlpValue → H
  /-- secp256k1 public key recovery, as `Signer.Sender` takes it. -/
  recoverPlain : H → Int → Int → Int → Bool → Except String Harmony.Address
  /-- `tx.Hash().Hex()`. -/
  hashHex : Harmony.Transaction → String
  /-- `common.Address.Hex()`. -/
  addressHex : Harmony.Address → String

/-- Go's explorer `Transaction`, with the fields the address records read. -/
structure Transaction where
  ID : String
  From : String
  To : String
  /-- The value transferred, a `*big.Int`. -/
  Value : Int
  deriving DecidableEq

/-- Go's explorer `Address`: the transactions of one address and their total value. -/
structure Address where
  ID : String
  /-- A `*big.Int`; a nil one encodes as zero. -/
  Balance : Int
  TXs : List Transaction
  deriving DecidableEq

/-- What the database holds under a key, as RLP decodes it. -/
inductive Record where
  /-- The height of the last block dumped, under `BlockHeightKey`. -/
  | height (value : Nat)
  | block (value : Block)
  | transaction (value : Transaction)
  | address (value : Address)
  deriving DecidableEq

/-- The explorer's LevelDB database, by key. -/
abbrev Database := AList fun _ : String => Record

/-- The puts of a batch, in order. -/
abbrev Batch := List (String × Record)

/-- Go's `BlockHeightKey`. -/
def BlockHeightKey : String := "bh"

/-- Go's `GetAddressKey`. -/
def GetAddressKey (address : String) : String := "ad_" ++ address

/-- Go's `GetBlockKey`. -/
def GetBlockKey (id : Nat) : String := "b_" ++ toString id

/-- Go's `GetTXKey`. -/
def GetTXKey (hash : String) : String := "tx_" ++ hash

section

variable {H : Type} (enc : Encoding H)

/--
Go's `GetTransaction`: nil for a contract creation. An error of `AsMessage` is logged, and the
message keeps the zero sender.
-/
def GetTransaction (tx : Harmony.Transaction) : Option Transaction :=
  match tx.Recipient with
  | none => none
  | some recipient =>
    let sender := match Signer.Sender enc.rlpHash enc.recoverPlain .HomesteadSigner tx with
      | .ok sender => sender
      | .error _ => FixedBytes.zero 20
    some {
      ID := enc.hashHex tx
      From := enc.addressHex sender
      To := enc.addressHex recipient
      Value := tx.Amount }

/-- Go's `UpdateTXStorage`: the transaction's record goes into the batch. -/
def UpdateTXStorage (batch : Batch) (explorerTransaction : Transaction)
    (tx : Harmony.Transaction) : Batch :=
  batch ++ [(GetTXKey (enc.hashHex tx), .transaction explorerTransaction)]

/--
Go's `UpdateAddressStorage`: the address's record as the database holds it, with the transaction
appended and its value added, goes into the batch.
-/
def UpdateAddressStorage (db : Database) (batch : Batch) (adr : String)
    (explorerTransaction : Transaction) (tx : Harmony.Transaction) : Batch :=
  let key := GetAddressKey adr
  let address : Address := match db.lookup key with
    | some (.address stored) => { stored with Balance := stored.Balance + tx.Amount }
    -- A decoding error is logged, and the record starts from the zero value.
    | some _ => ⟨"", 0, []⟩
    | none => ⟨"", tx.Amount, []⟩
  let address := { address with ID := adr, TXs := address.TXs ++ [explorerTransaction] }
  batch ++ [(key, .address address)]

/-- Go's `UpdateAddress`: the recipient's record, then the sender's. -/
def UpdateAddress (db : Database) (batch : Batch) (explorerTransaction : Transaction)
    (tx : Harmony.Transaction) : Batch :=
  let batch := UpdateAddressStorage db batch explorerTransaction.To explorerTransaction tx
  UpdateAddressStorage db batch explorerTransaction.From explorerTransaction tx

/-- Go's `batch.Write()`: the puts, in order. -/
def Write (db : Database) (batch : Batch) : Database :=
  batch.foldl (fun db put => db.insert put.1 put.2) db

/-- The records one transaction of a dumped block adds to the batch. -/
def dumpTransaction (db : Database) (batch : Batch) (tx : Harmony.Transaction) : Batch :=
  -- `tx.To() == nil` skips the transaction; `GetTransaction` is nil exactly then.
  match GetTransaction enc tx with
  | none => batch
  | some explorerTransaction =>
    let batch := UpdateTXStorage enc batch explorerTransaction tx
    UpdateAddress db batch explorerTransaction tx

/-- Go's `Storage.Dump`. Encoding a block never fails, so the block is always stored. -/
def Dump (db : Database) (block : Option Block) (height : Nat) : Database :=
  match block with
  | none => db
  | some block =>
    let batch : Batch := [(BlockHeightKey, .height height), (GetBlockKey height, .block block)]
    Write db (block.transactions.foldl (dumpTransaction enc db) batch)

end

end Explorer

end Harmony
