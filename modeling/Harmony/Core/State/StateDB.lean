import Harmony.Consensus.State
import Harmony.Lib.GoSort
import Harmony.Lib.Journal

/-!
The state database of `core/state`: live account objects over the account trie, the journal of
changes (`journal.go`), and the revisions that `Snapshot` and `RevertToSnapshot` keep
(`statedb.go`, `state_object.go`).

Accounts the trie holds are read through `trie`, and storage and code through the backing
`Database`; none of these changes before `Finalise`. Go keeps three read caches over them: the
objects `getStateObject` loads into the live set, `originStorage`, and the code `Code` loads. Each
only remembers a read of a store that has not changed, so here a read is made again instead.
-/

namespace Harmony

open Go

namespace State

/-- The reads the state makes of its backing database. -/
structure Database where
  /-- The code with a hash, Go's `ContractCode`; nil when it cannot be loaded. -/
  ContractCode : Hash → Bytes
  /-- The value of a key in the storage trie with a root, zero when absent. -/
  Storage : Hash → Hash → Hash
  /-- go-ethereum's `crypto.Keccak256Hash`. -/
  Keccak256Hash : Bytes → Hash

/-- The hash of empty code, Go's `emptyCodeHash`. -/
def Database.emptyCodeHash (db : Database) : Hash := db.Keccak256Hash []

/-- An account as the trie stores it, Go's `Account`. -/
structure Account where
  /-- The nonce. -/
  Nonce : UInt64
  /-- The balance. -/
  Balance : Int
  /-- The root of the storage trie. -/
  Root : Hash
  /-- The hash of the code. -/
  CodeHash : Hash

/-- A live account, Go's `Object`. -/
structure Object where
  /-- The account's address. -/
  address : Address
  /-- The account's fields. -/
  data : Account
  /-- The code set or loaded, Go's `code`; nil until then. -/
  code : Bytes
  /-- Storage written since the last commit, Go's `dirtyStorage`. -/
  dirtyStorage : Hash → Option Hash
  /-- Whether the account has destructed itself. -/
  suicided : Bool
  /-- Whether `Finalise` has deleted the account. -/
  deleted : Bool

/-- A log record, Go's `types.Log`, with the fields `AddLog` fills in. -/
structure Log where
  /-- The contract that emitted the log. -/
  Address : Address
  /-- The topics. -/
  Topics : List Hash
  /-- The data. -/
  Data : Bytes
  /-- The transaction's hash. -/
  TxHash : Hash
  /-- The transaction's index in its block. -/
  TxIndex : Nat
  /-- The block's hash. -/
  BlockHash : Hash
  /-- The log's index in the block. -/
  Index : UInt64

/-- One change in the journal, with what undoing it needs. -/
inductive JournalEntry where
  | createObjectChange (account : Address)
  | resetObjectChange (prev : Object)
  | suicideChange (account : Address) (prev : Bool) (prevbalance : Int)
  | balanceChange (account : Address) (prev : Int)
  | nonceChange (account : Address) (prev : UInt64)
  | storageChange (account : Address) (key prevalue : Hash)
  | codeChange (account : Address) (prevcode : Bytes) (prevhash : Hash)
  | refundChange (prev : UInt64)
  | addLogChange (txhash : Hash)
  | addPreimageChange (hash : Hash)
  | touchChange (account : Address)

/-- A snapshot: its id and the journal's length when it was taken. -/
structure revision where
  /-- The id `Snapshot` returned. -/
  id : Nat
  /-- The journal's length at the snapshot. -/
  journalIndex : Nat

/-- The state database, Go's `DB`. -/
structure DB where
  /-- The backing database. -/
  db : Database
  /-- The accounts of the account trie; `none` when missing or undecodable. -/
  trie : Address → Option Account
  /-- The live objects. -/
  stateObjects : Address → Option Object
  /-- The refund counter. -/
  refund : UInt64
  /-- The transaction that logs are added for, set by `Prepare`. -/
  thash : Hash
  /-- The block that logs are added for. -/
  bhash : Hash
  /-- The transaction's index. -/
  txIndex : Nat
  /-- The logs of each transaction. -/
  logs : Hash → List Log
  /-- The number of logs added. -/
  logSize : UInt64
  /-- The SHA3 preimages seen. -/
  preimages : Hash → Option Bytes
  /-- The journal's entries, oldest first. -/
  journal : List JournalEntry
  /-- The snapshots that can still be reverted to, oldest first. -/
  validRevisions : List revision
  /-- The id of the next snapshot. -/
  nextRevisionID : Nat

namespace Object

/-- Go's `newObject`: an account loaded or created, with nothing cached or written. -/
def newObject (address : Address) (data : Account) : Object :=
  ⟨address, data, [], fun _ => none, false, false⟩

/-- Go's `empty`: no nonce, no balance and no code. -/
def empty (db : Database) (s : Object) : Bool :=
  s.data.Nonce == 0 && s.data.Balance == 0 && s.data.CodeHash == db.emptyCodeHash

/--
Go's `Code`: the code set on the account, or the code its hash names. Go's `[]byte` is a list here,
with nil as the empty list; an empty code that is not nil has the empty code's hash, for which
both read as empty.
-/
def Code (db : Database) (s : Object) : Bytes :=
  if s.code ≠ [] then s.code
  else if s.data.CodeHash = db.emptyCodeHash then []
  else db.ContractCode s.data.CodeHash

/-- Go's `GetCommittedState`: the value in the storage trie. -/
def GetCommittedState (db : Database) (s : Object) (key : Hash) : Hash := db.Storage s.data.Root key

/-- Go's `GetState`: the value written since the last commit, or the committed one. -/
def GetState (db : Database) (s : Object) (key : Hash) : Hash :=
  (s.dirtyStorage key).getD (s.GetCommittedState db key)

/-- Go's `SetBalance`: journal the old balance, and set the new one. -/
def SetBalance (s : Object) (amount : Int) : List JournalEntry × Object :=
  ([.balanceChange s.address s.data.Balance], { s with data.Balance := amount })

/-- Go's `AddBalance`. Adding zero only touches an empty account, for EIP-158's clearing. -/
def AddBalance (db : Database) (s : Object) (amount : Int) : List JournalEntry × Object :=
  if amount = 0 then (if s.empty db then [.touchChange s.address] else [], s)
  else s.SetBalance (s.data.Balance + amount)

/-- Go's `SubBalance`. -/
def SubBalance (s : Object) (amount : Int) : List JournalEntry × Object :=
  if amount = 0 then ([], s) else s.SetBalance (s.data.Balance - amount)

/-- Go's `SetNonce`. -/
def SetNonce (s : Object) (nonce : UInt64) : List JournalEntry × Object :=
  ([.nonceChange s.address s.data.Nonce], { s with data.Nonce := nonce })

/-- Go's `setCode`: the code and its hash, unjournalled. -/
def setCode (s : Object) (codeHash : Hash) (code : Bytes) : Object :=
  { s with code := code, data.CodeHash := codeHash }

/-- Go's `SetCode`: journal the code as `Code` reads it and the old hash, and set the new code. -/
def SetCode (db : Database) (s : Object) (codeHash : Hash) (code : Bytes) :
    List JournalEntry × Object :=
  ([.codeChange s.address (s.Code db) s.data.CodeHash], s.setCode codeHash code)

/-- Go's `setState`: write a storage value, unjournalled. -/
def setState (s : Object) (key value : Hash) : Object :=
  { s with dirtyStorage := Function.update s.dirtyStorage key (some value) }

/-- Go's `SetState`: a write of the value already there is skipped; another is journalled. -/
def SetState (db : Database) (s : Object) (key value : Hash) : List JournalEntry × Object :=
  let prev := s.GetState db key
  if prev = value then ([], s) else ([.storageChange s.address key prev], s.setState key value)

end Object

namespace DB

/-- Go's `getStateObject`: the live object, unless deleted, or the account the trie holds. -/
def getStateObject (s : DB) (addr : Address) : Option Object :=
  match s.stateObjects addr with
  | some obj => if obj.deleted then none else some obj
  | none => (s.trie addr).map (Object.newObject addr)

/-- Go's `setStateObject`. -/
def setStateObject (s : DB) (object : Object) : DB :=
  { s with stateObjects := Function.update s.stateObjects object.address (some object) }

/-- Go's `journal.append`. -/
def append (s : DB) (entries : List JournalEntry) : DB := { s with journal := s.journal ++ entries }

/-- An object method's entries journalled and its object written back, as Go's pointer does. -/
def update (s : DB) (changed : List JournalEntry × Object) : DB :=
  (s.append changed.1).setStateObject changed.2

/-- The account `newObject(db, addr, Account{})` makes: no nonce, balance, storage or code. -/
def emptyAccount (s : DB) : Account := ⟨0, 0, FixedBytes.zero 32, s.db.emptyCodeHash⟩

/-- Go's `createObject`: a fresh account over any existing one, journalled as a creation or reset. -/
def createObject (s : DB) (addr : Address) : (Object × Option Object) × DB :=
  let prev := s.getStateObject addr
  let newobj := Object.newObject addr s.emptyAccount
  let entry := match prev with
    | none => JournalEntry.createObjectChange addr
    | some prev => JournalEntry.resetObjectChange prev
  ((newobj, prev), (s.append [entry]).setStateObject newobj)

/-- Go's `GetOrNewStateObject`. -/
def GetOrNewStateObject (s : DB) (addr : Address) : Object × DB :=
  match s.getStateObject addr with
  | some obj => (obj, s)
  | none => ((s.createObject addr).1.1, (s.createObject addr).2)

/-- Go's `CreateAccount`: an existing account's balance carries over. -/
def CreateAccount (s : DB) (addr : Address) : DB :=
  let ((newobj, prev), s) := s.createObject addr
  match prev with
  | some prev => s.setStateObject { newobj with data.Balance := prev.data.Balance }
  | none => s

/-- Go's `AddBalance`. -/
def AddBalance (s : DB) (addr : Address) (amount : Int) : DB :=
  let (obj, s) := s.GetOrNewStateObject addr
  s.update (obj.AddBalance s.db amount)

/-- Go's `SubBalance`. -/
def SubBalance (s : DB) (addr : Address) (amount : Int) : DB :=
  let (obj, s) := s.GetOrNewStateObject addr
  s.update (obj.SubBalance amount)

/-- Go's `SetBalance`. -/
def SetBalance (s : DB) (addr : Address) (amount : Int) : DB :=
  let (obj, s) := s.GetOrNewStateObject addr
  s.update (obj.SetBalance amount)

/-- Go's `SetNonce`. -/
def SetNonce (s : DB) (addr : Address) (nonce : UInt64) : DB :=
  let (obj, s) := s.GetOrNewStateObject addr
  s.update (obj.SetNonce nonce)

/-- Go's `SetCode`. -/
def SetCode (s : DB) (addr : Address) (code : Bytes) : DB :=
  let (obj, s) := s.GetOrNewStateObject addr
  s.update (obj.SetCode s.db (s.db.Keccak256Hash code) code)

/-- Go's `SetState`. -/
def SetState (s : DB) (addr : Address) (key value : Hash) : DB :=
  let (obj, s) := s.GetOrNewStateObject addr
  s.update (obj.SetState s.db key value)

/-- Go's `Suicide`: mark a live account and clear its balance; `false` when there is none. -/
def Suicide (s : DB) (addr : Address) : Bool × DB :=
  match s.getStateObject addr with
  | none => (false, s)
  | some obj =>
    (true, s.update ([.suicideChange addr obj.suicided obj.data.Balance],
      { obj with suicided := true, data.Balance := 0 }))

/-- Go's `AddRefund`; the counter is a `uint64`. -/
def AddRefund (s : DB) (gas : UInt64) : DB :=
  { s.append [.refundChange s.refund] with refund := s.refund + gas }

/-- Go's `SubRefund`: the change is journalled before the check that panics. -/
def SubRefund (s : DB) (gas : UInt64) : Outcome DB :=
  let s := s.append [.refundChange s.refund]
  if gas > s.refund then throw "Refund counter below zero"
  else pure { s with refund := s.refund - gas }

/-- Go's `AddLog`: the log is stamped with the current transaction and block. -/
def AddLog (s : DB) (log : Log) : DB :=
  let log := { log with
    TxHash := s.thash, BlockHash := s.bhash, TxIndex := s.txIndex, Index := s.logSize }
  { s.append [.addLogChange s.thash] with
    logs := Function.update s.logs s.thash (s.logs s.thash ++ [log])
    logSize := s.logSize + 1 }

/-- Go's `AddPreimage`: only a new preimage is recorded and journalled. -/
def AddPreimage (s : DB) (hash : Hash) (preimage : Bytes) : DB :=
  match s.preimages hash with
  | some _ => s
  | none => { s.append [.addPreimageChange hash] with
      preimages := Function.update s.preimages hash (some preimage) }

/-- Go's `Exist`: suicided accounts exist until `Finalise`. -/
def Exist (s : DB) (addr : Address) : Bool := (s.getStateObject addr).isSome

/-- Go's `Empty`: missing, or empty by EIP-161. -/
def Empty (s : DB) (addr : Address) : Bool :=
  match s.getStateObject addr with
  | none => true
  | some obj => obj.empty s.db

/-- Go's `GetBalance`. -/
def GetBalance (s : DB) (addr : Address) : Int :=
  match s.getStateObject addr with
  | none => 0
  | some obj => obj.data.Balance

/-- Go's `GetNonce`. -/
def GetNonce (s : DB) (addr : Address) : UInt64 :=
  match s.getStateObject addr with
  | none => 0
  | some obj => obj.data.Nonce

/-- Go's `GetCode`. -/
def GetCode (s : DB) (addr : Address) : Bytes :=
  match s.getStateObject addr with
  | none => []
  | some obj => obj.Code s.db

/-- Go's `GetCodeHash`. -/
def GetCodeHash (s : DB) (addr : Address) : Hash :=
  match s.getStateObject addr with
  | none => FixedBytes.zero 32
  | some obj => obj.data.CodeHash

/-- Go's `GetState`. -/
def GetState (s : DB) (addr : Address) (key : Hash) : Hash :=
  match s.getStateObject addr with
  | none => FixedBytes.zero 32
  | some obj => obj.GetState s.db key

/-- Go's `HasSuicided`. -/
def HasSuicided (s : DB) (addr : Address) : Bool :=
  match s.getStateObject addr with
  | none => false
  | some obj => obj.suicided

/-- Go's `GetRefund`. -/
def GetRefund (s : DB) : UInt64 := s.refund

/-- Go's `GetLogs`. -/
def GetLogs (s : DB) (hash : Hash) : List Log := s.logs hash

/-- Go's `Preimages`. -/
def Preimages (s : DB) : Hash → Option Bytes := s.preimages

/-- Go's `Snapshot`: a fresh id, recorded with the journal's length. -/
def Snapshot (s : DB) : Nat × DB :=
  let id := s.nextRevisionID
  (id, { s with
    nextRevisionID := id + 1, validRevisions := s.validRevisions ++ [⟨id, s.journal.length⟩] })

end DB

/--
`s.getStateObject(*ch.account).set…(ch.prev)`, as most reverts undo a change: the account's object,
changed, is written back, and a missing account is a nil dereference.
-/
def DB.revertStateObject (s : DB) (account : Address) (change : Object → Object) : Outcome DB :=
  match s.getStateObject account with
  | some obj => pure (s.setStateObject (change obj))
  | none => throw "nil pointer dereference"

/-- Undo one journal entry, Go's `revert` methods. -/
def JournalEntry.revert : JournalEntry → DB → Outcome DB
  | .createObjectChange account, s =>
    pure { s with stateObjects := Function.update s.stateObjects account none }
  | .resetObjectChange prev, s => pure (s.setStateObject prev)
  | .suicideChange account prev prevbalance, s =>
    -- The only revert that checks for a missing account.
    match s.getStateObject account with
    | some obj => pure (s.setStateObject { obj with suicided := prev, data.Balance := prevbalance })
    | none => pure s
  | .balanceChange account prev, s =>
    s.revertStateObject account fun obj => { obj with data.Balance := prev }
  | .nonceChange account prev, s =>
    s.revertStateObject account fun obj => { obj with data.Nonce := prev }
  | .storageChange account key prevalue, s =>
    s.revertStateObject account fun obj => obj.setState key prevalue
  | .codeChange account prevcode prevhash, s =>
    s.revertStateObject account fun obj => obj.setCode prevhash prevcode
  | .refundChange prev, s => pure { s with refund := prev }
  | .addLogChange txhash, s =>
    match s.logs txhash with
    | [] => throw "slice bounds out of range"
    | [_] => pure { s with logs := Function.update s.logs txhash [], logSize := s.logSize - 1 }
    | logs => pure { s with
        logs := Function.update s.logs txhash logs.dropLast, logSize := s.logSize - 1 }
  | .addPreimageChange hash, s =>
    pure { s with preimages := Function.update s.preimages hash none }
  | .touchChange _, s => pure s

namespace DB

/--
Go's `RevertToSnapshot`: find the revision by binary search, undo the journal back to its
length, and drop it with every later revision.
-/
def RevertToSnapshot (s : DB) (revid : Nat) : Outcome DB := do
  -- The search only probes indices below the length.
  let idx := sortSearch s.validRevisions.length fun i =>
    revid ≤ (s.validRevisions.getD i ⟨0, 0⟩).id
  match s.validRevisions[idx]? with
  | some r =>
    if r.id ≠ revid then throw s!"revision id {revid} cannot be reverted"
    else
      let snapshot := r.journalIndex
      let reverted ← Journal.undo JournalEntry.revert (s.journal.drop snapshot) s
      pure { reverted with
        journal := s.journal.take snapshot, validRevisions := s.validRevisions.take idx }
  | none => throw s!"revision id {revid} cannot be reverted"

end DB

end State

end Harmony
