import Harmony.Crypto.Mask
import Harmony.Core.Types

/-!
Consensus phases and modes, the protobuf consensus messages, and the PBFT log.

The log of `pbft_log.go` is a set iterated in Go's unspecified map order; it is a list here, kept
in the order the messages arrived and queried in that order, which is one of the orders Go's
iteration may take.
-/

namespace Harmony

open Go

/-- The PBFT phase of a round, Go's `PbftPhase`. -/
inductive PbftPhase where
  | Announce
  | Prepare
  | Commit
  deriving DecidableEq, Repr

/-- Whether a node runs rounds, changes view, or syncs, Go's `Mode`. -/
inductive Mode where
  | Normal
  | ViewChanging
  | Syncing
  deriving DecidableEq, Repr

/-- The node's mode together with the view it is changing to, Go's `PbftMode`. -/
structure PbftMode where
  /-- The current mode. -/
  mode : Mode
  /-- The view of the last view change this node started or completed. -/
  viewID : UInt32
  deriving DecidableEq, Repr

/-- The protobuf `MessageType` enum; proto3 keeps unknown values. -/
inductive MessageType where
  | NEWNODE_BEACON_STAKING
  | ANNOUNCE
  | PREPARE
  | PREPARED
  | COMMIT
  | COMMITTED
  | VIEWCHANGE
  | NEWVIEW
  | DRAND_INIT
  | DRAND_COMMIT
  | LOTTERY_REQUEST
  | unknown (code : Int)
  deriving DecidableEq, Repr

/-- The protobuf `ServiceType` enum. -/
inductive ServiceType where
  | CONSENSUS
  | STAKING
  | DRAND
  | CLIENT_SUPPORT
  | unknown (code : Int)
  deriving DecidableEq, Repr

/-- The body of a normal-mode consensus message, protobuf `ConsensusRequest`. -/
structure ConsensusRequest where
  ViewId : UInt32
  BlockNum : Nat
  BlockHash : Bytes
  SenderPubkey : Bytes
  Payload : Bytes
  deriving DecidableEq, Repr

/-- The body of a view-change or new-view message, protobuf `ViewChangeRequest`. -/
structure ViewChangeRequest where
  ViewId : UInt32
  BlockNum : Nat
  SenderPubkey : Bytes
  LeaderPubkey : Bytes
  Payload : Bytes
  ViewchangeSig : Bytes
  ViewidSig : Bytes
  M2Aggsigs : Bytes
  M2Bitmap : Bytes
  M3Aggsigs : Bytes
  M3Bitmap : Bytes
  deriving DecidableEq, Repr

/-- The body of a randomness message, protobuf `DrandRequest`. -/
structure DrandRequest where
  SenderPubkey : Bytes
  BlockHash : Bytes
  Payload : Bytes
  deriving DecidableEq, Repr

/-- The `request` oneof of a protobuf `Message`; `none` is an unset oneof. -/
inductive Request where
  | none
  | staking (transaction : Bytes)
  | consensus (body : ConsensusRequest)
  | drand (body : DrandRequest)
  | viewchange (body : ViewChangeRequest)
  | lottery
  deriving DecidableEq, Repr

/-- A protobuf `Message`. -/
structure Message where
  /-- Go's `ServiceType`. -/
  serviceType : ServiceType
  /-- Go's `Type`. -/
  msgType : MessageType
  /-- Go's `Signature`: the sender's signature over the message with this field cleared. -/
  Signature : Bytes
  /-- Go's `Request` oneof. -/
  request : Request
  deriving DecidableEq, Repr

namespace Message

/-- The consensus body, or Go's `nil` when the oneof holds something else. -/
def GetConsensus (msg : Message) : Option ConsensusRequest :=
  match msg.request with
  | .consensus body => some body
  | _ => none

/-- The view-change body, or Go's `nil` when the oneof holds something else. -/
def GetViewchange (msg : Message) : Option ViewChangeRequest :=
  match msg.request with
  | .viewchange body => some body
  | _ => none

/-- The randomness body, or Go's `nil` when the oneof holds something else. -/
def GetDrand (msg : Message) : Option DrandRequest :=
  match msg.request with
  | .drand body => some body
  | _ => none

end Message

/-- A parsed consensus message as the log stores it, Go's `PbftMessage`. -/
structure PbftMessage (K S : Type) where
  MessageType : MessageType
  ViewID : UInt32
  BlockNum : Nat
  BlockHash : Hash
  SenderPubkey : K
  LeaderPubkey : Option K
  Payload : Bytes
  ViewchangeSig : Option S
  ViewidSig : Option S
  M2AggSig : Option S
  M2Bitmap : Option (Mask K)
  M3AggSig : Option S
  M3Bitmap : Option (Mask K)

/-- The blocks and messages a node keeps during PBFT, Go's `PbftLog`. -/
structure PbftLog (K S : Type) where
  /-- The blocks received. -/
  blocks : List Block
  /-- The messages received. -/
  messages : List (PbftMessage K S)

namespace PbftLog

variable {K S : Type}

/-- An empty log, Go's `NewPbftLog`. -/
def empty : PbftLog K S := ⟨[], []⟩

/-- Add a block, Go's `AddBlock`. -/
def AddBlock (log : PbftLog K S) (block : Block) : PbftLog K S :=
  { log with blocks := log.blocks ++ [block] }

/-- Add a message, Go's `AddMessage`. -/
def AddMessage (log : PbftLog K S) (msg : PbftMessage K S) : PbftLog K S :=
  { log with messages := log.messages ++ [msg] }

/-- A block whose header hashes to `hash`, Go's `GetBlockByHash`. -/
def GetBlockByHash (headerHash : Header → Hash) (log : PbftLog K S) (hash : Hash) :
    Option Block :=
  log.blocks.find? (fun block => headerHash block.header = hash)

/-- Drop blocks below `number`, Go's `DeleteBlocksLessThan`. -/
def DeleteBlocksLessThan (log : PbftLog K S) (number : Nat) : PbftLog K S :=
  { log with blocks := log.blocks.filter (fun block => ¬ block.NumberU64 < number) }

/-- Drop messages below `number`, Go's `DeleteMessagesLessThan`. -/
def DeleteMessagesLessThan (log : PbftLog K S) (number : Nat) : PbftLog K S :=
  { log with messages := log.messages.filter (fun msg => ¬ msg.BlockNum < number) }

/-- Messages of one type at one height, Go's `GetMessagesByTypeSeq`. -/
def GetMessagesByTypeSeq (log : PbftLog K S) (typ : MessageType) (blockNum : Nat) :
    List (PbftMessage K S) :=
  log.messages.filter (fun msg => msg.MessageType = typ ∧ msg.BlockNum = blockNum)

/-- Messages of one type at one height for one block, Go's `GetMessagesByTypeSeqHash`. -/
def GetMessagesByTypeSeqHash (log : PbftLog K S) (typ : MessageType) (blockNum : Nat)
    (blockHash : Hash) : List (PbftMessage K S) :=
  log.messages.filter
    (fun msg => msg.MessageType = typ ∧ msg.BlockNum = blockNum ∧ msg.BlockHash = blockHash)

/-- Messages of one type at one height in one view, Go's `GetMessagesByTypeSeqView`. -/
def GetMessagesByTypeSeqView (log : PbftLog K S) (typ : MessageType) (blockNum : Nat)
    (viewID : UInt32) : List (PbftMessage K S) :=
  log.messages.filter
    (fun msg => msg.MessageType = typ ∧ msg.BlockNum = blockNum ∧ msg.ViewID = viewID)

/-- Messages matching type, height, view and block, Go's `GetMessagesByTypeSeqViewHash`. -/
def GetMessagesByTypeSeqViewHash (log : PbftLog K S) (typ : MessageType) (blockNum : Nat)
    (viewID : UInt32) (blockHash : Hash) : List (PbftMessage K S) :=
  log.messages.filter (fun msg => msg.MessageType = typ ∧ msg.BlockNum = blockNum ∧
    msg.ViewID = viewID ∧ msg.BlockHash = blockHash)

/-- Exactly one announce for this height and block, Go's `HasMatchingAnnounce`. -/
def HasMatchingAnnounce (log : PbftLog K S) (blockNum : Nat) (blockHash : Hash) : Bool :=
  (log.GetMessagesByTypeSeqHash .ANNOUNCE blockNum blockHash).length = 1

/-- Exactly one announce for this height, view and block, Go's `HasMatchingViewAnnounce`. -/
def HasMatchingViewAnnounce (log : PbftLog K S) (blockNum : Nat) (viewID : UInt32)
    (blockHash : Hash) : Bool :=
  (log.GetMessagesByTypeSeqViewHash .ANNOUNCE blockNum viewID blockHash).length = 1

end PbftLog

/--
The message with the largest view, Go's `FindMessageByMaxViewID`.

Ties go to the last such message, since the scan keeps any view `≥` the best so far.
-/
def FindMessageByMaxViewID {K S : Type} (msgs : List (PbftMessage K S)) :
    Option (PbftMessage K S) :=
  msgs.foldl (fun best msg =>
    match best with
    | none => some msg
    | some current => if current.ViewID ≤ msg.ViewID then some msg else best) none

end Harmony
