import Harmony.Consensus.Machine

/-!
How a node takes a pubsub message apart, from `node/node_handler.go` and `api/proto`: the
receive loops strip the p2p header, `messageHandler` reads the category and type bytes, and the
payload goes to consensus, randomness, staking or the node's own handlers.

RLP decoding of block and transaction lists is a parameter that fails rather than panics.
-/

namespace Harmony

open Go

/-- The role a node plays, Go's `nodeconfig.Role`. -/
inductive Role where
  | Unknown
  | ShardLeader
  | ShardValidator
  | BeaconLeader
  | BeaconValidator
  | NewNode
  | ClientNode
  | WalletNode
  deriving DecidableEq, Repr

/-- Where a message ends up once the node has read it. -/
inductive Handled where
  /-- Handed to consensus on `MsgChan`. -/
  | consensus (payload : Bytes)
  /-- Handed to the randomness protocol. -/
  | drand (payload : Bytes)
  /-- Handed to the beacon leader's staking handler. -/
  | staking (payload : Bytes)
  /-- Transactions added to the pending pool. -/
  | transactions (txs : List Transaction)
  /-- A request for pending transactions by hash. -/
  | transactionRequest
  /-- Synced blocks, passed to the beacon block channel when the role subscribes to it. -/
  | blocks (blocks : List Block) (toBeaconChannel : Bool)
  /-- A ping, pong or shard-state message, passed to its handler. -/
  | peering (msgType : UInt8) (payload : Bytes)
  /-- Logged and dropped. -/
  | dropped
  deriving DecidableEq

namespace NodeHandler

/-- The category byte, Go's `GetMessageCategory`. -/
def GetMessageCategory (message : Bytes) : Except String UInt8 :=
  match message with
  | category :: _ => .ok category
  | [] => .error "failed to get message category: no data available"

/-- The type byte, Go's `GetMessageType`. -/
def GetMessageType (message : Bytes) : Except String UInt8 :=
  match message with
  | _ :: msgType :: _ => .ok msgType
  | _ => .error "failed to get message type: no data available"

/-- What follows the category and type bytes, Go's `GetMessagePayload`. -/
def GetMessagePayload (message : Bytes) : Except String Bytes :=
  if message.length < 2 then .error "failed to get message payload: no data available"
  else .ok (message.drop 2)

/-- What follows the category byte, Go's `GetConsensusMessagePayload` and its siblings. -/
def GetCategoryPayload (message : Bytes) : Except String Bytes :=
  if message.length < 1 then .error "failed to get message payload: no data available"
  else .ok (message.drop 1)

variable (DecodeBlocks : Bytes → Option (List Block))
variable (DecodeTransactions : Bytes → Option (List Transaction))

/-- A Node/Transaction message, Go's `transactionMessageHandler`. -/
def transactionMessageHandler (msgPayload : Bytes) : Outcome Handled := do
  let some txMessageType := msgPayload.head? | throw "index out of range"
  match txMessageType with
  -- A list that fails to decode is logged, and the empty list is added.
  | 0 => return .transactions ((DecodeTransactions (msgPayload.drop 1)).getD [])
  | 1 => return .transactionRequest
  | _ => return .dropped

/-- A Node/Block message: only the sync subtype is read. -/
def blockMessageHandler (role : Role) (msgPayload : Bytes) : Outcome Handled := do
  let some blockMsgType := msgPayload.head? | throw "index out of range"
  if blockMsgType ≠ 0 then return .dropped
  let some blocks := DecodeBlocks (msgPayload.drop 1) | return .dropped
  let subscribed := role = .ShardValidator ∨ role = .ShardLeader ∨ role = .NewNode
  -- The subscribed branch logs the first block's number before forwarding the list.
  if subscribed ∧ blocks = [] then throw "index out of range"
  return .blocks blocks subscribed

/-- Read a message's category and type and hand its payload on, Go's `messageHandler`. -/
def messageHandler (role : Role) (content : Bytes) : Outcome Handled := do
  let .ok msgCategory := GetMessageCategory content | return .dropped
  let .ok msgType := GetMessageType content | return .dropped
  let .ok msgPayload := GetMessagePayload content | return .dropped
  match msgCategory with
  | 0 => return .consensus (content.drop 1)
  | 3 => return .drand (content.drop 1)
  | 4 => if role ≠ .BeaconLeader then return .dropped else return .staking (content.drop 1)
  | 1 =>
    match msgType with
    | 0 => transactionMessageHandler DecodeTransactions msgPayload
    | 1 => blockMessageHandler DecodeBlocks role msgPayload
    | 4 | 5 | 6 => return .peering msgType msgPayload
    | _ => return .dropped
  | _ => return .dropped

/-- One pass of a receive loop: skip the p2p type byte and size, then handle the rest. -/
def Receive (role : Role) (msg : Bytes) : Outcome Handled := do
  let some content := sliceFrom? msg 5 | throw "slice bounds out of range"
  messageHandler DecodeBlocks DecodeTransactions role content

end NodeHandler

namespace Consensus

variable {K S : Type} [AddCommGroup K] [DecidableEq K] [AddCommMonoid S]
variable (P : Primitives K S)

/--
A consensus payload taken from `MsgChan`, the start of Go's `handleMessageUpdate`: an empty or
undecodable payload is dropped, and a decoded message is routed.
-/
def handlePayload (Unmarshal : Bytes → Option Message) (c : Consensus K S) (payload : Bytes)
    (ready : Nat → Bool) : Outcome (Consensus K S × List Effect) :=
  if payload.length = 0 then .ok (c, [])
  else
    match Unmarshal payload with
    | none => .ok (c, [])
    | some msg => c.handleMessageUpdate P msg ready

end Consensus

end Harmony
