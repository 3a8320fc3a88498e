import Harmony.Consensus.Pbft

/-!
The state of the v2 consensus object and the primitives it calls but does not define.

BLS, protobuf, RLP and the node's callbacks are the fields of `Primitives`; the consensus
handlers are functions of a `Consensus` state that return the next state and what they emit.
-/

namespace Harmony

open Go

/-- The three consensus timers, Go's `TimeoutType`. -/
inductive TimeoutType where
  | timeoutConsensus
  | timeoutViewChange
  | timeoutBootstrap
  deriving DecidableEq, Repr

/-- Which timers are running; a running timer may expire at any moment of a run. -/
structure Timeouts where
  consensus : Bool
  viewChange : Bool
  bootstrap : Bool
  deriving DecidableEq, Repr

namespace Timeouts

/-- Whether a timer is running. -/
def running (t : Timeouts) : TimeoutType → Bool
  | .timeoutConsensus => t.consensus
  | .timeoutViewChange => t.viewChange
  | .timeoutBootstrap => t.bootstrap

/-- Set whether a timer runs. -/
def set (t : Timeouts) (k : TimeoutType) (on : Bool) : Timeouts :=
  match k with
  | .timeoutConsensus => { t with consensus := on }
  | .timeoutViewChange => { t with viewChange := on }
  | .timeoutBootstrap => { t with bootstrap := on }

/-- Start a timer, Go's `Timeout.Start`. -/
def Start (t : Timeouts) (k : TimeoutType) : Timeouts := t.set k true

/-- Stop a timer, Go's `Timeout.Stop`. -/
def Stop (t : Timeouts) (k : TimeoutType) : Timeouts := t.set k false

end Timeouts

/-- The chain a consensus object reads through its `ChainReader`: genesis first. -/
structure Chain where
  /-- The inserted headers, oldest first. -/
  headers : List Header
  /-- A chain always holds its genesis header. -/
  nonempty : headers ≠ []

/-- The head of the chain, Go's `CurrentHeader`. -/
def Chain.CurrentHeader (chain : Chain) : Header := chain.headers.getLast chain.nonempty

/-- The header with a given hash and number, Go's `GetHeader`. -/
def Chain.GetHeader (headerHash : Header → Hash) (chain : Chain) (hash : Hash) (number : Nat) :
    Option Header :=
  chain.headers.find? (fun header => headerHash header = hash ∧ header.Number = number)

/--
Code the consensus package calls but does not define.

BLS signing and verification, key and signature encodings, the Keccak hash of a marshaled
protobuf message, RLP for blocks, and the node callbacks `BlockVerifier` and `OnConsensusDone`.
A node's secret key is abstracted: `SignHash k m` is the signature the owner of `k` makes on `m`.
-/
structure Primitives (K S : Type) where
  VerifyHash : S → K → Bytes → Bool
  SignHash : K → Bytes → S
  SerializeSign : S → Bytes
  DeserializeSign : Bytes → Option S
  SerializeKey : K → Bytes
  DeserializeKey : Bytes → Option K
  GetAddress : K → Address
  MessageHash : Message → Bytes
  HeaderHash : Header → Hash
  EncodeBlock : Block → Bytes
  DecodeBlock : Bytes → Option Block
  BlockVerifier : Chain → Block → Bool
  OnConsensusDone : Chain → Block → Chain

/-- What a handler does besides changing the state. -/
inductive Effect where
  /-- Broadcast a consensus message to the shard group. -/
  | send (msg : Message)
  /-- Hand a finished block to the node, Go's `OnConsensusDone`. -/
  | consensusDone (block : Block)
  /-- Offer a block to state sync on `VerifiedNewBlock`. -/
  | verifiedNewBlock (block : Block)
  /-- Signal the node to propose the next block, Go's `ReadySignal`. -/
  | readySignal
  /-- Schedule finalization of a round after the commit grace period, Go's `commitFinishChan`. -/
  | commitFinish (round : Nat)
  /-- Ask state sync to start, Go's `ViewIDLowChan`. -/
  | viewIDLow
  deriving DecidableEq

/-- A Go runtime panic, with the operation that raised it. -/
abbrev GoPanic := String

/-- A computation that either finishes or panics. -/
abbrev Outcome := Except GoPanic

/-- An outcome known to finish with a value finishes with some value. -/
theorem Outcome.exists_eq_ok_some {β : Type} {x : Outcome (Option β)}
    (produced : x.map Option.isSome = .ok true) : ∃ b, x = .ok (some b) := by
  cases x with
  | error e => simp [Except.map] at produced
  | ok result =>
    cases result with
    | none => simp [Except.map] at produced
    | some b => exact ⟨b, rfl⟩

/-- An outcome whose image finishes finished itself, with a value of that image. -/
theorem Outcome.exists_eq_ok_of_map {α β : Type} {x : Outcome α} {f : α → β} {b : β}
    (mapped : x.map f = .ok b) : ∃ a, x = .ok a ∧ f a = b := by
  cases x with
  | error e => simp [Except.map] at mapped
  | ok a => exact ⟨a, rfl, by simpa [Except.map] using mapped⟩

/-- A Go map from addresses to signatures. -/
abbrev SigMap (S : Type) := AList (fun _ : Address => S)

/-- The consensus object of `consensus.go`, with the fields the v2 handlers use. -/
structure Consensus (K S : Type) where
  round : Nat
  pbftLog : PbftLog K S
  phase : PbftPhase
  mode : PbftMode
  blockNum : Nat
  consensusTimeout : Timeouts
  prepareSigs : SigMap S
  commitSigs : SigMap S
  aggregatedPrepareSig : Option S
  aggregatedCommitSig : Option S
  prepareBitmap : Option (Mask K)
  commitBitmap : Option (Mask K)
  bhpSigs : SigMap S
  nilSigs : SigMap S
  viewIDSigs : SigMap S
  bhpBitmap : Option (Mask K)
  nilBitmap : Option (Mask K)
  viewIDBitmap : Option (Mask K)
  m1Payload : Bytes
  ChainReader : Chain
  PublicKeys : List K
  CommitteeAddresses : List Address
  validators : List Address
  PubKey : K
  LeaderPubKey : K
  SelfAddress : Address
  viewID : UInt32
  blockHash : Hash
  block : Bytes
  ShardID : Nat
  ignoreViewIDCheck : Bool
  disableViewChange : Bool
  pendingRnds : List Bytes

/-- The payload an m2 view change signs when the node holds no prepared block, Go's `NIL`. -/
def NIL : Bytes := [0x01]

end Harmony
