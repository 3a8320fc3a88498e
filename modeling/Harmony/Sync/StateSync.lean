import Harmony.Core.Validation

/-!
State sync, from `api/service/syncing/syncing.go`: agree with the peers on the hashes to fetch,
download a block per hash, and insert the downloaded blocks from the head by parent hash.

Peers are named by a client type `α`; what a peer answers is a parameter. The chain is any
state `σ` with a head hash and a one-block `InsertChain`. Go runs a goroutine per peer over one
task queue; a schedule of clients says which peer polls the queue next. Go's maps iterate in a
random order; here a map iterates in its list order, and the results hold for every list.
-/

namespace Harmony

open Go

/-- Go's `TimesToFail`: the retry limit of hash agreement and of downloading. -/
def TimesToFail : Nat := 5

/-- A peer to sync from, Go's `SyncPeerConfig`. -/
structure SyncPeerConfig (α : Type) where
  /-- The peer's client. -/
  client : α
  /-- The block hashes the peer last answered. -/
  blockHashes : List Bytes
  /-- Blocks the peer broadcast since sync started. -/
  newBlocks : List Block
  deriving DecidableEq

/-- One block to download: its position in the agreed list and its hash, Go's `SyncBlockTask`. -/
structure SyncBlockTask where
  index : Nat
  blockHash : Bytes
  deriving DecidableEq, Repr

namespace StateSync

variable {α : Type}

/-- Compare equal-length hash lists at their first difference. -/
def compareHashLists : List Bytes → List Bytes → Ordering
  | x :: xs, y :: ys => if x = y then compareHashLists xs ys else bytesCompare x y
  | _, _ => .eq

/-- Order peers by their hash lists, shorter first, Go's `CompareSyncPeerConfigByblockHashes`. -/
def CompareSyncPeerConfigByblockHashes (a b : SyncPeerConfig α) : Ordering :=
  if a.blockHashes.length ≠ b.blockHashes.length then
    if a.blockHashes.length < b.blockHashes.length then .lt else .gt
  else compareHashLists a.blockHashes b.blockHashes

/-- The counters of `getHowManyMaxConsensus`: the current run and the longest run so far. -/
structure RunCount (β : Type) where
  /-- The first element of the current run and its index, `curFirstID`. -/
  curFirst : Option (Nat × β)
  curCount : Nat
  maxFirstID : Int
  maxCount : Nat

/-- One iteration of the longest-run loop over a sorted list. -/
def countRun {β : Type} (compare : β → β → Ordering) (s : RunCount β) (entry : β × Nat) :
    RunCount β :=
  let (x, i) := entry
  let s := match s.curFirst with
    | some (_, first) =>
      if compare first x ≠ .eq then { s with curFirst := some (i, x), curCount := 1 }
      else { s with curCount := s.curCount + 1 }
    | none => { s with curFirst := some (i, x), curCount := 1 }
  if s.curCount > s.maxCount then
    { s with maxCount := s.curCount, maxFirstID := ((s.curFirst.map (·.1)).getD 0 : Nat) }
  else s

/--
The first index and length of the longest run of equal neighbours, the loop Go writes twice, as
`getHowManyMaxConsensus` over peers and `GetHowManyMaxConsensus` over blocks; `-1` when empty.
-/
def howManyMaxConsensus {β : Type} (compare : β → β → Ordering) (xs : List β) : Int × Nat :=
  let s := xs.zipIdx.foldl (countRun compare) ⟨none, 0, -1, 0⟩
  (s.maxFirstID, s.maxCount)

/-- The largest group of peers with one hash list, Go's `getHowManyMaxConsensus`. -/
def getHowManyMaxConsensus (peers : List (SyncPeerConfig α)) : Int × Nat :=
  howManyMaxConsensus CompareSyncPeerConfigByblockHashes peers

/--
The deletion loop of `cleanUpPeers`: a peer that differs from the fixed one is deleted, and the
peer moved into its slot is stepped over unexamined.
-/
def cleanUpLoop (fixedPeer : SyncPeerConfig α) : List (SyncPeerConfig α) → List (SyncPeerConfig α)
  | [] => []
  | peer :: rest =>
    if CompareSyncPeerConfigByblockHashes fixedPeer peer ≠ .eq then
      match rest with
      | [] => []
      | next :: rest => next :: cleanUpLoop fixedPeer rest
    else peer :: cleanUpLoop fixedPeer rest

/-- Keep the peers that agree with the peer at `maxFirstID`, Go's `cleanUpPeers`. -/
def cleanUpPeers (peers : List (SyncPeerConfig α)) (maxFirstID : Int) :
    Outcome (List (SyncPeerConfig α)) :=
  match peers[maxFirstID.toNat]? with
  | some fixedPeer => if maxFirstID < 0 then .error "index out of range"
    else .ok (cleanUpLoop fixedPeer peers)
  | none => .error "index out of range"

/--
Sort the peers and, when the largest group holds at least `ConsensusRatio = 0.66` of them, clean
up around it, Go's `GetBlockHashesConsensusAndCleanUp`: whether it did, and the peers after it.
`50 * maxCount ≥ 33 * len` is the float comparison exactly: `0.66 * n` rounds to `33 * n / 50`
when that is whole, and otherwise lies more than `1/50` from every whole number. `sort.Slice` is
an insertion sort on a few elements, though Go's may leave peers of equal lists in another
order; such peers have the same hashes.
-/
def GetBlockHashesConsensusAndCleanUp (peers : List (SyncPeerConfig α)) :
    Outcome (Bool × List (SyncPeerConfig α)) := do
  let peers := peers.insertionSort fun a b => CompareSyncPeerConfigByblockHashes a b ≠ .gt
  let (maxFirstID, maxCount) := getHowManyMaxConsensus peers
  if 50 * maxCount ≥ 33 * peers.length then
    let peers ← cleanUpPeers peers maxFirstID
    return (true, peers)
  else return (false, peers)

variable (GetBlockHashes : Nat → α → Option (List Bytes))

/--
Ask every peer for the hashes after `startHash` until a large group agrees, Go's
`GetConsensusHashes`: `GetBlockHashes round client` is the peer's answer in a round, and a peer
that does not answer keeps its last list. The retry counter gives `TimesToFail + 2` rounds.
-/
def GetConsensusHashes (peers : List (SyncPeerConfig α)) :
    Nat → Nat → Outcome (Option (List (SyncPeerConfig α)))
  | _, 0 => .ok none
  | round, rounds + 1 => do
    let peers := peers.map fun peer =>
      match GetBlockHashes round peer.client with
      | some hashes => { peer with blockHashes := hashes }
      | none => peer
    match ← GetBlockHashesConsensusAndCleanUp peers with
    | (true, peers) => return some peers
    | (false, peers) => GetConsensusHashes peers (round + 1) rounds

/-- One task per hash of the first peer, Go's `generateStateSyncTaskQueue`. -/
def generateStateSyncTaskQueue (peers : List (SyncPeerConfig α)) : List SyncBlockTask :=
  match peers with
  | peer :: _ => peer.blockHashes.zipIdx.map fun (blockHash, index) => ⟨index, blockHash⟩
  | [] => []

/-- The download state: the task queue, the downloaded blocks by index, and the failures. -/
structure Download where
  /-- Go's `stateSyncTaskQueue`. -/
  queue : List SyncBlockTask
  /-- Go's `commonBlocks`. -/
  commonBlocks : AList (fun _ : Nat => Block)
  /-- The failure counter the download goroutines share. -/
  count : Nat

variable (GetBlocks : α → Bytes → Option Block)

/--
One poll of the queue by `client`'s goroutine in `downloadBlocks`: the peer's answer for the
first task, `none` when the request fails, the payload is empty or it does not decode. A stored
block is kept under the task's index whatever its hash; a failed task goes back to the queue,
unless the failures pass the limit, when the goroutine drops it and stops.
-/
def downloadStep (d : Download) (client : α) : Download :=
  match d.queue with
  | [] => d
  | syncTask :: rest =>
    match GetBlocks client syncTask.blockHash with
    | some blockObj =>
      { d with queue := rest, commonBlocks := d.commonBlocks.insert syncTask.index blockObj }
    | none =>
      if d.count + 1 > TimesToFail then { d with queue := rest, count := d.count + 1 }
      else { d with queue := rest ++ [syncTask], count := d.count + 1 }

/-- `downloadBlocks` under a schedule of polls. -/
def downloadBlocks (d : Download) (schedule : List α) : Download :=
  schedule.foldl (downloadStep GetBlocks) d

section Insert

variable {σ : Type} (HeaderHash : Header → Hash)
variable (InsertChain : σ → Block → Outcome (Except String σ))

/-- A downloaded block whose parent is `parentHash`, Go's `getBlockFromOldBlocksByParentHash`. -/
def getBlockFromOldBlocksByParentHash (commonBlocks : AList (fun _ : Nat => Block))
    (parentHash : Hash) : Option Block :=
  (commonBlocks.entries.find? fun entry => entry.2.ParentHash == parentHash).map (·.2)

/-- A last-mile block on `parentHash`, Go's `getBlockFromLastMileBlocksByParentHash`. -/
def getBlockFromLastMileBlocksByParentHash (lastMileBlocks : List Block) (parentHash : Hash) :
    Option Block :=
  lastMileBlocks.find? fun block => block.ParentHash == parentHash

/-- Order blocks by hash, Go's `CompareBlockByHash`. -/
def CompareBlockByHash (a b : Block) : Ordering :=
  bytesCompare (HeaderHash a.header).bytes (HeaderHash b.header).bytes

/-- The largest group of equal blocks, Go's `GetHowManyMaxConsensus`. -/
def GetHowManyMaxConsensus (blocks : List Block) : Int × Nat :=
  howManyMaxConsensus (CompareBlockByHash HeaderHash) blocks

/--
The block most peers broadcast on `parentHash`, Go's `getMaxConsensusBlockFromParentHash`: each
peer offers its first new block on that parent.
-/
def getMaxConsensusBlockFromParentHash (peers : List (SyncPeerConfig α)) (parentHash : Hash) :
    Option Block :=
  let candidateBlocks := peers.filterMap fun peer =>
    peer.newBlocks.find? fun block => block.ParentHash == parentHash
  let candidateBlocks :=
    candidateBlocks.insertionSort fun a b => CompareBlockByHash HeaderHash a b ≠ .gt
  let (maxFirstID, _) := GetHowManyMaxConsensus HeaderHash candidateBlocks
  candidateBlocks[maxFirstID.toNat]?

/--
Insert, from `parentHash` on, the block `next` finds on each parent, until none is found or an
insertion fails: the loop `generateNewState` runs three times. It runs at most `fuel` rounds,
where Go's loop ends only when no block is found, which only a cycle of parent hashes prevents.
Returns the chain and the blocks inserted, in order.
-/
def insertFrom (next : Hash → Option Block) :
    Nat → σ → Hash → Outcome (σ × List Block)
  | 0, chain, _ => .ok (chain, [])
  | fuel + 1, chain, parentHash => do
    let some block := next parentHash | return (chain, [])
    -- Go's `updateBlockAndStatus`: a refused block ends the loop.
    let .ok chain' ← InsertChain chain block | return (chain, [])
    let (chain'', inserted) ← insertFrom next fuel chain' (HeaderHash block.header)
    return (chain'', block :: inserted)

/-- What `generateNewState` inserted in each of its phases, and the chain after them. -/
structure NewState (σ : Type) where
  chain : σ
  /-- Blocks downloaded before sync started, from `commonBlocks`. -/
  fromCommonBlocks : List Block
  /-- Blocks the peers broadcast during sync. -/
  fromNewBlocks : List Block
  /-- Blocks received at the end of sync. -/
  fromLastMileBlocks : List Block

variable (CurrentHash : σ → Hash)

/-- Build the most recent state from the downloaded blocks, Go's `generateNewState`. -/
def generateNewState (fuel : Nat) (chain : σ) (commonBlocks : AList (fun _ : Nat => Block))
    (peers : List (SyncPeerConfig α)) (lastMileBlocks : List Block) : Outcome (NewState σ) := do
  let (chain, fromCommonBlocks) ← insertFrom HeaderHash InsertChain
    (getBlockFromOldBlocksByParentHash commonBlocks) fuel chain (CurrentHash chain)
  let (chain, fromNewBlocks) ← insertFrom HeaderHash InsertChain
    (getMaxConsensusBlockFromParentHash HeaderHash peers) fuel chain (CurrentHash chain)
  let (chain, fromLastMileBlocks) ← insertFrom HeaderHash InsertChain
    (getBlockFromLastMileBlocksByParentHash lastMileBlocks) fuel chain (CurrentHash chain)
  return ⟨chain, fromCommonBlocks, fromNewBlocks, fromLastMileBlocks⟩

/--
One state sync, Go's `ProcessStateSync`: agree on hashes, download one block per hash under
`schedule`, and insert. `none` when no agreement is reached.
-/
def ProcessStateSync (fuel : Nat) (chain : σ) (peers : List (SyncPeerConfig α))
    (schedule : List α) (lastMileBlocks : List Block) : Outcome (Option (NewState σ)) := do
  let some peers ← GetConsensusHashes GetBlockHashes peers 0 (TimesToFail + 2) | return none
  let queue := generateStateSyncTaskQueue peers
  let d := downloadBlocks GetBlocks ⟨queue, ∅, 0⟩ schedule
  let state ← generateNewState HeaderHash InsertChain CurrentHash fuel chain d.commonBlocks peers
    lastMileBlocks
  return some state

end Insert

end StateSync

end Harmony
