import Harmony.Sync.StateSync
import Harmony.Proofs.Core.Validation

/-!
What state sync guarantees about the blocks it inserts. The insertion loops insert a chain linked
from the head, each block one the finder returned. When every peer that is polled answers with
the block of the hash it was asked for, each downloaded block carries the agreed hash of its task,
and so does each block of the first phase. Nothing in the code checks that answer: one lying peer
gets its block inserted. Peer cleanup steps over the peer after each one it deletes.
-/

namespace Harmony

open Go

namespace Ledger

/-- The child of genesis with a prepare bitmap naming signers it never had. -/
def relabelled : Block := ⟨{ child.header with PrepareBitmap := [0x0f] }, []⟩

/-- Two sync peers that have not answered yet. -/
def syncPeers : List (SyncPeerConfig Nat) := [⟨0, [], []⟩, ⟨1, [], []⟩]

/-- A peer that holds the child of genesis only and answers with it for its hash. -/
def honestBlocks (_ : Nat) (hash : Bytes) : Option Block :=
  if hash = (headerHash child.header).bytes then some child else none

end Ledger

namespace StateSync

variable {α : Type}

/-! ## Peer agreement -/

/-- Hash lists of one length compare equal only when they are equal. -/
theorem compareHashLists_eq_iff {xs ys : List Bytes} (lengths : xs.length = ys.length) :
    compareHashLists xs ys = .eq ↔ xs = ys := by
  induction xs generalizing ys with
  | nil => cases ys <;> simp_all [compareHashLists]
  | cons x xs ih =>
    cases ys with
    | nil => simp at lengths
    | cons y ys =>
      have rest : xs.length = ys.length := by simpa using lengths
      by_cases same : x = y
      · simp [compareHashLists, same, ih rest]
      · simp [compareHashLists, same]

/-- Two peers compare equal exactly when they answered the same hash list. -/
@[simp] theorem CompareSyncPeerConfigByblockHashes_eq_iff {a b : SyncPeerConfig α} :
    CompareSyncPeerConfigByblockHashes a b = .eq ↔ a.blockHashes = b.blockHashes := by
  unfold CompareSyncPeerConfigByblockHashes
  by_cases lengths : a.blockHashes.length = b.blockHashes.length
  · simp [lengths, compareHashLists_eq_iff lengths]
  · have differ : a.blockHashes ≠ b.blockHashes := fun same => lengths (by rw [same])
    split_ifs <;> simp [differ]

/-- Cleanup keeps a sublist of the peers. -/
theorem cleanUpLoop_sublist (fixedPeer : SyncPeerConfig α) (peers : List (SyncPeerConfig α)) :
    (cleanUpLoop fixedPeer peers).Sublist peers := by
  fun_induction cleanUpLoop fixedPeer peers with
  | case1 => exact .slnil
  | case2 peer differs => exact .cons _ .slnil
  | case3 peer differs next rest ih => exact .cons _ (.cons_cons _ ih)
  | case4 peer rest agrees ih => exact .cons_cons _ ih

/-- Cleanup keeps every peer that agrees with the fixed one. -/
theorem mem_cleanUpLoop_of_agrees {fixedPeer peer : SyncPeerConfig α}
    {peers : List (SyncPeerConfig α)} (member : peer ∈ peers)
    (agrees : peer.blockHashes = fixedPeer.blockHashes) :
    peer ∈ cleanUpLoop fixedPeer peers := by
  fun_induction cleanUpLoop fixedPeer peers with
  | case1 => simp at member
  | case2 first differs =>
    -- The only peer differs, so it is not the agreeing one.
    simp only [List.mem_singleton] at member
    subst member
    simp [agrees] at differs
  | case3 first differs next rest ih =>
    rcases List.mem_cons.mp member with rfl | member
    · simp [agrees] at differs
    · rcases List.mem_cons.mp member with rfl | member
      · exact List.mem_cons_self
      · exact List.mem_cons_of_mem _ (ih member)
  | case4 first rest agrees' ih =>
    rcases List.mem_cons.mp member with rfl | member
    · exact List.mem_cons_self
    · exact List.mem_cons_of_mem _ (ih member)

/-- Six peers sorted by their lists: one that never answered, one with a list of its own, and four
that agree. -/
def sortedPeers : List (SyncPeerConfig Nat) :=
  [⟨0, [], []⟩, ⟨1, [[1]], []⟩, ⟨2, [[2], [3]], []⟩, ⟨3, [[2], [3]], []⟩, ⟨4, [[2], [3]], []⟩,
    ⟨5, [[2], [3]], []⟩]

/--
What `cleanUpPeers` does keep: when it finds the peer at `maxFirstID`, the peers it returns are a
sublist of those it was given, and among them is every peer that agrees with that one.
-/
theorem cleanUpPeers_keeps_agreeing {peers kept : List (SyncPeerConfig α)} {maxFirstID : Int}
    (cleaned : cleanUpPeers peers maxFirstID = .ok kept) :
    ∃ fixedPeer, peers[maxFirstID.toNat]? = some fixedPeer ∧ kept.Sublist peers ∧
      ∀ peer ∈ peers, peer.blockHashes = fixedPeer.blockHashes → peer ∈ kept := by
  unfold cleanUpPeers at cleaned
  split at cleaned
  case h_1 fixedPeer found =>
    split_ifs at cleaned
    cases cleaned
    exact ⟨fixedPeer, found, cleanUpLoop_sublist fixedPeer peers,
      fun _ member agrees => mem_cleanUpLoop_of_agrees member agrees⟩
  case h_2 => cases cleaned

set_option maxRecDepth 10000 in
/-- Cleaned around the third of six sorted peers, the four that agree with it are all kept. -/
theorem cleanUpPeers_keeps_agreeing_group :
    cleanUpPeers sortedPeers 2 = .ok sortedPeers.tail ∧
      ∃ fixedPeer, sortedPeers[(2 : Int).toNat]? = some fixedPeer ∧
        sortedPeers.tail.Sublist sortedPeers ∧
        ∀ peer ∈ sortedPeers, peer.blockHashes = fixedPeer.blockHashes → peer ∈ sortedPeers.tail := by
  have cleaned : cleanUpPeers sortedPeers 2 = .ok sortedPeers.tail := by decide
  exact ⟨cleaned, cleanUpPeers_keeps_agreeing cleaned⟩

/--
The lists the deletion loop of `cleanUpPeers` starts an iteration on: the whole list; after an
iteration that keeps its peer, the rest; and after one that deletes its peer, the rest past the
peer moved into the freed slot, which the loop steps over.
-/
inductive CleanUpVisits (fixedPeer : SyncPeerConfig α) (peers : List (SyncPeerConfig α)) :
    List (SyncPeerConfig α) → Prop
  | start : CleanUpVisits fixedPeer peers peers
  | keep {peer : SyncPeerConfig α} {rest : List (SyncPeerConfig α)} :
    CleanUpVisits fixedPeer peers (peer :: rest) → peer.blockHashes = fixedPeer.blockHashes →
      CleanUpVisits fixedPeer peers rest
  | delete {peer next : SyncPeerConfig α} {rest : List (SyncPeerConfig α)} :
    CleanUpVisits fixedPeer peers (peer :: next :: rest) →
      peer.blockHashes ≠ fixedPeer.blockHashes → CleanUpVisits fixedPeer peers rest

/-- An iteration the loop reaches from a list it reaches is one it reaches from the start. -/
theorem CleanUpVisits.trans {fixedPeer : SyncPeerConfig α} {peers middle later : List (SyncPeerConfig α)}
    (first : CleanUpVisits fixedPeer peers middle) (second : CleanUpVisits fixedPeer middle later) :
    CleanUpVisits fixedPeer peers later := by
  induction second with
  | start => exact first
  | keep _ agrees ih => exact .keep ih agrees
  | delete _ differs ih => exact .delete ih differs

/-- Every list the loop starts an iteration on is a suffix of the peers. -/
theorem CleanUpVisits.suffix {fixedPeer : SyncPeerConfig α} {peers later : List (SyncPeerConfig α)}
    (visits : CleanUpVisits fixedPeer peers later) : later <:+ peers := by
  induction visits with
  | start => exact List.suffix_refl _
  | keep _ _ ih => exact (List.suffix_cons _ _).trans ih
  | delete _ _ ih => exact ((List.suffix_cons _ _).trans (List.suffix_cons _ _)).trans ih

set_option maxRecDepth 10000 in
/-- Of four sorted peers, the one with a list of its own is kept after the silent one. -/
theorem cleanUpLoop_keeps_lone :
    (⟨1, [[1]], []⟩ : SyncPeerConfig Nat) ∈ cleanUpLoop ⟨2, [[2], [3]], []⟩
      [⟨0, [], []⟩, ⟨1, [[1]], []⟩, ⟨2, [[2], [3]], []⟩, ⟨3, [[2], [3]], []⟩] := by
  decide

/--
A peer that survives cleanup while disagreeing with the fixed one is the peer the loop stepped
over: the loop started an iteration on a disagreeing peer right before it in the list, deleted
that peer, copied the survivor into the result unexamined, and went on past it.
-/
theorem cleanUpLoop_survivor_follows_deleted {fixedPeer peer : SyncPeerConfig α}
    {peers : List (SyncPeerConfig α)} (kept : peer ∈ cleanUpLoop fixedPeer peers)
    (differs : peer.blockHashes ≠ fixedPeer.blockHashes) :
    ∃ deleted rest done, CleanUpVisits fixedPeer peers (deleted :: peer :: rest) ∧
      deleted.blockHashes ≠ fixedPeer.blockHashes ∧ deleted :: peer :: rest <:+ peers ∧
      cleanUpLoop fixedPeer peers = done ++ peer :: cleanUpLoop fixedPeer rest := by
  fun_induction cleanUpLoop fixedPeer peers with
  | case1 => simp at kept
  | case2 first differs' => simp at kept
  | case3 first differs' next rest ih =>
    have deletes : first.blockHashes ≠ fixedPeer.blockHashes := fun same => differs' (by simp [same])
    -- The iteration on the whole list deletes `first` and steps over `next`.
    have past : CleanUpVisits fixedPeer (first :: next :: rest) rest := .delete .start deletes
    rcases List.mem_cons.mp kept with rfl | kept
    · exact ⟨first, rest, [], .start, deletes, List.suffix_refl _, rfl⟩
    · obtain ⟨deleted, rest', done, visits, disagrees, -, output⟩ := ih kept
      have visits' := past.trans visits
      exact ⟨deleted, rest', next :: done, visits', disagrees, visits'.suffix,
        by rw [output]; rfl⟩
  | case4 first rest agrees ih =>
    have keeps : first.blockHashes = fixedPeer.blockHashes :=
      (CompareSyncPeerConfigByblockHashes_eq_iff.mp (not_not.mp agrees)).symm
    rcases List.mem_cons.mp kept with rfl | kept
    · exact absurd keeps differs
    · obtain ⟨deleted, rest', done, visits, disagrees, -, output⟩ := ih kept
      have visits' := (CleanUpVisits.keep .start keeps).trans visits
      exact ⟨deleted, rest', first :: done, visits', disagrees, visits'.suffix,
        by rw [output]; rfl⟩

/-- The lone peer of those four survives as the peer stepped over after the silent one. -/
theorem cleanUpLoop_survivor_follows_deleted_lone :
    (⟨1, [[1]], []⟩ : SyncPeerConfig Nat) ∈ cleanUpLoop ⟨2, [[2], [3]], []⟩
        [⟨0, [], []⟩, ⟨1, [[1]], []⟩, ⟨2, [[2], [3]], []⟩, ⟨3, [[2], [3]], []⟩] ∧
      [[1]] ≠ ([[2], [3]] : List Bytes) ∧
      ∃ deleted rest done, CleanUpVisits ⟨2, [[2], [3]], []⟩
          [⟨0, [], []⟩, ⟨1, [[1]], []⟩, ⟨2, [[2], [3]], []⟩, ⟨3, [[2], [3]], []⟩]
          (deleted :: ⟨1, [[1]], []⟩ :: rest) ∧
        deleted.blockHashes ≠ [[2], [3]] ∧
        deleted :: ⟨1, [[1]], []⟩ :: rest <:+
          [⟨0, [], []⟩, ⟨1, [[1]], []⟩, ⟨2, [[2], [3]], []⟩, ⟨3, [[2], [3]], []⟩] ∧
        cleanUpLoop ⟨2, [[2], [3]], []⟩
            [⟨0, [], []⟩, ⟨1, [[1]], []⟩, ⟨2, [[2], [3]], []⟩, ⟨3, [[2], [3]], []⟩] =
          done ++ ⟨1, [[1]], []⟩ :: cleanUpLoop ⟨2, [[2], [3]], []⟩ rest := by
  have differs : [[1]] ≠ ([[2], [3]] : List Bytes) := by decide
  exact ⟨cleanUpLoop_keeps_lone, differs,
    cleanUpLoop_survivor_follows_deleted cleanUpLoop_keeps_lone differs⟩

set_option maxRecDepth 10000 in
/--
Of six peers sorted by their lists, one that never answered, one with a list of its own, and four
that agree, the second survives cleanup: the large group is reached, and the tasks are made from
the lone peer's list.
-/
theorem minority_peer_survives_cleanup :
    GetBlockHashesConsensusAndCleanUp
        ([⟨0, [], []⟩, ⟨1, [[1]], []⟩, ⟨2, [[2], [3]], []⟩, ⟨3, [[2], [3]], []⟩,
          ⟨4, [[2], [3]], []⟩, ⟨5, [[2], [3]], []⟩] : List (SyncPeerConfig Nat)) =
      .ok (true, [⟨1, [[1]], []⟩, ⟨2, [[2], [3]], []⟩, ⟨3, [[2], [3]], []⟩, ⟨4, [[2], [3]], []⟩,
        ⟨5, [[2], [3]], []⟩]) := by
  decide

/--
`GetBlockHashesConsensusAndCleanUp` goes wrong in two ways. With no peers it panics:
the empty list has no group, so `maxFirstID` is `-1`, the ratio check `0 >= 0.66 * 0` passes, and
`cleanUpPeers` reads `sc.peers[-1]`. With peers sorted so that a silent peer and a peer with a list
of its own stand side by side before a group of four, it reports agreement and keeps the second
of them, whose hashes are not the group's.
-/
theorem GetBlockHashesConsensusAndCleanUp_breaks_cleanup :
    GetBlockHashesConsensusAndCleanUp ([] : List (SyncPeerConfig α)) = .error "index out of range" ∧
      GetBlockHashesConsensusAndCleanUp
        ([⟨0, [], []⟩, ⟨1, [[1]], []⟩, ⟨2, [[2], [3]], []⟩, ⟨3, [[2], [3]], []⟩,
          ⟨4, [[2], [3]], []⟩, ⟨5, [[2], [3]], []⟩] : List (SyncPeerConfig Nat)) =
        .ok (true, [⟨1, [[1]], []⟩, ⟨2, [[2], [3]], []⟩, ⟨3, [[2], [3]], []⟩,
          ⟨4, [[2], [3]], []⟩, ⟨5, [[2], [3]], []⟩]) ∧
      [[1]] ≠ ([[2], [3]] : List Bytes) :=
  ⟨rfl, minority_peer_survives_cleanup, by decide⟩

/-! ## Downloading -/

variable (HeaderHash : Header → Hash) (GetBlocks : α → Bytes → Option Block)

/-- A peer answers with the block of the hash it was asked for, or not at all. -/
def Honest (client : α) : Prop :=
  ∀ hash block, GetBlocks client hash = some block → (HeaderHash block.header).bytes = hash

/-- Every queued task names the agreed hash at its index. -/
def QueueAgrees (hashes : List Bytes) (queue : List SyncBlockTask) : Prop :=
  ∀ syncTask ∈ queue, hashes[syncTask.index]? = some syncTask.blockHash

/-- Every downloaded block carries the agreed hash at the index it was stored under. -/
def StoredAgrees (hashes : List Bytes) (commonBlocks : AList (fun _ : Nat => Block)) : Prop :=
  ∀ index block, commonBlocks.lookup index = some block →
    hashes[index]? = some (HeaderHash block.header).bytes

/-- The download invariant: queue and stored blocks both agree with the hash list. -/
def Agrees (hashes : List Bytes) (d : Download) : Prop :=
  QueueAgrees hashes d.queue ∧ StoredAgrees HeaderHash hashes d.commonBlocks

/-- The tasks of the first peer's list name that list's hashes. -/
theorem generateStateSyncTaskQueue_agrees (peer : SyncPeerConfig α)
    (peers : List (SyncPeerConfig α)) :
    QueueAgrees peer.blockHashes (generateStateSyncTaskQueue (peer :: peers)) := by
  intro syncTask queued
  simp only [generateStateSyncTaskQueue, List.mem_map] at queued
  obtain ⟨⟨blockHash, index⟩, entry, rfl⟩ := queued
  exact List.mem_zipIdx_iff_getElem?.mp entry

/-- One poll by an honest peer keeps the download invariant. -/
theorem downloadStep_agrees {hashes : List Bytes} {d : Download} {client : α}
    (honest : Honest HeaderHash GetBlocks client) (agrees : Agrees HeaderHash hashes d) :
    Agrees HeaderHash hashes (downloadStep GetBlocks d client) := by
  obtain ⟨queued, stored⟩ := agrees
  cases queue : d.queue with
  | nil =>
    simp only [downloadStep, queue]
    exact ⟨queued, stored⟩
  | cons syncTask rest =>
    rw [queue] at queued
    have first := queued syncTask List.mem_cons_self
    have others : QueueAgrees hashes rest :=
      fun t member => queued t (List.mem_cons_of_mem _ member)
    cases answer : GetBlocks client syncTask.blockHash with
    | some blockObj =>
      -- The stored block is the one the task asked for, by honesty.
      simp only [downloadStep, queue, answer]
      refine ⟨others, fun index block found => ?_⟩
      by_cases same : index = syncTask.index
      · subst same
        simp only [AList.lookup_insert, Option.some.injEq] at found
        subst found
        rw [honest _ _ answer]
        exact first
      · rw [AList.lookup_insert_ne same] at found
        exact stored index block found
    | none =>
      -- A failed task is dropped or requeued; the stored blocks stay.
      simp only [downloadStep, queue, answer]
      split_ifs
      · exact ⟨others, stored⟩
      · refine ⟨fun t member => ?_, stored⟩
        rcases List.mem_append.mp member with member | member
        · exact others t member
        · rw [List.mem_singleton.mp member]
          exact first

/-- A download in which every polling peer is honest keeps the invariant. -/
theorem downloadBlocks_agrees {hashes : List Bytes} {schedule : List α}
    (honest : ∀ client ∈ schedule, Honest HeaderHash GetBlocks client) {d : Download}
    (agrees : Agrees HeaderHash hashes d) :
    Agrees HeaderHash hashes (downloadBlocks GetBlocks d schedule) := by
  induction schedule generalizing d with
  | nil => exact agrees
  | cons client schedule ih =>
    exact ih (fun c member => honest c (List.mem_cons_of_mem _ member))
      (downloadStep_agrees HeaderHash GetBlocks (honest client List.mem_cons_self) agrees)

/-! ## Inserting -/

section Insert

variable {σ : Type} (InsertChain : σ → Block → Outcome (Except String σ))

/-- The blocks a finder returns along a chain of parent hashes from `parentHash`. -/
def Followed (next : Hash → Option Block) : Hash → List Block → Prop
  | _, [] => True
  | parentHash, block :: rest => next parentHash = some block ∧
    Followed next (HeaderHash block.header) rest

/--
One round of an insertion loop either stops with nothing inserted, or inserts the block the
finder returns on `parentHash` and goes on from that block's hash.
-/
theorem insertFrom_succ_ok {next : Hash → Option Block} {fuel : Nat} {chain chain' : σ}
    {parentHash : Hash} {inserted : List Block}
    (ran : insertFrom HeaderHash InsertChain next (fuel + 1) chain parentHash =
      .ok (chain', inserted)) :
    inserted = [] ∨ ∃ block chain'' rest, next parentHash = some block ∧
      InsertChain chain block = .ok (.ok chain'') ∧
      insertFrom HeaderHash InsertChain next fuel chain'' (HeaderHash block.header) =
        .ok (chain', rest) ∧ inserted = block :: rest := by
  simp only [insertFrom] at ran
  cases found : next parentHash with
  | none =>
    simp only [found, pure, Except.pure, Except.ok.injEq, Prod.mk.injEq] at ran
    exact .inl ran.2.symm
  | some block =>
    cases insert : InsertChain chain block with
    | error err => simp [found, insert, bind, Except.bind] at ran
    | ok result =>
      cases result with
      | error err =>
        -- A refused block ends the loop.
        simp only [found, insert, bind, Except.bind, pure, Except.pure, Except.ok.injEq,
          Prod.mk.injEq] at ran
        exact .inl ran.2.symm
      | ok chain'' =>
        cases rest : insertFrom HeaderHash InsertChain next fuel chain''
            (HeaderHash block.header) with
        | error err => simp [found, insert, rest, bind, Except.bind] at ran
        | ok final =>
          obtain ⟨final, following⟩ := final
          simp only [found, insert, rest, bind, Except.bind, pure, Except.pure,
            Except.ok.injEq, Prod.mk.injEq] at ran
          obtain ⟨rfl, rfl⟩ := ran
          exact .inr ⟨block, chain'', following, rfl, insert, rest, rfl⟩

/-- Each round of an insertion loop inserts the block the finder returns on the last hash. -/
theorem insertFrom_followed {next : Hash → Option Block} {fuel : Nat} {chain chain' : σ}
    {parentHash : Hash} {inserted : List Block}
    (ran : insertFrom HeaderHash InsertChain next fuel chain parentHash = .ok (chain', inserted)) :
    Followed HeaderHash next parentHash inserted := by
  -- The induction is on the fuel; each round is `insertFrom_succ_ok`.
  induction fuel generalizing chain parentHash inserted with
  | zero =>
    simp only [insertFrom, Except.ok.injEq, Prod.mk.injEq] at ran
    rw [← ran.2]
    trivial
  | succ fuel ih =>
    rcases insertFrom_succ_ok HeaderHash InsertChain ran with
      rfl | ⟨block, chain'', rest, found, -, following, rfl⟩
    · trivial
    · exact ⟨found, ih following⟩

/-- A downloaded block found by parent hash has that parent and is stored under some index. -/
theorem getBlockFromOldBlocksByParentHash_spec {commonBlocks : AList (fun _ : Nat => Block)}
    {parentHash : Hash} {block : Block}
    (found : getBlockFromOldBlocksByParentHash commonBlocks parentHash = some block) :
    block.ParentHash = parentHash ∧ ∃ index, commonBlocks.lookup index = some block := by
  unfold getBlockFromOldBlocksByParentHash at found
  cases entry : commonBlocks.entries.find? (fun entry => entry.2.ParentHash == parentHash) with
  | none => simp [entry] at found
  | some e =>
    simp only [entry, Option.map_some, Option.some.injEq] at found
    subst found
    have parent := List.find?_some entry
    simp only [beq_iff_eq] at parent
    exact ⟨parent, e.1, AList.mem_lookup_iff.mpr (List.mem_of_find?_eq_some entry)⟩

/--
The first phase inserts blocks linked from the head by parent hash, each a downloaded block with
the agreed hash of its index, when every stored block agrees with the hash list.
-/
theorem fromCommonBlocks_agree {hashes : List Bytes} {commonBlocks : AList (fun _ : Nat => Block)}
    (stored : StoredAgrees HeaderHash hashes commonBlocks) {fuel : Nat} {chain chain' : σ}
    {parentHash : Hash} {inserted : List Block}
    (ran : insertFrom HeaderHash InsertChain (getBlockFromOldBlocksByParentHash commonBlocks)
      fuel chain parentHash = .ok (chain', inserted)) :
    ∀ block ∈ inserted, ∃ index : Nat, hashes[index]? = some (HeaderHash block.header).bytes := by
  have followed := insertFrom_followed HeaderHash InsertChain ran
  -- Walk the followed chain; each of its blocks was found among the downloaded ones.
  clear ran
  induction inserted generalizing parentHash with
  | nil => simp
  | cons block rest ih =>
    obtain ⟨found, followed⟩ := followed
    obtain ⟨-, index, lookedUp⟩ := getBlockFromOldBlocksByParentHash_spec found
    intro b member
    rcases List.mem_cons.mp member with rfl | member
    · exact ⟨index, stored index b lookedUp⟩
    · exact ih followed b member

variable (CurrentHash : σ → Hash)

/-- The first phase of `generateNewState` is the insertion loop over the downloaded blocks. -/
theorem generateNewState_fromCommonBlocks {fuel : Nat} {chain : σ}
    {commonBlocks : AList (fun _ : Nat => Block)} {peers : List (SyncPeerConfig α)}
    {lastMileBlocks : List Block} {ns : NewState σ}
    (generated : generateNewState HeaderHash InsertChain CurrentHash fuel chain commonBlocks peers
      lastMileBlocks = .ok ns) :
    ∃ chain', insertFrom HeaderHash InsertChain (getBlockFromOldBlocksByParentHash commonBlocks)
      fuel chain (CurrentHash chain) = .ok (chain', ns.fromCommonBlocks) := by
  unfold generateNewState at generated
  cases first : insertFrom HeaderHash InsertChain (getBlockFromOldBlocksByParentHash commonBlocks)
      fuel chain (CurrentHash chain) with
  | error err => simp [first, bind, Except.bind] at generated
  | ok result =>
    obtain ⟨chain', fromCommonBlocks⟩ := result
    refine ⟨chain', ?_⟩
    -- The later phases do not touch the first phase's list.
    simp only [first, bind, Except.bind] at generated
    split at generated
    · simp at generated
    · split at generated
      · simp at generated
      · simp only [pure, Except.pure, Except.ok.injEq] at generated
        rw [← generated]

end Insert

/-- The peer holding only the child of genesis answers with the block of the hash asked for. -/
theorem honestBlocks_honest (client : Nat) :
    Honest Ledger.headerHash Ledger.honestBlocks client := by
  intro hash block answered
  unfold Ledger.honestBlocks at answered
  split at answered
  next asked =>
    cases answered
    exact asked.symm
  next => cases answered

set_option maxRecDepth 10000 in
/-- Both peers answer with the child's hash, and the two agree. -/
theorem honest_agreed :
    (GetConsensusHashes (fun _ _ => some [(Ledger.headerHash Ledger.child.header).bytes])
      Ledger.syncPeers 0 (TimesToFail + 2)).map Option.isSome = .ok true := by
  decide

set_option maxRecDepth 10000 in
/-- With peer one answering honestly, the first phase goes through. -/
theorem honest_synced :
    (ProcessStateSync (fun _ _ => some [(Ledger.headerHash Ledger.child.header).bytes])
      Ledger.honestBlocks Ledger.headerHash (fun bc block => bc.InsertChain block)
      (fun bc => bc.HeaderHash bc.CurrentBlock.header) 1 Ledger.chain Ledger.syncPeers [1]
      []).map Option.isSome = .ok true := by
  decide

set_option maxRecDepth 10000 in
/-- The honest first phase inserts the child. -/
theorem honest_inserted :
    (ProcessStateSync (fun _ _ => some [(Ledger.headerHash Ledger.child.header).bytes])
      Ledger.honestBlocks Ledger.headerHash (fun bc block => bc.InsertChain block)
      (fun bc => bc.HeaderHash bc.CurrentBlock.header) 1 Ledger.chain Ledger.syncPeers [1]
      []).map (Option.map NewState.fromCommonBlocks) = .ok (some [Ledger.child]) := by
  decide

section Process

variable (GetBlockHashes : Nat → α → Option (List Bytes))
variable {σ : Type} (InsertChain : σ → Block → Outcome (Except String σ))
variable (CurrentHash : σ → Hash)

/--
When every peer that polls the queue answers with the block of the hash it was asked for, each
block the first phase inserts is the block of one of the tasks made from the agreed hashes.
-/
theorem ProcessStateSync_fromCommonBlocks_agreed {fuel : Nat} {chain : σ}
    {peers agreedPeers : List (SyncPeerConfig α)} {schedule : List α}
    {lastMileBlocks : List Block} {ns : NewState σ}
    (honest : ∀ client ∈ schedule, Honest HeaderHash GetBlocks client)
    (agreed : GetConsensusHashes GetBlockHashes peers 0 (TimesToFail + 2) = .ok (some agreedPeers))
    (synced : ProcessStateSync GetBlockHashes GetBlocks HeaderHash InsertChain CurrentHash fuel
      chain peers schedule lastMileBlocks = .ok (some ns)) :
    ∀ block ∈ ns.fromCommonBlocks, ∃ syncTask ∈ generateStateSyncTaskQueue agreedPeers,
      syncTask.blockHash = (HeaderHash block.header).bytes := by
  simp only [ProcessStateSync, agreed, bind, Except.bind] at synced
  let d := downloadBlocks GetBlocks ⟨generateStateSyncTaskQueue agreedPeers, ∅, 0⟩ schedule
  cases generated : generateNewState HeaderHash InsertChain CurrentHash fuel chain d.commonBlocks
      agreedPeers lastMileBlocks with
  | error err => simp [d, generated] at synced
  | ok ns' =>
    simp only [d, generated, pure, Except.pure, Except.ok.injEq, Option.some.injEq] at synced
    subst synced
    obtain ⟨chain', firstPhase⟩ := generateNewState_fromCommonBlocks HeaderHash InsertChain
      CurrentHash generated
    -- The tasks come from the first agreed peer's list; with no agreed peer nothing is queued.
    cases agreedPeers with
    | nil =>
      have start : Agrees HeaderHash []
          ⟨generateStateSyncTaskQueue ([] : List (SyncPeerConfig α)), ∅, 0⟩ :=
        ⟨fun t queued => by simp [generateStateSyncTaskQueue] at queued,
          fun index block found => by simp at found⟩
      have stored := (downloadBlocks_agrees HeaderHash GetBlocks honest start).2
      intro block member
      obtain ⟨index, listed⟩ := fromCommonBlocks_agree HeaderHash InsertChain stored firstPhase
        block member
      simp at listed
    | cons first others =>
      have start : Agrees HeaderHash first.blockHashes
          ⟨generateStateSyncTaskQueue (first :: others), ∅, 0⟩ :=
        ⟨generateStateSyncTaskQueue_agrees first others, fun index block found => by simp at found⟩
      have stored := (downloadBlocks_agrees HeaderHash GetBlocks honest start).2
      intro block member
      obtain ⟨index, listed⟩ := fromCommonBlocks_agree HeaderHash InsertChain stored firstPhase
        block member
      refine ⟨⟨index, (HeaderHash block.header).bytes⟩, ?_, rfl⟩
      simp only [generateStateSyncTaskQueue, List.mem_map]
      exact ⟨((HeaderHash block.header).bytes, index), List.mem_zipIdx_iff_getElem?.mpr listed, rfl⟩

end Process

/--
Both peers agree on the hash of the child of genesis and peer one answers honestly: the first
phase inserts the child, and its hash is the one of the agreed task.
-/
theorem ProcessStateSync_fromCommonBlocks_agreed_honest :
    ∃ agreedPeers ns,
      (∀ client ∈ [1], Honest Ledger.headerHash Ledger.honestBlocks client) ∧
      GetConsensusHashes (fun _ _ => some [(Ledger.headerHash Ledger.child.header).bytes])
          Ledger.syncPeers 0 (TimesToFail + 2) = .ok (some agreedPeers) ∧
      ProcessStateSync (fun _ _ => some [(Ledger.headerHash Ledger.child.header).bytes])
          Ledger.honestBlocks Ledger.headerHash (fun bc block => bc.InsertChain block)
          (fun bc => bc.HeaderHash bc.CurrentBlock.header) 1 Ledger.chain Ledger.syncPeers [1]
          [] = .ok (some ns) ∧
      ns.fromCommonBlocks = [Ledger.child] ∧
      ∀ block ∈ ns.fromCommonBlocks, ∃ syncTask ∈ generateStateSyncTaskQueue agreedPeers,
        syncTask.blockHash = (Ledger.headerHash block.header).bytes := by
  have honest : ∀ client ∈ [1], Honest Ledger.headerHash Ledger.honestBlocks client :=
    fun client _ => honestBlocks_honest client
  obtain ⟨agreedPeers, agreed⟩ := Outcome.exists_eq_ok_some honest_agreed
  obtain ⟨ns, synced⟩ := Outcome.exists_eq_ok_some honest_synced
  -- The first phase inserts the one downloaded block.
  have inserted := honest_inserted
  rw [synced] at inserted
  simp only [Except.map, Option.map_some, Except.ok.injEq, Option.some.injEq] at inserted
  exact ⟨agreedPeers, ns, honest, agreed, synced, inserted,
    ProcessStateSync_fromCommonBlocks_agreed _ _ _ _ _ honest agreed synced⟩

set_option maxRecDepth 10000 in
/--
Both peers agree on the hash of the child of genesis; peer one, polled for it, answers with the
relabelled block, and the first phase inserts that block, whose hash is not the agreed one.
-/
theorem lying_peer_block_inserted :
    (ProcessStateSync (fun _ _ => some [(Ledger.headerHash Ledger.child.header).bytes])
        (fun client _ => if client = 1 then some Ledger.relabelled else some Ledger.child)
        Ledger.headerHash (fun bc block => bc.InsertChain block)
        (fun bc => bc.HeaderHash bc.CurrentBlock.header) 1 Ledger.chain Ledger.syncPeers [1]
        []).map (Option.map NewState.fromCommonBlocks) = .ok (some [Ledger.relabelled]) ∧
      (Ledger.headerHash Ledger.relabelled.header).bytes ≠
        (Ledger.headerHash Ledger.child.header).bytes := by
  -- The sync is evaluated; the relabelled block differs from the child in its prepare bitmap.
  constructor <;> decide

end StateSync

end Harmony
