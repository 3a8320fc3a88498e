import Harmony.Consensus.ViewChange
import Harmony.Lib.Transition

/-!
The consensus object as a state machine: the arms of Go's `Start` loop, the node's calls into
consensus, and the runs they make from a freshly built object.

Timers are abstracted: a running timer may expire at any tick, so expiry is a choice of the run.
The one-second grace period between a reached commit quorum and finalization is a pending
round that the run may deliver at any later point. `AddPeers` and `RemovePeers`, the object's
exported committee changes, are inputs too, although this version's node has its call of
`AddPeers` commented out and never calls `RemovePeers`.
-/

namespace Harmony

open Go

namespace Consensus

variable {K S : Type} [AddCommGroup K] [DecidableEq K] [AddCommMonoid S]
variable (P : Primitives K S)

/-- Route a decoded consensus message to its handler, Go's `handleMessageUpdate`. -/
def handleMessageUpdate (c : Consensus K S) (msg : Message) (ready : Nat → Bool) :
    Outcome (Consensus K S × List Effect) :=
  -- A view-changing node keeps logging normal messages but drops the leader's inputs.
  if c.mode.mode = .ViewChanging ∧ (msg.msgType = .PREPARE ∨ msg.msgType = .COMMIT) then
    .ok (c, [])
  else
    match msg.msgType with
    | .ANNOUNCE => c.onAnnounce P msg (fun c viewID => c.startViewChange P viewID)
    | .PREPARE => c.onPrepare P msg
    | .PREPARED => c.onPrepared P msg
    | .COMMIT => c.onCommit P msg
    | .COMMITTED => c.onCommitted P msg ready
    | .VIEWCHANGE => c.onViewChange P msg
    | .NEWVIEW => c.onNewView P msg
    | _ => .ok (c, [])

/--
The ticker arm of `Start` when timer `expired` is found expired: a syncing node stops every
timer; otherwise the view after the current one is proposed.
-/
def checkTimeouts (c : Consensus K S) (expired : TimeoutType) :
    Outcome (Consensus K S × List Effect) :=
  if c.mode.mode = .Syncing then
    .ok ({ c with consensusTimeout := ⟨false, false, false⟩ }, [])
  else if !c.consensusTimeout.running expired then .ok (c, [])
  else
    match expired with
    | .timeoutViewChange => c.startViewChange P (c.mode.viewID + 1)
    | _ => c.startViewChange P (c.viewID + 1)

/-- The state-sync arm of `Start`: a syncing node resumes at the height after its chain head. -/
def onSyncReady (c : Consensus K S) : Consensus K S :=
  if c.mode.mode ≠ .Syncing then c
  else { c.SetBlockNum (c.ChainReader.CurrentHeader.Number + 1) with ignoreViewIDCheck := true }

omit [AddCommGroup K] [DecidableEq K] [AddCommMonoid S] in
@[simp] theorem onSyncReady_round (c : Consensus K S) : c.onSyncReady.round = c.round := by
  unfold onSyncReady
  split_ifs <;> rfl

/-- The oldest pending randomness and the block hash stored after it, Go's `GetNextRnd`. -/
def GetNextRnd (c : Consensus K S) : Except String (FixedBytes 32 × FixedBytes 32) :=
  match c.pendingRnds with
  | [] => .error "No available randomness"
  | vdfOutput :: _ =>
    .ok (FixedBytes.ofBytes 32 vdfOutput, FixedBytes.ofBytes 32 (vdfOutput.drop 32))

/-- The new-block arm of `Start`: the beacon shard seeds the block, then the leader announces. -/
def onNewBlock (c : Consensus K S) (newBlock : Block) : Outcome (Consensus K S × List Effect) :=
  let newBlock :=
    if c.ShardID = 0 then
      match c.GetNextRnd with
      | .ok (rnd, _) => newBlock.AddRandSeed rnd
      | .error _ => newBlock
    else newBlock
  c.tryAnnounce P newBlock

end Consensus

/-- What a running consensus object can be handed, one case per input of the node. -/
inductive Event (K : Type) where
  /-- The ticker finds a timer expired. -/
  | tick (expired : TimeoutType)
  /-- State sync reports that the chain has caught up. -/
  | syncReady
  /-- The node proposes a block on `BlockChannel`. -/
  | newBlock (block : Block)
  /-- A decoded consensus message arrives; `ready` says which heights state sync awaits. -/
  | message (msg : Message) (ready : Nat → Bool)
  /-- A commit grace period ends on `commitFinishChan`. -/
  | commitFinish (round : Nat) (ready : Nat → Bool)
  /-- The node installs a committee, Go's `UpdatePublicKeys` from the shard state. -/
  | updatePublicKeys (pubKeys : List K)
  /-- Newly connected peers join the committee, Go's `AddPeers`. -/
  | addPeers (peers : List K)
  /-- Peers whose connection was lost leave the committee, Go's `RemovePeers`. -/
  | removePeers (peers : List K)
  /-- A VDF output arrives on `RndChannel`, Go's `WaitForNewRandomness`. -/
  | randomness (vdfOutput : Bytes)

/-- A consensus object with the grace periods it has started and not yet delivered. -/
structure Node (K S : Type) where
  /-- The consensus object. -/
  consensus : Consensus K S
  /-- Rounds whose commit grace period is still running. -/
  finishing : List Nat

/-- The messages a list of effects broadcasts. -/
def sentMessages (effects : List Effect) : List Message :=
  effects.filterMap fun
    | .send msg => some msg
    | _ => none

/-- The blocks a list of effects reports decided, Go's `OnConsensusDone` calls. -/
def consensusDoneBlocks (effects : List Effect) : List Block :=
  effects.filterMap fun
    | .consensusDone block => some block
    | _ => none

/-- The rounds a list of effects starts a grace period for. -/
def scheduledRounds (effects : List Effect) : List Nat :=
  effects.filterMap fun
    | .commitFinish round => some round
    | _ => none

namespace Consensus

variable {K S : Type} [AddCommGroup K] [DecidableEq K] [AddCommMonoid S]
variable (P : Primitives K S)

/-- One input handled by the consensus object. -/
def dispatch (c : Consensus K S) : Event K → Outcome (Consensus K S × List Effect)
  | .tick expired => c.checkTimeouts P expired
  | .syncReady => .ok (c.onSyncReady, [])
  | .newBlock block => c.onNewBlock P block
  | .message msg ready => c.handleMessageUpdate P msg ready
  | .commitFinish round ready =>
    -- A grace period of an earlier round finds the round moved on and does nothing.
    if round = c.round then c.finalizeCommits P ready else .ok (c, [])
  | .updatePublicKeys pubKeys => (c.UpdatePublicKeys P pubKeys).map fun c => (c, [])
  | .addPeers peers =>
    let (c, validators, _) := c.AddPeers P c.validators peers
    .ok ({ c with validators }, [])
  | .removePeers peers => (c.RemovePeers P peers).map fun (c, _) => (c, [])
  | .randomness vdfOutput => .ok ({ c with pendingRnds := c.pendingRnds ++ [vdfOutput] }, [])

/--
The object `New` builds for a node with key `PubKey` on `chain`, before the node sets its height
and committee; the leader key is `nil` in Go until `UpdatePublicKeys`, and zero here. The
validator map holds the configured leader peer alone, under its address `leaderAddress`.
-/
def New (PubKey : K) (SelfAddress : Address) (ShardID : Nat) (chain : Chain)
    (leaderAddress : Address) : Consensus K S := {
  round := 0, pbftLog := PbftLog.empty, phase := .Announce
  mode := { mode := .Normal, viewID := 0 }, blockNum := 0
  consensusTimeout := ⟨false, false, false⟩
  prepareSigs := ∅, commitSigs := ∅, aggregatedPrepareSig := none, aggregatedCommitSig := none
  prepareBitmap := none, commitBitmap := none
  bhpSigs := ∅, nilSigs := ∅, viewIDSigs := ∅
  bhpBitmap := none, nilBitmap := none, viewIDBitmap := none
  m1Payload := [], ChainReader := chain, PublicKeys := [], CommitteeAddresses := []
  validators := [leaderAddress]
  PubKey := PubKey, LeaderPubKey := 0, SelfAddress := SelfAddress, viewID := 0
  blockHash := FixedBytes.zero 32, block := [], ShardID := ShardID
  ignoreViewIDCheck := false, disableViewChange := false, pendingRnds := [] }

/--
A node's consensus object when `Start` begins: built by `New` with the configured leader peer
`leader`, set to the height after the chain head, given its committee, set to the view of the chain
height (`main` calls `SetViewID(uint32(height))`), and with the bootstrap timer running.
-/
def Started (PubKey leader : K) (ShardID : Nat) (chain : Chain) (pubKeys : List K)
    (disableViewChange : Bool) : Outcome (Consensus K S) := do
  let c := (New PubKey (P.GetAddress PubKey) ShardID chain (P.GetAddress leader) : Consensus K S)
  let c := { c.SetBlockNum (chain.CurrentHeader.Number + 1) with
    disableViewChange := disableViewChange }
  let c ← c.UpdatePublicKeys P pubKeys
  let c := c.SetViewID chain.CurrentHeader.Number.toUInt32
  return { c with consensusTimeout := c.consensusTimeout.Start .timeoutBootstrap }

omit [AddCommMonoid S] in
/-- Starting only panics on an empty committee, whose first key `UpdatePublicKeys` reads. -/
theorem started_of_ne_nil (PubKey leader : K) (ShardID : Nat) (chain : Chain) {pubKeys : List K}
    (disableViewChange : Bool) (nonempty : pubKeys ≠ []) :
    ∃ c, Started P PubKey leader ShardID chain pubKeys disableViewChange = .ok c := by
  cases pubKeys with
  | nil => exact absurd rfl nonempty
  | cons leaderKey rest => exact ⟨_, rfl⟩

end Consensus

namespace Node

variable {K S : Type} [AddCommGroup K] [DecidableEq K] [AddCommMonoid S]
variable (P : Primitives K S)

/-- Whether an input can arrive now: a grace period ends only after it was started. -/
def Enabled (n : Node K S) : Event K → Prop
  | .commitFinish round _ => round ∈ n.finishing
  | _ => True

instance decidableEnabled (n : Node K S) : (event : Event K) → Decidable (n.Enabled event)
  | .tick _ => isTrue trivial
  | .syncReady => isTrue trivial
  | .newBlock _ => isTrue trivial
  | .message _ _ => isTrue trivial
  | .commitFinish round _ => inferInstanceAs (Decidable (round ∈ n.finishing))
  | .updatePublicKeys _ => isTrue trivial
  | .addPeers _ => isTrue trivial
  | .removePeers _ => isTrue trivial
  | .randomness _ => isTrue trivial

/-- The grace periods left running once an input is taken. -/
def remaining (n : Node K S) : Event K → List Nat
  | .commitFinish round _ => n.finishing.erase round
  | _ => n.finishing

/-- One step of a node that does not panic, with the effects it emits. -/
inductive Step : Node K S → Event K → List Effect → Node K S → Prop
  | handle {n : Node K S} {event : Event K} {c : Consensus K S} {effects : List Effect} :
      n.Enabled event → n.consensus.dispatch P event = .ok (c, effects) →
      Step n event effects ⟨c, n.remaining event ++ scheduledRounds effects⟩

/-- Feed inputs to a node one at a time; `none` when one panics or cannot arrive. -/
def exec (n : Node K S) : List (Event K) → Option (Node K S)
  | [] => some n
  | event :: events =>
    if n.Enabled event then
      match n.consensus.dispatch P event with
      | .ok (c, effects) => exec ⟨c, n.remaining event ++ scheduledRounds effects⟩ events
      | .error _ => none
    else none

/-- The node `Start` begins with, or an unstarted one when the committee is empty. -/
def boot (PubKey leader : K) (ShardID : Nat) (chain : Chain) (pubKeys : List K)
    (disableViewChange : Bool) : Node K S :=
  match Consensus.Started P PubKey leader ShardID chain pubKeys disableViewChange with
  | .ok c => ⟨c, []⟩
  | .error _ =>
    ⟨Consensus.New PubKey (P.GetAddress PubKey) ShardID chain (P.GetAddress leader), []⟩

/-- The nodes `Start` begins with. -/
def Initial (n : Node K S) : Prop :=
  n.finishing = [] ∧ ∃ PubKey leader ShardID chain pubKeys disableViewChange,
    Consensus.Started P PubKey leader ShardID chain pubKeys disableViewChange = .ok n.consensus

/-- The nodes some run from a started node reaches. -/
def Reachable (n : Node K S) : Prop := Transition.Reachable (Step P) (Initial P) n

/-- A freshly started consensus object is the start of a run. -/
theorem reachable_started {PubKey leader : K} {ShardID : Nat} {chain : Chain} {pubKeys : List K}
    {disableViewChange : Bool} {c : Consensus K S}
    (started : Consensus.Started P PubKey leader ShardID chain pubKeys disableViewChange = .ok c) :
    Reachable P ⟨c, []⟩ :=
  .init ⟨rfl, PubKey, leader, ShardID, chain, pubKeys, disableViewChange, started⟩

/-- Executing inputs is a run of the machine over those inputs. -/
theorem exec_run {n n' : Node K S} {events : List (Event K)} (ran : n.exec P events = some n') :
    ∃ trace, Transition.Run (Step P) n trace n' ∧ trace.map Prod.fst = events := by
  induction events generalizing n with
  | nil =>
    cases ran
    exact ⟨[], .nil _, rfl⟩
  | cons event events ih =>
    -- The first input is a step of the machine; the rest is a run from where it leads.
    unfold Node.exec at ran
    split at ran
    · rename_i enabled
      split at ran
      · rename_i c effects dispatched
        obtain ⟨trace, run, inputs⟩ := ih ran
        exact ⟨(event, effects) :: trace, .cons (.handle enabled dispatched) run, by simp [inputs]⟩
      · cases ran
    · cases ran

/-- Every node that executing inputs from a reachable node ends in is reachable. -/
theorem Reachable.exec {n n' : Node K S} {events : List (Event K)} (reached : Reachable P n)
    (ran : n.exec P events = some n') : Reachable P n' := by
  obtain ⟨trace, run, _⟩ := exec_run P ran
  exact run.reachable reached

/-- A node booted with a committee is the start of a run. -/
theorem reachable_boot {PubKey leader : K} {ShardID : Nat} {chain : Chain} {pubKeys : List K}
    {disableViewChange : Bool} (nonempty : pubKeys ≠ []) :
    Reachable P (boot P PubKey leader ShardID chain pubKeys disableViewChange) := by
  obtain ⟨c, started⟩ :=
    Consensus.started_of_ne_nil P PubKey leader ShardID chain disableViewChange nonempty
  unfold boot
  rw [started]
  exact reachable_started P started

/-- Executing inputs that neither panic nor wait, from a reachable node, ends in a reachable one. -/
theorem Reachable.execD {n : Node K S} (reached : Reachable P n) (events : List (Event K))
    (ran : (n.exec P events).isSome) : Reachable P ((n.exec P events).getD n) := by
  obtain ⟨n', executed⟩ := Option.isSome_iff_exists.mp ran
  rw [executed, Option.getD_some]
  exact reached.exec P executed

/--
A step whose evaluation does not panic exists, and what is observed of the evaluation holds of the
state it reaches and the effects it emits.
-/
theorem exists_step {α : Type} (n : Node K S) (event : Event K) (enabled : n.Enabled event)
    (observe : Consensus K S × List Effect → α) (seen : α)
    (observed : (n.consensus.dispatch P event).toOption.map observe = some seen) :
    ∃ effects n', Step P n event effects n' ∧ observe (n'.consensus, effects) = seen := by
  cases ran : n.consensus.dispatch P event with
  | error failure =>
    rw [ran] at observed
    cases observed
  | ok result =>
    rw [ran] at observed
    simp only [Except.toOption, Option.map_some, Option.some.injEq] at observed
    exact ⟨result.2, _, .handle enabled ran, observed⟩

end Node

end Harmony
