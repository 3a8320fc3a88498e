import Harmony.Proofs.Consensus.Certificates

/-!
Views and leaders across view changes: which view a node holds, whom it names as leader, what
the prospective leader collects toward a new view, and what it finalizes once it leads.
-/

namespace Harmony

open Go

namespace Committee

/-- A view change from `key` toward `leader`, signed as `constructViewChangeMessage` signs it. -/
def viewChangeMessage (key leader : Int) (viewID : UInt32) (blockNum : Nat) (payload : Bytes) :
    Message :=
  let msgToSign := if payload = [] then NIL else payload
  signedBy key {
    serviceType := .CONSENSUS, msgType := .VIEWCHANGE, Signature := []
    request := .viewchange {
      ViewId := viewID, BlockNum := blockNum, SenderPubkey := scheme.SerializeKey key
      LeaderPubkey := scheme.SerializeKey leader, Payload := payload
      ViewchangeSig := scheme.SerializeSign (scheme.SignHash key msgToSign)
      ViewidSig := scheme.SerializeSign (scheme.SignHash key (putUint32LE viewID))
      M2Aggsigs := [], M2Bitmap := [], M3Aggsigs := [], M3Bitmap := [] } }

/-- A new view from `key` with an m3 aggregate of `signers` on `viewID` and no m1 or m2 part. -/
def newViewMessage (key : Int) (viewID : UInt32) (blockNum : Nat) (signers : List Int)
    (m3Bitmap : Bytes) : Message :=
  signedBy key {
    serviceType := .CONSENSUS, msgType := .NEWVIEW, Signature := []
    request := .viewchange {
      ViewId := viewID, BlockNum := blockNum, SenderPubkey := scheme.SerializeKey key
      LeaderPubkey := [], Payload := [], ViewchangeSig := [], ViewidSig := []
      M2Aggsigs := [], M2Bitmap := []
      M3Aggsigs := certificate signers (putUint32LE viewID) [], M3Bitmap := m3Bitmap } }

/-- Where a member's inputs lead, or the member itself when one of them panics. -/
def after (start : Node Int Int) (events : List (Event Int)) : Node Int Int :=
  (start.exec scheme events).getD start

/-- Inputs that run without panicking from a reachable node lead to a reachable node. -/
theorem after_reachable {start : Node Int Int} (reached : Node.Reachable scheme start)
    (events : List (Event Int)) (ran : (start.exec scheme events).isSome) :
    Node.Reachable scheme (after start events) :=
  reached.execD scheme events ran

/-- A member is reachable from the start. -/
theorem member_reachable (key : Int) : Node.Reachable scheme (member key) :=
  Node.reachable_boot scheme (by decide)

/-- Inputs that run without panicking are a run of the machine over them to where they lead. -/
theorem after_run (start : Node Int Int) (events : List (Event Int))
    (ran : (start.exec scheme events).isSome) :
    ∃ trace, Transition.Run (Node.Step scheme) start trace (after start events) ∧
      trace.map Prod.fst = events := by
  obtain ⟨n, executed⟩ := Option.isSome_iff_exists.mp ran
  obtain ⟨trace, run, inputs⟩ := Node.exec_run scheme executed
  refine ⟨trace, ?_, inputs⟩
  rw [after, executed, Option.getD_some]
  exact run

/-- The prospective leader of view one after a first view-change message for view one. -/
def collecting : Node Int Int :=
  after (member 10) [.message (viewChangeMessage 100 10 1 1 []) noReader]

/-- A member whose bootstrap timer expired, proposing view one. -/
def timedOut (key : Int) : Node Int Int := after (member key) [.tick .timeoutBootstrap]

/--
A member whose bootstrap timer expired and which then received, from the leader it proposed,
announces of two different blocks for height one in view zero.
-/
def conflicted (key : Int) : Node Int Int :=
  after (member key)
    [.tick .timeoutBootstrap, .message (announce 10 1) noReader, .message (announce 10 2) noReader]

/-- The m1 payload of a member holding the quorum-prepared certificate of proposal one. -/
def preparedViewPayload : Bytes := (proposalHash 1).bytes ++ preparedPayload

/-- The prospective leader of view one after an m1 view change carrying that certificate. -/
def collectingPrepared : Node Int Int :=
  after (member 10) [.message (viewChangeMessage 100 10 1 1 preparedViewPayload) noReader]

/--
The prospective leader of view one after an m1 view change carrying that certificate and an m2
view change that completes the quorum.
-/
def stalledLeader : Node Int Int :=
  after (member 10)
    [.message (viewChangeMessage 100 10 1 1 preparedViewPayload) noReader,
      .message (viewChangeMessage 1000 10 1 1 []) noReader]

/-- A member that took key ten's new view for view one without having changed views itself. -/
def adoptedNewView : Node Int Int :=
  after (member 100) [.message (newViewMessage 10 1 1 [10] [2]) noReader]

/-- The announce of proposal one that key ten sends as the leader of view one. -/
def announceViewOne : Message :=
  consensusMessage 10 .ANNOUNCE 1 1 (proposalHash 1) (scheme.EncodeBlock (proposal 1))

/-- The prepared certificate of keys 1, 10 and 1000 on proposal two, bits 0, 1 and 3 set. -/
def preparedPayloadTwo : Bytes := certificate [1, 10, 1000] (proposalHash 2).bytes [11]

/-- The m1 payload of a member holding the prepared certificate of proposal two. -/
def preparedViewPayloadTwo : Bytes := (proposalHash 2).bytes ++ preparedPayloadTwo

/-- A commit from `key` on proposal two in view two: its signature on the prepared certificate. -/
def commitViewTwo (key : Int) : Message :=
  consensusMessage key .COMMIT 2 1 (proposalHash 2)
    (scheme.SerializeSign (scheme.SignHash key preparedPayloadTwo))

/--
What member 100 receives when proposal two is prepared in view zero without it: leader 1's
announce of proposal two, its bootstrap timeout, key ten's new view for view one (an m3 quorum,
no m1 payload) and key ten's announce of proposal one in view one, its consensus timeout, then
the view changes of keys 1 and 1000 toward it for view two, carrying proposal two's certificate,
and their commits on proposal two.
-/
def viewTwoInputs : List (Event Int) := [
  .message (announce 1 2) noReader,
  .tick .timeoutBootstrap,
  .message (newViewMessage 10 1 1 [1, 10, 1000] [11]) noReader,
  .message announceViewOne noReader,
  .tick .timeoutConsensus,
  .message (viewChangeMessage 1 100 2 1 preparedViewPayloadTwo) noReader,
  .message (viewChangeMessage 1000 100 2 1 preparedViewPayloadTwo) noReader,
  .message (commitViewTwo 1) noReader,
  .message (commitViewTwo 1000) noReader]

/-- Member 100 as the leader of view two, with a commit quorum on proposal two. -/
def viewTwoLeader : Node Int Int := after (member 100) viewTwoInputs

end Committee

namespace Consensus

open Committee

/-- The type of a sent message with the view and m3 aggregate of a new-view body. -/
def newViewM3 (msg : Message) : MessageType × Option (UInt32 × Bytes) :=
  (msg.msgType, msg.GetViewchange.map fun body => (body.ViewId, body.M3Aggsigs))

/-- Signatures of keys 10 and 100 on view one and of key 1000 on view two, added. -/
def mixedM3 : Int :=
  scheme.SignHash 10 (putUint32LE 1) + scheme.SignHash 100 (putUint32LE 1) +
    scheme.SignHash 1000 (putUint32LE 2)


set_option maxRecDepth 10000 in
/-- The prospective leader of view one takes key 100's view change for view one. -/
theorem collecting_ran :
    ((member 10).exec scheme [.message (viewChangeMessage 100 10 1 1 []) noReader]).isSome := by
  decide

set_option maxRecDepth 10000 in
/--
Key 1000's view change for view two completes the quorum, and the new view broadcast carries the
mixed aggregate.
-/
theorem collecting_mixes :
    (collecting.consensus.dispatch scheme (.message (viewChangeMessage 1000 10 2 1 []) noReader)
      ).toOption.map (fun result => (sentMessages result.2).map newViewM3) =
      some [(.NEWVIEW, some (2, scheme.SerializeSign mixedM3))] := by
  decide

set_option maxRecDepth 10000 in
/--
The prospective leader of view one counts a view-change message for view two: the new view it
broadcasts for view two carries an m3 aggregate of its own and one member's signatures on view
one with a third member's on view two, which no validator verifies.
-/
theorem viewchange_mixes_views :
    ∃ effects n',
      Node.Reachable scheme collecting ∧
      Node.Step scheme collecting
        (.message (viewChangeMessage 1000 10 2 1 []) noReader) effects n' ∧
      (sentMessages effects).map newViewM3 = [(.NEWVIEW, some (2, scheme.SerializeSign mixedM3))] ∧
      scheme.VerifyHash mixedM3 (10 + 100 + 1000) (putUint32LE 2) = false := by
  -- The first message starts the collection for view one; the second completes the quorum.
  obtain ⟨effects, n', step, sent⟩ :=
    Node.exists_step scheme collecting (.message (viewChangeMessage 1000 10 2 1 []) noReader)
      trivial (fun result => (sentMessages result.2).map newViewM3)
      [(.NEWVIEW, some (2, scheme.SerializeSign mixedM3))] collecting_mixes
  exact ⟨effects, n', after_reachable (member_reachable 10) _ collecting_ran, step,
    sent, by decide⟩

set_option maxRecDepth 10000 in
/-- Member 100 times out and takes two announces from key ten for height one in view zero. -/
theorem conflicted_ran :
    ((member 100).exec scheme [.tick .timeoutBootstrap, .message (announce 10 1) noReader,
      .message (announce 10 2) noReader]).isSome := by
  decide

set_option maxRecDepth 10000 in
/-- Member 1000 times out. -/
theorem timedOut_ran : ((member 1000).exec scheme [.tick .timeoutBootstrap]).isSome := by
  decide

set_option maxRecDepth 10000 in
/-- The views, modes and leaders of the two members before and after their runs. -/
theorem rotations_named :
    (member 100).consensus.viewID = 0 ∧ (member 1000).consensus.viewID = 0 ∧
      (member 100).consensus.LeaderPubKey = 1 ∧ (member 1000).consensus.LeaderPubKey = 1 ∧
      (conflicted 100).consensus.mode = ⟨.ViewChanging, 1⟩ ∧
      (timedOut 1000).consensus.mode = ⟨.ViewChanging, 1⟩ ∧
      (conflicted 100).consensus.PublicKeys = keys ∧ (timedOut 1000).consensus.PublicKeys = keys ∧
      keys[(0 + (1 - 0)) % keys.length]? = some 10 ∧
      (timedOut 1000).consensus.LeaderPubKey = 10 ∧
      (conflicted 100).consensus.LeaderPubKey = 100 := by
  decide

/--
Two members start from the same view and leader and both propose view one, yet name different
leaders for it: one only timed out, the other also saw its proposed leader announce two blocks
for an older view, and rotated once more for the same view.
-/
theorem conflicting_announce_rotates_twice :
    ∃ trace₁ trace₂,
      Transition.Run (Node.Step scheme) (member 100) trace₁ (conflicted 100) ∧
      Transition.Run (Node.Step scheme) (member 1000) trace₂ (timedOut 1000) ∧
      Node.Reachable scheme (member 100) ∧ Node.Reachable scheme (member 1000) ∧
      (member 100).consensus.viewID = 0 ∧ (member 1000).consensus.viewID = 0 ∧
      (member 100).consensus.LeaderPubKey = 1 ∧ (member 1000).consensus.LeaderPubKey = 1 ∧
      (conflicted 100).consensus.mode = ⟨.ViewChanging, 1⟩ ∧
      (timedOut 1000).consensus.mode = ⟨.ViewChanging, 1⟩ ∧
      (conflicted 100).consensus.PublicKeys = keys ∧ (timedOut 1000).consensus.PublicKeys = keys ∧
      keys[(0 + (1 - 0)) % keys.length]? = some 10 ∧
      (timedOut 1000).consensus.LeaderPubKey = 10 ∧
      (conflicted 100).consensus.LeaderPubKey = 100 := by
  -- Both members begin at the leader of view zero; each run is evaluated input by input.
  obtain ⟨trace₁, run₁, -⟩ := after_run (member 100)
    [.tick .timeoutBootstrap, .message (announce 10 1) noReader, .message (announce 10 2) noReader]
    conflicted_ran
  obtain ⟨trace₂, run₂, -⟩ := after_run (member 1000) [.tick .timeoutBootstrap] timedOut_ran
  obtain ⟨view₁, view₂, leader₁, leader₂, mode₁, mode₂, keys₁, keys₂, next, named₂, named₁⟩ :=
    rotations_named
  exact ⟨trace₁, trace₂, run₁, run₂, member_reachable 100, member_reachable 1000, view₁, view₂,
    leader₁, leader₂, mode₁, mode₂, keys₁, keys₂, next, named₂, named₁⟩

set_option maxRecDepth 10000 in
/-- Member 100 takes the quorum-prepared certificate and a committed one on proposal one. -/
theorem finalized_hundred_ran :
    ((announced 100).exec scheme
      [.message quorumPrepared noReader, .message (committed [1, 10, 100] [7]) noReader]).isSome := by
  decide

set_option maxRecDepth 10000 in
/-- It then holds view one, with the view check on. -/
theorem finalized_hundred_holds :
    (finalized 100 [1, 10, 100] [7]).consensus.ignoreViewIDCheck = false ∧
      (finalized 100 [1, 10, 100] [7]).consensus.viewID = 1 := by
  decide

set_option maxRecDepth 10000 in
/-- Key 1000's new view for view seven at height two leaves it at view zero. -/
theorem finalized_hundred_lowers :
    ((finalized 100 [1, 10, 100] [7]).consensus.dispatch scheme
      (.message (newViewMessage 1000 7 2 [1000] [8]) noReader)).toOption.map
        (fun result => result.1.viewID) = some 0 := by
  decide

/--
A validator that committed height one in view zero, and so holds view one, adopts a new view and
drops to view zero: the view it takes is its own view-change view, which it never raised.
-/
theorem new_view_lowers_view :
    ∃ effects n', Node.Reachable scheme (finalized 100 [1, 10, 100] [7]) ∧
      (finalized 100 [1, 10, 100] [7]).consensus.ignoreViewIDCheck = false ∧
      (finalized 100 [1, 10, 100] [7]).consensus.viewID = 1 ∧
      Node.Step scheme (finalized 100 [1, 10, 100] [7])
        (.message (newViewMessage 1000 7 2 [1000] [8]) noReader) effects n' ∧
      n'.consensus.viewID = 0 := by
  -- The new view names height two, the validator's next height, and its m3 aggregate verifies.
  obtain ⟨effects, n', step, lowered⟩ :=
    Node.exists_step scheme (finalized 100 [1, 10, 100] [7])
      (.message (newViewMessage 1000 7 2 [1000] [8]) noReader) trivial
      (fun result => result.1.viewID) 0 finalized_hundred_lowers
  obtain ⟨checking, holding⟩ := finalized_hundred_holds
  exact ⟨effects, n', finalized_reachable 100 _ _ (announced_ran 100 (.inr rfl))
    finalized_hundred_ran, checking, holding, step, lowered⟩

set_option maxRecDepth 10000 in
/-- The prospective leader of view one takes the m1 and then the m2 view change. -/
theorem stalled_ran :
    ((member 10).exec scheme
      [.message (viewChangeMessage 100 10 1 1 preparedViewPayload) noReader,
        .message (viewChangeMessage 1000 10 1 1 []) noReader]).isSome := by
  decide

set_option maxRecDepth 10000 in
/-- It then leads in the commit phase, with no commit signature and its own bit set. -/
theorem stalled_holds :
    stalledLeader.consensus.PubKey = stalledLeader.consensus.LeaderPubKey ∧
      stalledLeader.consensus.phase = .Commit ∧ stalledLeader.consensus.commitSigs.keys = [] ∧
      stalledLeader.consensus.commitBitmap.map (fun mask => mask.GetPubKeyFromMask true) =
        some [10] := by
  decide

/--
A view change completed by an m2 message after an m1 one leaves the new leader in the commit
phase with no commit signature while its commit bitmap enables its own key: the aggregate is read
from the m2 message's empty payload, and the handler returns before signing.
-/
theorem view_change_commit_sigs_mismatch :
    Node.Reachable scheme stalledLeader ∧
      stalledLeader.consensus.PubKey = stalledLeader.consensus.LeaderPubKey ∧
      stalledLeader.consensus.phase = .Commit ∧
      stalledLeader.consensus.commitSigs.keys = [] ∧
      stalledLeader.consensus.commitBitmap.map (fun mask => mask.GetPubKeyFromMask true) =
        some [10] := by
  -- Both view-change messages run without panicking, the second completing the quorum of three.
  exact ⟨after_reachable (member_reachable 10) _ stalled_ran,
    stalled_holds⟩

set_option maxRecDepth 10000 in
/-- The prospective leader of view one takes the m1 view change alone. -/
theorem collectingPrepared_ran :
    ((member 10).exec scheme
      [.message (viewChangeMessage 100 10 1 1 preparedViewPayload) noReader]).isSome := by
  decide

set_option maxRecDepth 10000 in
/-- What the m2 view change that completes the quorum leaves, field by field. -/
theorem collectingPrepared_quorum :
    (collectingPrepared.consensus.dispatch scheme
      (.message (viewChangeMessage 1000 10 1 1 []) noReader)).toOption.map
        (fun result => (result.1.mode.mode, result.1.phase, result.1.viewID,
          result.1.aggregatedPrepareSig,
          decide (result.1.viewIDSigs.entries.length ≥ result.1.Quorum ∧
            result.1.LeaderPubKey = result.1.PubKey ∧ sentMessages result.2 = [] ∧
            result.1.m1Payload ≠ []))) =
      some ((.Normal, .Commit, 0, none, true) : Mode × PbftPhase × UInt32 × Option Int × Bool) := by
  decide

/--
The m2 view change that completes the quorum of view-change signatures leaves the new leader in
normal mode and the commit phase, yet it sends no new view, keeps view zero for view one, keeps
its view-change state and holds no prepared aggregate: the aggregate is read from the completing
message's empty payload, and the handler returns when that read fails.
-/
theorem quorum_view_change_without_new_view :
    ∃ effects n', Node.Reachable scheme collectingPrepared ∧
      Node.Step scheme collectingPrepared (.message (viewChangeMessage 1000 10 1 1 []) noReader)
        effects n' ∧
      n'.consensus.viewIDSigs.entries.length ≥ n'.consensus.Quorum ∧
      n'.consensus.mode.mode = .Normal ∧ n'.consensus.LeaderPubKey = n'.consensus.PubKey ∧
      n'.consensus.phase = .Commit ∧ sentMessages effects = [] ∧ n'.consensus.viewID = 0 ∧
      n'.consensus.m1Payload ≠ [] ∧ n'.consensus.aggregatedPrepareSig = none := by
  -- One evaluation of the step records every field the statement reads.
  obtain ⟨effects, n', step, observed⟩ :=
    Node.exists_step scheme collectingPrepared (.message (viewChangeMessage 1000 10 1 1 []) noReader)
      trivial
      (fun result => (result.1.mode.mode, result.1.phase, result.1.viewID,
        result.1.aggregatedPrepareSig,
        decide (result.1.viewIDSigs.entries.length ≥ result.1.Quorum ∧
          result.1.LeaderPubKey = result.1.PubKey ∧ sentMessages result.2 = [] ∧
          result.1.m1Payload ≠ [])))
      ((.Normal, .Commit, 0, none, true) : Mode × PbftPhase × UInt32 × Option Int × Bool)
      collectingPrepared_quorum
  simp only [Prod.mk.injEq, decide_eq_true_eq] at observed
  obtain ⟨normal, commit, view, undecoded, quorum, leader, silent, payload⟩ := observed
  exact ⟨effects, n', after_reachable (member_reachable 10) _ collectingPrepared_ran, step,
    quorum, normal, leader, commit, silent, view, payload, undecoded⟩

set_option maxRecDepth 10000 in
/-- Member 100 takes key ten's new view for view one. -/
theorem adopted_ran :
    ((member 100).exec scheme [.message (newViewMessage 10 1 1 [10] [2]) noReader]).isSome := by
  decide

set_option maxRecDepth 10000 in
/-- It names key ten its leader, at view zero. -/
theorem adopted_holds :
    adoptedNewView.consensus.LeaderPubKey = 10 ∧ adoptedNewView.consensus.viewID = 0 := by
  decide

set_option maxRecDepth 10000 in
/-- Key ten's announce for view one sends it to syncing, silent. -/
theorem adopted_syncs :
    (adoptedNewView.consensus.dispatch scheme (.message announceViewOne noReader)).toOption.map
        (fun result => (result.1.mode.mode, decide (sentMessages result.2 = []))) =
      some ((.Syncing, true) : Mode × Bool) := by
  decide

set_option maxRecDepth 10000 in
/--
A member in normal mode accepts key ten's new view for view one, whose m3 aggregate verifies,
and names key ten its leader, but takes view zero, its own view-change view; key ten's announce
for view one then fails the view check, and the member drops to syncing without preparing.
-/
theorem new_view_announce_fails_view_check :
    ∃ trace effects n',
      Transition.Run (Node.Step scheme) (member 100) trace adoptedNewView ∧
      trace.map Prod.fst = [.message (newViewMessage 10 1 1 [10] [2]) noReader] ∧
      Node.Reachable scheme (member 100) ∧ (member 100).consensus.mode.mode = .Normal ∧
      adoptedNewView.consensus.LeaderPubKey = 10 ∧ adoptedNewView.consensus.viewID = 0 ∧
      Node.Step scheme adoptedNewView (.message announceViewOne noReader) effects n' ∧
      n'.consensus.mode.mode = .Syncing ∧ sentMessages effects = [] := by
  -- The new view is taken in one step; the announce is then evaluated from where it leads.
  obtain ⟨trace, run, inputs⟩ := after_run (member 100)
    [.message (newViewMessage 10 1 1 [10] [2]) noReader] adopted_ran
  obtain ⟨effects, n', step, observed⟩ :=
    Node.exists_step scheme adoptedNewView (.message announceViewOne noReader) trivial
      (fun result => (result.1.mode.mode, decide (sentMessages result.2 = [])))
      ((.Syncing, true) : Mode × Bool) adopted_syncs
  simp only [Prod.mk.injEq, decide_eq_true_eq] at observed
  obtain ⟨syncing, silent⟩ := observed
  obtain ⟨leader, view⟩ := adopted_holds
  exact ⟨trace, effects, n', run, inputs, member_reachable 100, by decide, leader, view,
    step, syncing, silent⟩

set_option maxRecDepth 10000 in
/-- Member 100 runs the inputs that make it the leader of view two. -/
theorem viewTwo_ran : ((member 100).exec scheme viewTwoInputs).isSome := by
  decide

set_option maxRecDepth 10000 in
/-- It then leads in the commit phase on proposal two at height one. -/
theorem viewTwo_holds :
    viewTwoLeader.consensus.LeaderPubKey = viewTwoLeader.consensus.PubKey ∧
      viewTwoLeader.consensus.phase = .Commit ∧ viewTwoLeader.consensus.blockHash = proposalHash 2 ∧
      viewTwoLeader.consensus.blockNum = 1 := by
  decide

set_option maxRecDepth 10000 in
/-- Its commit grace period can end. -/
theorem viewTwo_finishing :
    viewTwoLeader.Enabled (.commitFinish viewTwoLeader.consensus.round noReader) := by
  decide

set_option maxRecDepth 10000 in
/-- At its end the leader finalizes proposal one at height one. -/
theorem viewTwo_finalizes :
    (viewTwoLeader.consensus.dispatch scheme
      (.commitFinish viewTwoLeader.consensus.round noReader)).toOption.map
        (fun result => (consensusDoneBlocks result.2).map
          (fun block => (scheme.HeaderHash block.header.withoutCertificates,
            block.header.Number))) =
      some [(proposalHash 1, 1)] := by
  decide

set_option maxRecDepth 10000 in
/--
A member that leads view two after a view change whose m1 payload certifies proposal two commits
on proposal two, but its grace period finalizes proposal one: the block it last took an announce
of, which `finalizeCommits` decodes from `consensus.block` while `blockHash` is proposal two's.
-/
theorem view_change_leader_finalizes_stale_block :
    ∃ trace effects n',
      Transition.Run (Node.Step scheme) (member 100) trace viewTwoLeader ∧
      trace.map Prod.fst = viewTwoInputs ∧ Node.Reachable scheme (member 100) ∧
      viewTwoLeader.consensus.LeaderPubKey = viewTwoLeader.consensus.PubKey ∧
      viewTwoLeader.consensus.phase = .Commit ∧
      viewTwoLeader.consensus.blockHash = proposalHash 2 ∧ viewTwoLeader.consensus.blockNum = 1 ∧
      Node.Step scheme viewTwoLeader (.commitFinish viewTwoLeader.consensus.round noReader)
        effects n' ∧
      (consensusDoneBlocks effects).map
          (fun block => (scheme.HeaderHash block.header.withoutCertificates, block.header.Number)) =
        [(proposalHash 1, 1)] ∧
      proposalHash 1 ≠ proposalHash 2 := by
  -- The inputs are one run; the grace period's end is then evaluated from where it leads.
  obtain ⟨trace, run, inputs⟩ := after_run (member 100) viewTwoInputs viewTwo_ran
  have finishing :=
    Node.exists_step scheme viewTwoLeader (.commitFinish viewTwoLeader.consensus.round noReader)
      viewTwo_finishing
      (fun result => (consensusDoneBlocks result.2).map
        (fun block => (scheme.HeaderHash block.header.withoutCertificates, block.header.Number)))
      [(proposalHash 1, 1)]
  obtain ⟨effects, n', step, finalized⟩ := finishing viewTwo_finalizes
  obtain ⟨leader, commit, hash, height⟩ := viewTwo_holds
  exact ⟨trace, effects, n', run, inputs, member_reachable 100, leader, commit, hash, height, step,
    finalized, by decide⟩

end Consensus

end Harmony
