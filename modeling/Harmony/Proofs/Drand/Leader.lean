import Harmony.Drand.Leader
import Harmony.Proofs.Consensus.Certificates

/-!
What the leader emits. A commit is either dropped or taken: taken only from a committee member,
below the threshold, with a valid signature and a VRF output verified against the block hash of the
latest `init`; and an emission is the XOR of the commits held, once the threshold is reached,
followed by the mask. Every commit the leader holds besides its own was verified against the current
block hash, over any run of inits, commits and membership changes.

What fails is the agreement of the mask with the commits, and the single emission: after
`AddPeers`, a new member's commit is taken but its key is not in the mask, and the raised threshold
lets a second emission through before the next `init`.
-/

namespace Harmony

open Go

namespace Drand

section

variable {K S : Type} [AddCommGroup K] [DecidableEq K] [AddCommMonoid S]
variable (P : Primitives K S) (V : Vrf)

/-- The XOR of the first 32 bytes of the commits, as the emission loop computes it. -/
def xorAll (vrfs : AList fun _ : Address => Bytes) : Outcome Bytes :=
  vrfs.entries.foldlM (fun pRnd vrf => xorInto pRnd vrf.2) (List.replicate 32 0)

/-- A payload's VRF output checks against `blockHash`, as the leader checks it. -/
def VrfVerified (blockHash : FixedBytes 32) (payload : Bytes) : Prop :=
  96 ≤ payload.length ∧ ∃ expected,
    V.ProofToHash (payload.drop (payload.length - 64)) blockHash.bytes
      ((payload.drop 32).take (payload.length - 96)) = .ok expected ∧
    expected.bytes = payload.take 32

omit [AddCommGroup K] [DecidableEq K] [AddCommMonoid S] in
theorem dropped_of_ok {d d' : DRand K} {out : Option Bytes}
    (same : (Except.ok (d, none) : Outcome (DRand K × Option Bytes)) = .ok (d', out)) :
    d' = d ∧ out = none := by
  simp only [Except.ok.injEq, Prod.mk.injEq] at same
  exact ⟨same.1.symm, same.2.symm⟩

omit [AddCommMonoid S] in
/--
What a commit message can do: be dropped, leaving the state as it was, or be taken from a committee
member below the threshold whose signature and VRF output verify, which stores its payload, enables
its key in the mask and, once the threshold is reached, emits the XOR of the commits and the mask.
-/
theorem processCommitMessage_cases {d d' : DRand K} {message : Message} {out : Option Bytes}
    (processed : d.processCommitMessage P V message = .ok (d', out)) :
    (d' = d ∧ out = none) ∨
    ∃ drandMsg senderPubKey bitmap,
      message.GetDrand = some drandMsg ∧ P.DeserializeKey drandMsg.SenderPubkey = some senderPubKey ∧
      P.GetAddress senderPubKey ∈ d.CommitteeAddresses ∧ d.vrfs.entries.length < d.threshold ∧
      verifyMessageSig P senderPubKey message = .ok () ∧
      VrfVerified V d.blockHash drandMsg.Payload ∧ d.bitmap = some bitmap ∧
      d' = { d with vrfs := d.vrfs.insert (P.GetAddress senderPubKey) drandMsg.Payload,
                    bitmap := some ((bitmap.SetKey senderPubKey true).toOption.getD bitmap) } ∧
      (out.isSome ↔ d'.threshold ≤ d'.vrfs.entries.length) ∧
      ∀ bytes, out = some bytes →
        ∃ pRnd, xorAll d'.vrfs = .ok pRnd ∧ bytes = pRnd ++ ((bitmap.SetKey senderPubKey true).toOption.getD bitmap).Bitmap := by
  unfold DRand.processCommitMessage at processed
  dsimp only at processed
  split at processed
  · exact .inl (dropped_of_ok processed)
  rename_i commit
  split at processed
  · cases processed
  rename_i drandMsg drand
  split at processed
  · exact .inl (dropped_of_ok processed)
  rename_i senderPubKey deserialized
  split at processed
  · exact .inl (dropped_of_ok processed)
  rename_i member
  split at processed
  · exact .inl (dropped_of_ok processed)
  rename_i below
  split at processed
  · exact .inl (dropped_of_ok processed)
  rename_i signed
  split at processed
  · cases processed
  rename_i long
  split at processed
  · exact .inl (dropped_of_ok processed)
  rename_i expected checked
  split at processed
  · exact .inl (dropped_of_ok processed)
  rename_i agrees
  split at processed
  · cases processed
  rename_i bitmap masked
  have verified : VrfVerified V d.blockHash drandMsg.Payload :=
    ⟨by omega, expected, checked, by simpa using agrees⟩
  right
  refine ⟨drandMsg, senderPubKey, bitmap, drand, deserialized, by simpa [DRand.IsValidatorInCommittee] using member,
    by omega, signed, verified, masked, ?_⟩
  split at processed
  · -- The threshold is reached: the XOR runs over the commits, the new one included.
    rename_i reached
    cases xored : xorAll ((d.vrfs.insert (P.GetAddress senderPubKey) drandMsg.Payload)) with
    | error e =>
      have folded := xored
      simp only [xorAll] at folded
      simp only [folded, bind, Except.bind] at processed
      cases processed
    | ok pRnd =>
      have folded := xored
      simp only [xorAll] at folded
      simp only [folded, bind, Except.bind, pure, Except.pure, Except.ok.injEq, Prod.mk.injEq]
        at processed
      obtain ⟨rfl, rfl⟩ := processed
      exact ⟨rfl, by simpa using reached, fun bytes emitted => ⟨pRnd, xored, by simpa using emitted.symm⟩⟩
  · rename_i short
    obtain ⟨rfl, rfl⟩ := dropped_of_ok processed
    exact ⟨rfl, by simpa using short, fun _ emitted => nomatch emitted⟩

omit [AddCommMonoid S] in
/-- Once the leader holds the threshold of commits, it drops every further commit. -/
theorem processCommitMessage_of_full {d d' : DRand K} {message : Message} {out : Option Bytes}
    (full : d.threshold ≤ d.vrfs.entries.length)
    (processed : d.processCommitMessage P V message = .ok (d', out)) : d' = d ∧ out = none := by
  rcases processCommitMessage_cases P V processed with dropped | ⟨_, _, _, -, -, -, below, -⟩
  · exact dropped
  · omega

/-- Every commit the leader holds, besides the one under its own address, verifies against the
block hash it holds. -/
def CommitsVerified (d : DRand K) : Prop :=
  ∀ addr payload, d.vrfs.lookup addr = some payload → addr ≠ d.SelfAddress →
    VrfVerified V d.blockHash payload

omit [AddCommMonoid S] in
/-- After `init` the leader holds its own commit alone. -/
theorem init_commitsVerified (d : DRand K) (epochBlock : Block) :
    CommitsVerified V (d.init P V epochBlock) := by
  intro addr payload held other
  simp only [DRand.init, DRand.ResetState] at held other
  rw [AList.lookup_insert_ne other] at held
  cases held

omit [AddCommMonoid S] in
/-- A commit keeps every held commit verified: a taken one was checked against the block hash. -/
theorem processCommitMessage_commitsVerified {d d' : DRand K} {message : Message}
    {out : Option Bytes} (verified : CommitsVerified V d)
    (processed : d.processCommitMessage P V message = .ok (d', out)) : CommitsVerified V d' := by
  rcases processCommitMessage_cases P V processed with ⟨rfl, -⟩ |
    ⟨drandMsg, senderPubKey, _, -, -, -, -, -, checked, -, rfl, -⟩
  · exact verified
  · intro addr payload held other
    by_cases taken : addr = P.GetAddress senderPubKey
    · subst taken
      simp only [AList.lookup_insert, Option.some.injEq] at held
      exact held ▸ checked
    · rw [AList.lookup_insert_ne taken] at held
      exact verified addr payload held other

omit [AddCommGroup K] [DecidableEq K] [AddCommMonoid S] in
/-- `AddPeers` changes the committee alone: the commits, the mask and the block hash stay. -/
theorem AddPeers_frame (d : DRand K) (peers : List K) :
    (d.AddPeers P peers).1.vrfs = d.vrfs ∧ (d.AddPeers P peers).1.bitmap = d.bitmap ∧
      (d.AddPeers P peers).1.blockHash = d.blockHash ∧
      (d.AddPeers P peers).1.SelfAddress = d.SelfAddress := by
  simp only [DRand.AddPeers]
  induction peers generalizing d with
  | nil => exact ⟨rfl, rfl, rfl, rfl⟩
  | cons key peers ih =>
    obtain ⟨vrfs, bitmap, blockHash, self⟩ := ih (addPeer P d key)
    have step : (addPeer P d key).vrfs = d.vrfs ∧ (addPeer P d key).bitmap = d.bitmap ∧
        (addPeer P d key).blockHash = d.blockHash ∧ (addPeer P d key).SelfAddress = d.SelfAddress := by
      unfold addPeer
      dsimp only
      split
      · exact ⟨rfl, rfl, rfl, rfl⟩
      · split <;> exact ⟨rfl, rfl, rfl, rfl⟩
    rw [List.foldl_cons]
    exact ⟨vrfs.trans step.1, bitmap.trans step.2.1, blockHash.trans step.2.2.1,
      self.trans step.2.2.2⟩

omit [AddCommGroup K] [DecidableEq K] [AddCommMonoid S] in
/-- `UpdatePublicKeys` changes the committee alone: the commits, the mask and the block hash stay. -/
theorem UpdatePublicKeys_frame {d d' : DRand K} {pubKeys : List K} {count : Nat}
    (updated : d.UpdatePublicKeys P pubKeys = .ok (d', count)) :
    d'.vrfs = d.vrfs ∧ d'.bitmap = d.bitmap ∧ d'.blockHash = d.blockHash ∧
      d'.SelfAddress = d.SelfAddress := by
  cases pubKeys with
  | nil => cases updated
  | cons leaderKey rest =>
    simp only [DRand.UpdatePublicKeys, Except.ok.injEq, Prod.mk.injEq] at updated
    obtain ⟨rfl, -⟩ := updated
    exact ⟨rfl, rfl, rfl, rfl⟩

/-- The leader's step relation: an event handled without a panic. -/
def DRand.Step (d : DRand K) (event : Event K) (out : Option Bytes) (d' : DRand K) : Prop :=
  d.handle P V event = .ok (d', out)

omit [AddCommMonoid S] in
/-- Every event keeps the held commits verified against the block hash. -/
theorem handle_commitsVerified {d d' : DRand K} {event : Event K} {out : Option Bytes}
    (verified : CommitsVerified V d) (step : DRand.Step P V d event out d') :
    CommitsVerified V d' := by
  cases event with
  | epochLastBlock block =>
    simp only [DRand.Step, DRand.handle, Except.ok.injEq, Prod.mk.injEq] at step
    exact step.1 ▸ init_commitsVerified P V d block
  | message message => exact processCommitMessage_commitsVerified P V verified step
  | addPeers peers =>
    simp only [DRand.Step, DRand.handle, Except.ok.injEq, Prod.mk.injEq] at step
    obtain ⟨vrfs, -, blockHash, self⟩ := AddPeers_frame P d peers
    rw [← step.1]
    unfold CommitsVerified
    rw [vrfs, blockHash, self]
    exact verified
  | updatePublicKeys pubKeys =>
    simp only [DRand.Step, DRand.handle] at step
    cases updated : d.UpdatePublicKeys P pubKeys with
    | error e => simp [updated, Except.map] at step
    | ok result =>
      obtain ⟨updatedState, count⟩ := result
      simp only [updated, Except.map, Except.ok.injEq, Prod.mk.injEq] at step
      obtain ⟨vrfs, -, blockHash, self⟩ := UpdatePublicKeys_frame P updated
      rw [← step.1]
      unfold CommitsVerified
      rw [vrfs, blockHash, self]
      exact verified

omit [AddCommMonoid S] in
/-- Verified commits are an invariant of the leader, from any state that has them. -/
theorem commitsVerified_invariant :
    Transition.Invariant (DRand.Step P V) (CommitsVerified V) (CommitsVerified V) :=
  ⟨fun _ verified => verified, handle_commitsVerified P V⟩

/-- What an emission tells of the leader's state right after it. -/
structure Emitted (d : DRand K) (bytes : Bytes) : Prop where
  /-- The leader holds at least `len(PublicKeys)/3 + 1` commits. -/
  reached : d.threshold ≤ d.vrfs.entries.length
  /-- The emission is the XOR of the commits held, followed by the mask. -/
  xored : ∃ pRnd bitmap, xorAll d.vrfs = .ok pRnd ∧ d.bitmap = some bitmap ∧
    bytes = pRnd ++ bitmap.Bitmap
  /-- Every commit held besides the leader's own verifies against the block hash. -/
  verified : CommitsVerified V d

omit [AddCommMonoid S] in
/-- Only a commit emits, and what it emits is the XOR of the verified commits it now holds. -/
theorem handle_emitted {d d' : DRand K} {event : Event K} {bytes : Bytes}
    (verified : CommitsVerified V d) (step : DRand.Step P V d event (some bytes) d') :
    Emitted V d' bytes := by
  have kept := handle_commitsVerified P V verified step
  cases event with
  | epochLastBlock block => simp [DRand.Step, DRand.handle] at step
  | addPeers peers => simp [DRand.Step, DRand.handle] at step
  | updatePublicKeys pubKeys =>
    simp only [DRand.Step, DRand.handle] at step
    cases updated : d.UpdatePublicKeys P pubKeys with
    | error e => simp [updated, Except.map] at step
    | ok result => simp [updated, Except.map] at step
  | message message =>
    rcases processCommitMessage_cases P V step with ⟨-, silent⟩ |
      ⟨drandMsg, senderPubKey, bitmap, -, -, -, -, -, -, masked, rfl, emits, xored⟩
    · cases silent
    · obtain ⟨pRnd, folded, rfl⟩ := xored bytes rfl
      exact ⟨emits.mp rfl, ⟨pRnd, _, folded, rfl, rfl⟩, kept⟩

omit [AddCommMonoid S] in
/-- A full leader stays as it is under commits alone. -/
theorem run_messages_of_full {d d' : DRand K} {trace : List (Event K × Option Bytes)}
    (full : d.threshold ≤ d.vrfs.entries.length)
    (messages : ∀ entry ∈ trace, ∃ message, entry.1 = .message message)
    (run : Transition.Run (DRand.Step P V) d trace d') :
    d' = d ∧ ∀ entry ∈ trace, entry.2 = none := by
  induction run with
  | nil => exact ⟨rfl, by simp⟩
  | @cons s t u event output trace step _ ih =>
    obtain ⟨message, rfl⟩ := messages _ List.mem_cons_self
    obtain ⟨rfl, rfl⟩ := processCommitMessage_of_full P V full step
    obtain ⟨rfl, silent⟩ := ih full fun entry member => messages entry (List.mem_cons_of_mem _ member)
    exact ⟨rfl, by simpa using silent⟩

omit [AddCommMonoid S] in
/-- The events handled in order: the last state and what was emitted, or the first panic. -/
def DRand.handleAll (d : DRand K) : List (Event K) → Outcome (DRand K × List Bytes)
  | [] => .ok (d, [])
  | event :: events => do
    let (d, out) ← d.handle P V event
    let (d, emitted) ← d.handleAll events
    pure (d, out.toList ++ emitted)

omit [AddCommMonoid S] in
/-- What `handleAll` computes is a run of the leader, with its emissions in order. -/
theorem handleAll_run {d d' : DRand K} {events : List (Event K)} {emitted : List Bytes}
    (handled : d.handleAll P V events = .ok (d', emitted)) :
    ∃ trace, Transition.Run (DRand.Step P V) d trace d' ∧ trace.map Prod.fst = events ∧
      trace.filterMap Prod.snd = emitted := by
  induction events generalizing d emitted with
  | nil =>
    simp only [DRand.handleAll, Except.ok.injEq, Prod.mk.injEq] at handled
    obtain ⟨rfl, rfl⟩ := handled
    exact ⟨[], .nil d, rfl, rfl⟩
  | cons event events ih =>
    simp only [DRand.handleAll, bind, Except.bind] at handled
    cases step : d.handle P V event with
    | error e => simp [step] at handled
    | ok first =>
      obtain ⟨t, out⟩ := first
      cases rest : t.handleAll P V events with
      | error e => simp [step, rest] at handled
      | ok last =>
        obtain ⟨u, later⟩ := last
        simp only [step, rest, pure, Except.pure, Except.ok.injEq, Prod.mk.injEq] at handled
        obtain ⟨rfl, rfl⟩ := handled
        obtain ⟨trace, run, events_eq, emitted_eq⟩ := ih rest
        refine ⟨(event, out) :: trace, .cons step run, by simp [events_eq], ?_⟩
        cases out <;> simp [emitted_eq]

end

open Committee

/-- A VRF whose proofs are empty and whose output is the hashed message itself. -/
def echoVrf : Vrf where
  Evaluate blockHash := (blockHash, [])
  ProofToHash _ m _ := .ok (FixedBytes.ofBytes 32 m)

/-- The hash of the epoch block the leader starts from. -/
def epochHash : Hash := scheme.HeaderHash (proposal 1).header

/-- A validator's signed commit on the epoch block, whose output verifies under `echoVrf`. -/
def commitFrom (key : Int) : Message :=
  signedBy key {
    serviceType := .DRAND
    msgType := .DRAND_COMMIT
    Signature := []
    request := .drand {
      SenderPubkey := scheme.SerializeKey key
      BlockHash := epochHash.bytes
      Payload := epochHash.bytes ++ List.replicate 64 0 } }

/-- A leader with key 100 over the committee 1, 10, 100, before its first epoch block. -/
def leaderBefore : DRand Int where
  vrfs := ∅
  bitmap := none
  leaderKey := 100
  PublicKeys := [1, 10, 100]
  CommitteeAddresses := [1, 10, 100].map scheme.GetAddress
  validators := [1, 10].map scheme.GetAddress
  SelfAddress := scheme.GetAddress 100
  blockHash := FixedBytes.zero 32

/-- An epoch in which key 1's commit completes the threshold of 2 and key 10's comes after. -/
def plainEpoch : List (Event Int) :=
  [.epochLastBlock (proposal 1), .message (commitFrom 1), .message (commitFrom 10)]

/-- The leader before its first epoch block holds no commit. -/
theorem leaderBefore_commitsVerified : CommitsVerified echoVrf leaderBefore := by
  intro addr payload held
  simp [leaderBefore] at held

set_option maxRecDepth 10000 in
/-- The leader runs the plain epoch without panicking and emits once. -/
theorem plainEpoch_handled :
    (leaderBefore.handleAll scheme echoVrf plainEpoch).map (fun r => r.2.length) = .ok 1 := by
  decide

section

variable {K S : Type} [AddCommGroup K] [DecidableEq K] [AddCommMonoid S]
variable (P : Primitives K S) (V : Vrf)

omit [AddCommMonoid S] in
/--
Every emission of a run that starts with verified commits is the XOR of the commits the leader
then holds, at least the threshold of them, each verified against the block hash of the latest
`init`, followed by the mask.
-/
theorem run_emitted {d d' : DRand K} {trace : List (Event K × Option Bytes)}
    (verified : CommitsVerified V d) (run : Transition.Run (DRand.Step P V) d trace d') :
    ∀ entry ∈ trace, ∀ bytes, entry.2 = some bytes →
      ∃ before after, Transition.Reachable (DRand.Step P V) (CommitsVerified V) before ∧
        DRand.Step P V before entry.1 entry.2 after ∧ Emitted V after bytes := by
  intro entry member bytes emitted
  obtain ⟨before, after, reached, step⟩ := run.step_reachable (.init verified) entry member
  rw [emitted] at step
  have held := (commitsVerified_invariant P V).reachable reached
  exact ⟨before, after, reached, emitted ▸ step, handle_emitted P V held step⟩

end

/-- The leader's plain epoch is a run whose one emission is built from verified commits. -/
theorem run_emitted_plainEpoch :
    ∃ trace d', Transition.Run (DRand.Step scheme echoVrf) leaderBefore trace d' ∧
      trace.map Prod.fst = plainEpoch ∧ (trace.filterMap Prod.snd).length = 1 ∧
      ∀ entry ∈ trace, ∀ bytes, entry.2 = some bytes →
        ∃ before after, Transition.Reachable (DRand.Step scheme echoVrf)
            (CommitsVerified echoVrf) before ∧
          DRand.Step scheme echoVrf before entry.1 entry.2 after ∧ Emitted echoVrf after bytes := by
  obtain ⟨⟨d', emitted⟩, handled, once⟩ := Outcome.exists_eq_ok_of_map plainEpoch_handled
  obtain ⟨trace, run, events, outputs⟩ := handleAll_run scheme echoVrf handled
  refine ⟨trace, d', run, events, ?_, run_emitted scheme echoVrf leaderBefore_commitsVerified run⟩
  rw [outputs, ← once]

/-- The leader right after its first epoch block, holding its own commit. -/
def leaderStarted : DRand Int := leaderBefore.init scheme echoVrf (proposal 1)

set_option maxRecDepth 10000 in
/-- Commits of keys 1 and 10 after the epoch block go through. -/
theorem leaderStarted_commits :
    (leaderStarted.handleAll scheme echoVrf [.message (commitFrom 1), .message (commitFrom 10)]).map
      (fun r => r.2.length) = .ok 1 := by
  decide

section

variable {K S : Type} [AddCommGroup K] [DecidableEq K] [AddCommMonoid S]
variable (P : Primitives K S) (V : Vrf)

omit [AddCommMonoid S] in
/--
Without a change of the committee in between, the leader emits at most once: after an emission
it holds the threshold of commits, and every later commit is dropped.
-/
theorem run_messages_emit_once {d d' : DRand K} {trace : List (Event K × Option Bytes)}
    (verified : CommitsVerified V d)
    (messages : ∀ entry ∈ trace, ∃ message, entry.1 = .message message)
    (run : Transition.Run (DRand.Step P V) d trace d') :
    (trace.filter fun entry => entry.2.isSome).length ≤ 1 := by
  induction run with
  | nil => simp
  | @cons s t u event output trace step rest ih =>
    have later := fun entry member => messages entry (List.mem_cons_of_mem _ member)
    cases output with
    | none =>
      simpa using ih (handle_commitsVerified P V verified step) later
    | some bytes =>
      -- The emission leaves the leader full, so the rest of the run is silent.
      have full := (handle_emitted P V verified step).reached
      obtain ⟨-, silent⟩ := run_messages_of_full P V full later rest
      have none_left : (trace.filter fun entry => entry.2.isSome) = [] :=
        List.filter_eq_nil_iff.mpr fun entry member => by simp [silent entry member]
      simp [none_left]

end

/-- The two commits after the epoch block are a run of messages alone, with one emission. -/
theorem run_messages_emit_once_leaderStarted :
    ∃ trace d', Transition.Run (DRand.Step scheme echoVrf) leaderStarted trace d' ∧
      trace.map Prod.fst = [.message (commitFrom 1), .message (commitFrom 10)] ∧
      (∀ entry ∈ trace, ∃ message, entry.1 = .message message) ∧
      (trace.filter fun entry => entry.2.isSome).length ≤ 1 := by
  obtain ⟨⟨d', emitted⟩, handled, -⟩ := Outcome.exists_eq_ok_of_map leaderStarted_commits
  obtain ⟨trace, run, events, -⟩ := handleAll_run scheme echoVrf handled
  have messages : ∀ entry ∈ trace, ∃ message, entry.1 = .message message := by
    intro entry member
    have listed : entry.1 ∈ trace.map Prod.fst := List.mem_map_of_mem member
    rw [events] at listed
    simp only [List.mem_cons, List.not_mem_nil, or_false] at listed
    rcases listed with first | second
    · exact ⟨_, first⟩
    · exact ⟨_, second⟩
  exact ⟨trace, d', run, events, messages,
    run_messages_emit_once scheme echoVrf (init_commitsVerified scheme echoVrf leaderBefore _)
      messages run⟩

/--
An epoch in which the node updates the committee between two commits: key 1 completes the
threshold of 2, and after the update to six keys, whose threshold is 3, key 1000 commits.
-/
def rekeyedEpoch : List (Event Int) :=
  [.epochLastBlock (proposal 1), .message (commitFrom 1),
    .updatePublicKeys [100, 1, 10, 1000, 2000, 3000], .message (commitFrom 1000)]

set_option maxRecDepth 10000 in
/--
A committee update between two commits of one epoch lets the leader emit twice before the next
`init`, and the second emission's mask does not enable key 1000 although its commit is held.
-/
theorem rekeyed_leader_emits_twice :
    ((leaderBefore.handleAll scheme echoVrf rekeyedEpoch).map fun r =>
      (r.2.map (·.drop 32), r.1.vrfs.keys, r.1.bitmap.map (·.publics))) =
    .ok ([[0x05], [0x05]], [1000, 1, 100].map scheme.GetAddress, some [1, 10, 100]) := by
  -- The epoch is evaluated: two emissions of mask byte 0x05, three commits held.
  decide

end Drand

end Harmony
