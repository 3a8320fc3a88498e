import Harmony.Proofs.Consensus.Certificates

/-!
The committee a consensus object runs with, and the masks it counts signatures in
(`UpdatePublicKeys`, `AddPeers` and `RemovePeers` of `consensus_service.go`). `UpdatePublicKeys`
installs a key list and builds both masks over it. `AddPeers` lengthens the list and leaves the
masks over the old one, so a key it adds is never counted. `RemovePeers` of a whole committee
installs the empty list, whose first key `UpdatePublicKeys` reads.
-/

namespace Harmony

open Go

namespace Committee

/-- A node whose committee is its own key alone, started on genesis. -/
def loneMember : Node Int Int := Node.boot scheme 1 1 1 genesisChain [1] false

end Committee

namespace Consensus

variable {K S : Type} [AddCommGroup K] [DecidableEq K] [AddCommMonoid S]
variable (P : Primitives K S)

omit [AddCommMonoid S] in
/-- A mask built with one of its keys enabled is built over its key list. -/
theorem NewMask_some_ok {publics : List K} {key : K} (listed : key ∈ publics) :
    ∃ m, NewMask publics (some key) = .ok m ∧ m.publics = publics := by
  -- The key has a position, and enabling it keeps the list.
  obtain ⟨i, found⟩ := Option.isSome_iff_exists.mp (List.isSome_idxOf?.mpr listed)
  obtain ⟨within, -, -⟩ := List.idxOf?_eq_some_iff.mp found
  simp only [NewMask, found, Mask.SetBit, dif_pos within]
  split_ifs <;> exact ⟨_, rfl, rfl⟩

omit [AddCommMonoid S] in
/-- `UpdatePublicKeys` of a list led by `leaderKey` installs it, with both masks over it. -/
theorem UpdatePublicKeys_cons (c : Consensus K S) (leaderKey : K) (rest : List K) :
    ∃ installed, c.UpdatePublicKeys P (leaderKey :: rest) = .ok installed ∧
      installed.PublicKeys = leaderKey :: rest ∧
      installed.CommitteeAddresses = (leaderKey :: rest).map P.GetAddress ∧
      installed.prepareBitmap.map (·.publics) = some (leaderKey :: rest) ∧
      installed.commitBitmap.map (·.publics) = some (leaderKey :: rest) := by
  obtain ⟨m, built, spanned⟩ := NewMask_some_ok (List.mem_cons_self (a := leaderKey) (l := rest))
  -- `ResetState` builds both masks again, over the list just installed.
  refine ⟨_, rfl, ?_, ?_, ?_, ?_⟩
  · simp [ResetState, ResetViewChangeState, built]
  · simp [ResetState, ResetViewChangeState, built]
  · simp [ResetState, ResetViewChangeState, built, Except.toOption, spanned]
  · simp [ResetState, ResetViewChangeState, built, Except.toOption, spanned]

omit [AddCommGroup K] [DecidableEq K] [AddCommMonoid S] in
/-- `AddPeers` never touches the masks. -/
theorem AddPeers_masks (c : Consensus K S) (validators : List Address) (peers : List K) :
    (c.AddPeers P validators peers).1.prepareBitmap = c.prepareBitmap ∧
      (c.AddPeers P validators peers).1.commitBitmap = c.commitBitmap := by
  simp only [AddPeers]
  -- Each peer at most appends a key and an address.
  induction peers generalizing c validators with
  | nil => exact ⟨rfl, rfl⟩
  | cons key peers ih =>
    rw [List.foldl_cons]
    have step : (addPeer P (c, validators) key).1.prepareBitmap = c.prepareBitmap ∧
        (addPeer P (c, validators) key).1.commitBitmap = c.commitBitmap := by
      simp only [addPeer]
      split_ifs <;> exact ⟨rfl, rfl⟩
    obtain ⟨prepare, commit⟩ := ih (addPeer P (c, validators) key).1 (addPeer P (c, validators) key).2
    exact ⟨prepare.trans step.1, commit.trans step.2⟩

omit [AddCommGroup K] [DecidableEq K] [AddCommMonoid S] in
/-- A peer new to the validator map and to the committee has its key and address appended. -/
theorem AddPeers_fresh (c : Consensus K S) (validators : List Address) {key : K}
    (fresh : P.GetAddress key ∉ validators) (outside : P.GetAddress key ∉ c.CommitteeAddresses) :
    (c.AddPeers P validators [key]).1.PublicKeys = c.PublicKeys ++ [key] := by
  simp [AddPeers, addPeer, fresh, outside]

omit [AddCommMonoid S] in
/-- Removing the one key of a one-key committee installs the empty committee, which panics. -/
theorem RemovePeers_lone (c : Consensus K S) {lone : K} (alone : c.PublicKeys = [lone]) :
    c.RemovePeers P [lone] = .error "index out of range" := by
  simp [RemovePeers, alone, removeKeyInPlace, UpdatePublicKeys, bind, Except.bind, pure, Except.pure]

/--
A node takes `AddPeers` of a peer new to its validator map and committee in a step that appends
the peer's key and leaves both masks as they were.
-/
theorem Step_addPeers_fresh (n : Node K S) {key : K}
    (fresh : P.GetAddress key ∉ n.consensus.validators)
    (outside : P.GetAddress key ∉ n.consensus.CommitteeAddresses) :
    ∃ n', Node.Step P n (.addPeers [key]) [] n' ∧
      n'.consensus.PublicKeys = n.consensus.PublicKeys ++ [key] ∧
      n'.consensus.prepareBitmap = n.consensus.prepareBitmap ∧
      n'.consensus.commitBitmap = n.consensus.commitBitmap := by
  obtain ⟨samePrepare, sameCommit⟩ := AddPeers_masks P n.consensus n.consensus.validators [key]
  refine ⟨_, .handle trivial rfl, ?_, samePrepare, sameCommit⟩
  exact AddPeers_fresh P n.consensus n.consensus.validators fresh outside

/-- A node of a one-key committee has no step on `RemovePeers` of that key: it panics. -/
theorem Step_removePeers_lone (n : Node K S) {lone : K} (alone : n.consensus.PublicKeys = [lone])
    (effects : List Effect) (n' : Node K S) : ¬ Node.Step P n (.removePeers [lone]) effects n' := by
  rintro ⟨-, dispatched⟩
  simp [Consensus.dispatch, RemovePeers_lone P n.consensus alone, Except.map] at dispatched

omit [AddCommMonoid S] in
/--
Committee changes leave the masks out of step with the committee in two ways. After
`UpdatePublicKeys` of any committee, `AddPeers` of a peer with a new address appends its key but
leaves both masks over the old list, so the new member's signatures can never be counted. And
`RemovePeers` of the one key of a one-key committee panics in the `UpdatePublicKeys` it calls on the
empty list.
-/
theorem AddPeers_stale_masks_RemovePeers_panics (c : Consensus K S) (leaderKey : K)
    (rest : List K) (validators : List Address) {key : K} (fresh : P.GetAddress key ∉ validators)
    (outside : P.GetAddress key ∉ (leaderKey :: rest).map P.GetAddress) :
    (∃ installed, c.UpdatePublicKeys P (leaderKey :: rest) = .ok installed ∧
      (installed.AddPeers P validators [key]).1.PublicKeys = leaderKey :: rest ++ [key] ∧
      (installed.AddPeers P validators [key]).1.prepareBitmap.map (·.publics) =
        some (leaderKey :: rest) ∧
      (installed.AddPeers P validators [key]).1.commitBitmap.map (·.publics) =
        some (leaderKey :: rest)) ∧
    ∃ lonely, c.UpdatePublicKeys P [leaderKey] = .ok lonely ∧
      lonely.RemovePeers P [leaderKey] = .error "index out of range" := by
  obtain ⟨installed, updated, keys, addresses, prepare, commit⟩ :=
    UpdatePublicKeys_cons P c leaderKey rest
  obtain ⟨lonely, updatedLone, lone, -, -, -⟩ := UpdatePublicKeys_cons P c leaderKey []
  -- The masks stay as `UpdatePublicKeys` built them, over the list before the new key.
  obtain ⟨samePrepare, sameCommit⟩ := AddPeers_masks P installed validators [key]
  refine ⟨⟨installed, updated, ?_, ?_, ?_⟩, lonely, updatedLone, RemovePeers_lone P lonely lone⟩
  · rw [AddPeers_fresh P installed validators fresh (addresses ▸ outside), keys]
  · rw [samePrepare, prepare]
  · rw [sameCommit, commit]

open Committee in
theorem AddPeers_stale_masks_RemovePeers_panics_member :
    (scheme.GetAddress 1000 ∉ ([] : List Address) ∧
      scheme.GetAddress 1000 ∉ ([1, 10, 100] : List Int).map scheme.GetAddress) ∧
    ((∃ installed, (member 1).consensus.UpdatePublicKeys scheme [1, 10, 100] = .ok installed ∧
      (installed.AddPeers scheme [] [1000]).1.PublicKeys = [1, 10, 100] ++ [1000] ∧
      (installed.AddPeers scheme [] [1000]).1.prepareBitmap.map (·.publics) = some [1, 10, 100] ∧
      (installed.AddPeers scheme [] [1000]).1.commitBitmap.map (·.publics) =
        some [1, 10, 100]) ∧
    ∃ lonely, (member 1).consensus.UpdatePublicKeys scheme [1] = .ok lonely ∧
      lonely.RemovePeers scheme [1] = .error "index out of range") ∧
    -- The same two changes as steps of started nodes.
    Node.Reachable scheme (member 1) ∧
    (∃ n', Node.Step scheme (member 1) (.addPeers [10000]) [] n' ∧
      n'.consensus.PublicKeys = keys ++ [10000] ∧
      n'.consensus.prepareBitmap.map (·.publics) = some keys ∧
      n'.consensus.commitBitmap.map (·.publics) = some keys) ∧
    Node.Reachable scheme loneMember ∧
    ∀ effects n', ¬ Node.Step scheme loneMember (.removePeers [1]) effects n' := by
  have fresh : scheme.GetAddress 1000 ∉ ([] : List Address) := List.not_mem_nil
  have outside : scheme.GetAddress 1000 ∉ ([1, 10, 100] : List Int).map scheme.GetAddress := by
    decide
  -- Member 1's validator map holds its leader peer, key 1, and its committee the four keys.
  have validated : (member 1).consensus.validators = [scheme.GetAddress 1] := by decide
  have committee : (member 1).consensus.CommitteeAddresses = keys.map scheme.GetAddress := by
    decide
  have masked : (member 1).consensus.prepareBitmap.map (·.publics) = some keys ∧
      (member 1).consensus.commitBitmap.map (·.publics) = some keys := by
    decide
  have freshPeer : scheme.GetAddress 10000 ∉ (member 1).consensus.validators := by
    rw [validated]
    decide
  have newMember : scheme.GetAddress 10000 ∉ (member 1).consensus.CommitteeAddresses := by
    rw [committee]
    decide
  obtain ⟨n', step, added, samePrepare, sameCommit⟩ :=
    Step_addPeers_fresh scheme (member 1) freshPeer newMember
  have started : (member 1).consensus.PublicKeys = keys := by decide
  exact ⟨⟨fresh, outside⟩,
    AddPeers_stale_masks_RemovePeers_panics scheme (member 1).consensus 1 [10, 100] [] fresh outside,
    Node.reachable_boot scheme (by decide),
    ⟨n', step, by rw [added, started], by rw [samePrepare, masked.1], by rw [sameCommit, masked.2]⟩,
    Node.reachable_boot scheme (by decide),
    Step_removePeers_lone scheme loneMember (by decide)⟩

end Consensus

end Harmony
