import Harmony.Core.ShardState
import Harmony.Lib.Compare
import Harmony.Lib.GoSortLaws

/-!
The comparisons and the hash of shard states (`core/types/shard_state.go`).

The four comparisons are lexicographic orders built from Go's string and byte orders, so each is a
total order whose `0` means equal values, which is how `validateNewShardState` reads it. The hash
sorts at two levels before it writes a byte, so it does not depend on the order of the committees
or of their members as long as neither sort meets a tie: distinct shard IDs, and distinct BLS keys
within a committee.
-/

namespace Harmony

open Go

/-! ## The comparisons -/

/-- `CompareNodeID` compares the account first and the BLS key's bytes second. -/
theorem CompareNodeID_eq : CompareNodeID =
    compareLex (compareBy compare NodeID.EcdsaAddress) (compareBy compare fun n => n.BlsPublicKey.bytes) := by
  funext id1 id2
  -- Go's `if c := …; c != 0 { return c }` is `Ordering.then`.
  simp only [CompareNodeID, compareLex, compareBy, stringsCompare, CompareBlsPublicKey,
    bytesCompare_eq_compare]
  cases compare id1.EcdsaAddress id2.EcdsaAddress <;> rfl

instance CompareNodeID_trans : Std.TransCmp CompareNodeID := by
  rw [CompareNodeID_eq]
  infer_instance

instance CompareNodeID_lawfulEq : Std.LawfulEqCmp CompareNodeID := by
  rw [CompareNodeID_eq]
  -- A member is its account and its key.
  refine lawfulEqCmp_compareLex fun a b account key => ?_
  have sameAccount : a.EcdsaAddress = b.EcdsaAddress := Std.LawfulEqCmp.eq_of_compare account
  have sameKey : a.BlsPublicKey = b.BlsPublicKey :=
    FixedBytes.bytes_injective (Std.LawfulEqCmp.eq_of_compare key)
  cases a
  cases b
  simp_all

/-- `CompareNodeIDList` is the lexicographic order of member lists. -/
theorem CompareNodeIDList_eq : CompareNodeIDList = List.compareLex CompareNodeID :=
  compareSlices_eq_compareLex CompareNodeID

instance CompareNodeIDList_trans : Std.TransCmp CompareNodeIDList := by
  rw [CompareNodeIDList_eq]
  infer_instance

instance CompareNodeIDList_lawfulEq : Std.LawfulEqCmp CompareNodeIDList := by
  rw [CompareNodeIDList_eq]
  infer_instance

/-- `CompareCommittee` compares the shard first and the member list second. -/
theorem CompareCommittee_eq : CompareCommittee =
    compareLex (compareBy compare Committee.ShardID) (compareBy CompareNodeIDList Committee.NodeList) := by
  funext c1 c2
  simp only [CompareCommittee, compareLex, compareBy]
  -- Go tests `<` and `>` on the shard IDs; the order of `Nat` tells the same three cases apart.
  by_cases below : c1.ShardID < c2.ShardID
  · simp [below, Nat.compare_eq_lt.mpr below]
  · by_cases above : c1.ShardID > c2.ShardID
    · simp [below, above, Nat.compare_eq_gt.mpr above]
    · have same : c1.ShardID = c2.ShardID := by omega
      simp [same]

instance CompareCommittee_trans : Std.TransCmp CompareCommittee := by
  rw [CompareCommittee_eq]
  infer_instance

instance CompareCommittee_lawfulEq : Std.LawfulEqCmp CompareCommittee := by
  rw [CompareCommittee_eq]
  -- A committee is its shard and its member list.
  refine lawfulEqCmp_compareLex fun a b shard members => ?_
  have sameShard : a.ShardID = b.ShardID := Std.LawfulEqCmp.eq_of_compare shard
  have sameMembers : a.NodeList = b.NodeList := Std.LawfulEqCmp.eq_of_compare members
  cases a
  cases b
  simp_all

/-- `CompareShardState` is the lexicographic order of committee lists. -/
theorem CompareShardState_eq : CompareShardState = List.compareLex CompareCommittee :=
  compareSlices_eq_compareLex CompareCommittee

instance CompareShardState_trans : Std.TransCmp CompareShardState := by
  rw [CompareShardState_eq]
  infer_instance

instance CompareShardState_lawfulEq : Std.LawfulEqCmp CompareShardState := by
  rw [CompareShardState_eq]
  infer_instance

/-- Two shard states are equal when they have as many committees, equal position by position. -/
theorem shardStates_eq_iff {s1 s2 : ShardState} :
    s1 = s2 ↔ s1.length = s2.length ∧
      ∀ i (h1 : i < s1.length) (h2 : i < s2.length),
        s1[i].ShardID = s2[i].ShardID ∧ s1[i].NodeList = s2[i].NodeList := by
  rw [List.ext_get_iff]
  -- A committee is equal to another exactly when its two fields are.
  have fields : ∀ a b : Committee, a = b ↔ a.ShardID = b.ShardID ∧ a.NodeList = b.NodeList := by
    intro a b
    cases a
    cases b
    simp
  simp only [List.get_eq_getElem, fields]

/--
The four comparisons of `shard_state.go` are total orders whose equality is equality of the
values; for shard states that reads: `0` exactly for as many committees with equal shard IDs and
member lists position by position, `-1` and `+1` swapped when the arguments are, and both `≤ 0`
and `< 0` transitive.
-/
theorem CompareShardState_total_order :
    Std.TransCmp CompareNodeID ∧ Std.LawfulEqCmp CompareNodeID ∧
      Std.TransCmp CompareNodeIDList ∧ Std.LawfulEqCmp CompareNodeIDList ∧
      Std.TransCmp CompareCommittee ∧ Std.LawfulEqCmp CompareCommittee ∧
      ∀ s1 s2 s3 : ShardState,
        (CompareShardState s1 s2 = .eq ↔ s1.length = s2.length ∧
          ∀ i (h1 : i < s1.length) (h2 : i < s2.length),
            s1[i].ShardID = s2[i].ShardID ∧ s1[i].NodeList = s2[i].NodeList) ∧
        CompareShardState s1 s2 = (CompareShardState s2 s1).swap ∧
        (CompareShardState s1 s2 ≠ .gt → CompareShardState s2 s3 ≠ .gt →
          CompareShardState s1 s3 ≠ .gt) ∧
        (CompareShardState s1 s2 = .lt → CompareShardState s2 s3 = .lt →
          CompareShardState s1 s3 = .lt) := by
  refine ⟨inferInstance, inferInstance, inferInstance, inferInstance, inferInstance,
    inferInstance, fun s1 s2 s3 => ⟨?_, Std.OrientedCmp.eq_swap, Std.TransCmp.le_trans,
      Std.TransCmp.lt_trans⟩⟩
  rw [Std.LawfulEqCmp.compare_eq_iff_eq, shardStates_eq_iff]

/-! ## The hash -/

/-- `ss'` holds the committees of `ss` in some order, each with its members in some order. -/
def Reordered (ss ss' : ShardState) : Prop :=
  ∃ mid, List.Forall₂ (fun c c' => c.ShardID = c'.ShardID ∧ c.NodeList.Perm c'.NodeList) ss mid ∧
    mid.Perm ss'

/-- `CompareNodeIDByBLSKey` compares the BLS keys' bytes alone. -/
theorem CompareNodeIDByBLSKey_eq :
    CompareNodeIDByBLSKey = compareBy compare fun n => n.BlsPublicKey.bytes := by
  funext n1 n2
  simp only [CompareNodeIDByBLSKey, compareBy, bytesCompare_eq_compare]

instance CompareNodeIDByBLSKey_trans : Std.TransCmp CompareNodeIDByBLSKey := by
  rw [CompareNodeIDByBLSKey_eq]
  infer_instance

/-- Less by BLS key is a strict weak order, so `sort.Slice` sorts by it. -/
theorem byBLSKey_strictWeak : Heap.StrictWeak fun a b : NodeID => CompareNodeIDByBLSKey a b == .lt :=
  Sorting.strictWeak_of_transCmp CompareNodeIDByBLSKey

/--
Member lists that are permutations of each other sort to the same list when no two members share
a BLS key: the sort key then leaves no tie.
-/
theorem sortByBLSKey_perm {l l' : List NodeID} (reordered : l.Perm l')
    (keys : (l.map (·.BlsPublicKey)).Nodup) : sortByBLSKey l = sortByBLSKey l' := by
  refine Sorting.Slice_eq_of_perm byBLSKey_strictWeak reordered fun a inL b inL' up down => ?_
  -- Neither is less than the other, so the keys are equal, and so are the members.
  have both : CompareNodeIDByBLSKey a b = .eq := by
    rw [@Std.OrientedCmp.eq_swap _ CompareNodeIDByBLSKey _ b a] at down
    cases h : CompareNodeIDByBLSKey a b <;> simp_all
  have sameKey : a.BlsPublicKey = b.BlsPublicKey := by
    rw [CompareNodeIDByBLSKey_eq] at both
    exact FixedBytes.bytes_injective (Std.LawfulEqCmp.eq_of_compare both)
  exact List.inj_on_of_nodup_map keys inL inL' sameKey

/-- The hash of a member list does not depend on their order when their BLS keys are distinct. -/
theorem GetHashFromNodeList_perm (Keccak256 : Bytes → Bytes) {l l' : List NodeID}
    (reordered : l.Perm l') (keys : (l.map (·.BlsPublicKey)).Nodup) :
    (GetHashFromNodeList Keccak256 l).1 = (GetHashFromNodeList Keccak256 l').1 := by
  unfold GetHashFromNodeList
  -- Only the empty list is a permutation of the empty list.
  have empty : l = [] ↔ l' = [] := by
    rw [← List.length_eq_zero_iff, reordered.length_eq, List.length_eq_zero_iff]
  by_cases none : l = []
  · simp [none, empty.mp none]
  · simp [none, mt empty.mpr none, sortByBLSKey_perm reordered keys]

/-- What `Hash` writes for one committee, with the shard it sorts the committee by. -/
def committeeDigest (Keccak256 : Bytes → Bytes) (c : Committee) : Nat × Bytes :=
  (c.ShardID, (GetHashFromNodeList Keccak256 c.NodeList).1)

/-- `Hash` writes the digests of the committees sorted by shard. -/
theorem Hash_fst_eq (Keccak256 : Bytes → Bytes) (ss : ShardState) :
    (ShardState.Hash Keccak256 ss).1 = FixedBytes.ofBytes 32 (Keccak256
      (((Sorting.Slice (fun a b => decide (a.ShardID < b.ShardID)) ss).map
        (committeeDigest Keccak256)).flatMap Prod.snd)) := by
  simp [ShardState.Hash, committeeDigest, List.flatMap_map]

/-- Reordering the members of each committee keeps the committees' digests. -/
theorem map_committeeDigest_eq (Keccak256 : Bytes → Bytes) {ss mid : ShardState}
    (pairs : List.Forall₂ (fun c c' => c.ShardID = c'.ShardID ∧ c.NodeList.Perm c'.NodeList) ss mid)
    (keys : ∀ c ∈ ss, (c.NodeList.map (·.BlsPublicKey)).Nodup) :
    ss.map (committeeDigest Keccak256) = mid.map (committeeDigest Keccak256) := by
  induction pairs with
  | nil => rfl
  | @cons c c' rest rest' same _ ih =>
    have headKeys := keys c List.mem_cons_self
    rw [List.map_cons, List.map_cons, ih fun d member => keys d (List.mem_cons_of_mem c member)]
    -- The head keeps its shard and the hash of its members.
    simp only [committeeDigest, same.1, GetHashFromNodeList_perm Keccak256 same.2 headKeys]

/--
The committees' digests, sorted by shard, do not depend on the order of the committees or of
their members when the shards are distinct and so are the BLS keys within each committee.
-/
theorem sorted_digests_eq (Keccak256 : Bytes → Bytes) {ss ss' : ShardState}
    (shards : (ss.map (·.ShardID)).Nodup)
    (keys : ∀ c ∈ ss, (c.NodeList.map (·.BlsPublicKey)).Nodup) (reordered : Reordered ss ss') :
    (Sorting.Slice (fun a b => decide (a.ShardID < b.ShardID)) ss).map (committeeDigest Keccak256) =
      (Sorting.Slice (fun a b => decide (a.ShardID < b.ShardID)) ss').map
        (committeeDigest Keccak256) := by
  obtain ⟨mid, pairs, moved⟩ := reordered
  have order := Sorting.strictWeak_of_key fun c : Committee => c.ShardID
  have digests := map_committeeDigest_eq Keccak256 pairs keys
  have perm : ((Sorting.Slice (fun a b => decide (a.ShardID < b.ShardID)) ss).map
      (committeeDigest Keccak256)).Perm
      ((Sorting.Slice (fun a b => decide (a.ShardID < b.ShardID)) ss').map
        (committeeDigest Keccak256)) := by
    refine ((Sorting.Slice_sorted order ss).1.map _).trans ?_
    rw [digests]
    exact (moved.map _).trans ((Sorting.Slice_sorted order ss').1.map _).symm
  -- Both sides are sorted by shard.
  have sorted : ∀ l : ShardState,
      ((Sorting.Slice (fun a b => decide (a.ShardID < b.ShardID)) l).map
        (committeeDigest Keccak256)).Pairwise fun x y => x.1 ≤ y.1 := by
    intro l
    refine List.pairwise_map.mpr ((Sorting.Slice_sorted order l).2.imp ?_)
    intro a b notBelow
    simpa [committeeDigest] using notBelow
  refine List.Perm.eq_of_pairwise ?_ (sorted ss) (sorted ss') perm
  -- Digests of one shard are one digest, since the shards are distinct.
  intro x y inLeft inRight up down
  have whole : ∀ z, z ∈ (Sorting.Slice (fun a b => decide (a.ShardID < b.ShardID)) ss).map
      (committeeDigest Keccak256) → z ∈ ss.map (committeeDigest Keccak256) :=
    fun z member => ((Sorting.Slice_sorted order ss).1.map _).subset member
  have firsts : ((ss.map (committeeDigest Keccak256)).map Prod.fst).Nodup := by
    simpa [committeeDigest, Function.comp_def] using shards
  exact List.inj_on_of_nodup_map firsts (whole x inLeft) (whole y (perm.symm.subset inRight))
    (by omega)

/-- Two members of one shard, with one-byte BLS keys. -/
def memberOf (account : String) (key : UInt8) : NodeID :=
  ⟨account, FixedBytes.ofBytes 96 [key]⟩

/-- Two committees, shard 1 before shard 0, with their members out of key order. -/
def unsortedState : ShardState :=
  [⟨1, [memberOf "one1b" 2, memberOf "one1a" 1]⟩, ⟨0, [memberOf "one1c" 3]⟩]

/-- The same committees in shard order, the members of shard 1 in key order. -/
def sortedState : ShardState :=
  [⟨0, [memberOf "one1c" 3]⟩, ⟨1, [memberOf "one1a" 1, memberOf "one1b" 2]⟩]

/--
`ShardState.Hash` does not depend on the order of the committees or of their members, for
distinct shard IDs and, within each committee, distinct BLS keys; so the hash `AddShardState`
stores for a state is the hash of that state in any order.
-/
theorem ShardState_Hash_order_independent (Keccak256 : Bytes → Bytes) {ss ss' : ShardState}
    (shards : (ss.map (·.ShardID)).Nodup)
    (keys : ∀ c ∈ ss, (c.NodeList.map (·.BlsPublicKey)).Nodup) (reordered : Reordered ss ss') :
    (ShardState.Hash Keccak256 ss').1 = (ShardState.Hash Keccak256 ss).1 ∧
      ∀ b : Block,
        (b.AddShardState Keccak256 ss).header.ShardStateHash = (ShardState.Hash Keccak256 ss').1 := by
  have same : (ShardState.Hash Keccak256 ss').1 = (ShardState.Hash Keccak256 ss).1 := by
    rw [Hash_fst_eq, Hash_fst_eq, sorted_digests_eq Keccak256 shards keys reordered]
  -- `AddShardState` stores the first component of `Hash`.
  exact ⟨same, fun b => by rw [same]; rfl⟩

theorem ShardState_Hash_order_independent_two_shards :
    ((unsortedState.map (·.ShardID)).Nodup ∧
      (∀ c ∈ unsortedState, (c.NodeList.map (·.BlsPublicKey)).Nodup) ∧
      Reordered unsortedState sortedState) ∧
    (ShardState.Hash id sortedState).1 = (ShardState.Hash id unsortedState).1 ∧
      ∀ b : Block,
        (b.AddShardState id unsortedState).header.ShardStateHash =
          (ShardState.Hash id sortedState).1 := by
  have shards : (unsortedState.map (·.ShardID)).Nodup := by decide
  have keys : ∀ c ∈ unsortedState, (c.NodeList.map (·.BlsPublicKey)).Nodup := by decide
  have reordered : Reordered unsortedState sortedState :=
    ⟨[⟨1, [memberOf "one1a" 1, memberOf "one1b" 2]⟩, ⟨0, [memberOf "one1c" 3]⟩], by decide,
      by decide⟩
  exact ⟨⟨shards, keys, reordered⟩,
    ShardState_Hash_order_independent id shards keys reordered⟩

end Harmony
