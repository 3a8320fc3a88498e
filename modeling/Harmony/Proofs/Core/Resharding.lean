import Harmony.Node.Resharding
import Harmony.Lib.Containers
import Harmony.Lib.Hoare
import Harmony.Proofs.Core.ShardState

/-!
What resharding does to the committees. Every stage of `Reshard` moves nodes between committees
and never loses or copies one: the committees keep their shard IDs, and their members are the old
members with the new nodes added. The stages are related by `Redistribution`, which composes.
-/

namespace Harmony

open Go Harmony.Core

open scoped List

namespace Core

section Shuffle

variable {σ : Type} (R : Go.Rand σ)

/-- `Shuffle` reads the sorted list in the order the source draws. -/
theorem Shuffle_eq (s : σ) (list : List NodeID) :
    Shuffle R s list = (Rand.permute (sortByBLSKey list) (R.Shuffle s (sortByBLSKey list).length).1,
      (R.Shuffle s (sortByBLSKey list).length).2) := rfl

/-- A shuffle only reorders the nodes. -/
theorem Shuffle_perm (s : σ) (list : List NodeID) : (Shuffle R s list).1.Perm list := by
  have sorted : (sortByBLSKey list).Perm list := (Sorting.Slice_sorted byBLSKey_strictWeak list).1
  rw [Shuffle_eq]
  exact (Rand.permute_shuffle_perm R s (sortByBLSKey list)).trans sorted

/-- Shuffling no nodes gives none, whatever the source draws. -/
theorem Shuffle_nil (s : σ) : Shuffle R s [] = ([], (R.Shuffle s 0).2) := by
  rw [Shuffle_eq]
  simp [sortByBLSKey, Sorting.Slice_nil, Rand.permute]

/-- Shuffling one node gives it back, whatever the source draws. -/
theorem Shuffle_singleton (s : σ) (x : NodeID) : Shuffle R s [x] = ([x], (R.Shuffle s 1).2) := by
  have sorted : sortByBLSKey [x] = [x] := Sorting.Slice_singleton x
  -- The only order of one index is that index.
  have drawn : (R.Shuffle s 1).1 = [0] := List.perm_singleton.mp (R.shuffle_perm s 1)
  rw [Shuffle_eq, sorted]
  simp [drawn, Rand.permute]

/-- Two members already in BLS-key order are left as they are by the sort. -/
theorem sortByBLSKey_pair {a b : NodeID} (ordered : CompareNodeIDByBLSKey a b ≠ .gt) :
    sortByBLSKey [a, b] = [a, b] := by
  rw [sortByBLSKey, Sorting.Slice_pair, @Std.OrientedCmp.eq_swap _ CompareNodeIDByBLSKey _ b a]
  cases h : CompareNodeIDByBLSKey a b <;> simp_all

/--
Two members with one BLS key tie in `Shuffle`'s sort, which keeps them in the order they came
in, so listing them the other way round changes the result, whatever the source draws.
-/
theorem Shuffle_tie (s : σ) {a b : NodeID} (different : a ≠ b)
    (sameKey : a.BlsPublicKey = b.BlsPublicKey) :
    (Shuffle R s [a, b]).1 ≠ (Shuffle R s [b, a]).1 := by
  have tie : ∀ x y : NodeID, x.BlsPublicKey = y.BlsPublicKey → sortByBLSKey [x, y] = [x, y] :=
    fun x y same =>
      sortByBLSKey_pair (by simp [CompareNodeIDByBLSKey, same, bytesCompare_eq_iff.mpr rfl])
  rw [Shuffle_eq, Shuffle_eq, tie a b sameKey, tie b a sameKey.symm]
  -- The source reads both lists in one order of two indices.
  rcases R.Shuffle_two s with drawn | drawn <;>
    simp [drawn, Rand.permute, different, Ne.symm different]

end Shuffle

/-- All members of all committees, committee by committee. -/
def members (shardState : ShardState) : List NodeID := shardState.flatMap (·.NodeList)

/--
`after` holds the committees of `before`, in some order and with their shard IDs, and its members
are those of `before` with the nodes `added`: nothing is lost and nothing copied.
-/
structure Redistribution (before after : ShardState) (added : List NodeID) : Prop where
  length_eq : after.length = before.length
  shardIDs_perm : (after.map (·.ShardID)).Perm (before.map (·.ShardID))
  members_perm : (members after).Perm (members before ++ added)

namespace Redistribution

variable {a b c : ShardState} {x y : List NodeID}

/-- Reordering the committees is a redistribution that adds nothing. -/
theorem of_perm (reordered : b.Perm a) : Redistribution a b [] where
  length_eq := reordered.length_eq
  shardIDs_perm := reordered.map _
  members_perm := by
    rw [List.append_nil]
    exact reordered.flatMap_right _

/-- Leaving the committees alone is a redistribution that adds nothing. -/
theorem refl (a : ShardState) : Redistribution a a [] := of_perm (List.Perm.refl a)

/-- Redistributions compose, adding what each adds. -/
theorem trans (first : Redistribution a b x) (second : Redistribution b c y) :
    Redistribution a c (x ++ y) where
  length_eq := second.length_eq.trans first.length_eq
  shardIDs_perm := second.shardIDs_perm.trans first.shardIDs_perm
  members_perm := calc
    (members c).Perm (members b ++ y) := second.members_perm
    _ ~ members a ++ x ++ y := first.members_perm.append_right y
    _ = members a ++ (x ++ y) := List.append_assoc ..

/-- Only the multiset of added nodes matters. -/
theorem perm_added (r : Redistribution a b x) (reordered : x.Perm y) : Redistribution a b y where
  length_eq := r.length_eq
  shardIDs_perm := r.shardIDs_perm
  members_perm := r.members_perm.trans (reordered.append_left _)

/-- If `a` is `b` with `x` added, a redistribution of `b` adding `x` and `y` adds `y` to `a`. -/
theorem cancel (out : Redistribution b a x) (whole : Redistribution b c (x ++ y)) :
    Redistribution a c y where
  length_eq := whole.length_eq.trans out.length_eq.symm
  shardIDs_perm := whole.shardIDs_perm.trans out.shardIDs_perm.symm
  members_perm := calc
    (members c).Perm (members b ++ (x ++ y)) := whole.members_perm
    _ = members b ++ x ++ y := (List.append_assoc ..).symm
    _ ~ members a ++ y := out.members_perm.symm.append_right y

/-- Giving one committee more members, keeping its shard, adds them. -/
theorem set_grow {i : Nat} {committee : Committee} (nodeList : List NodeID)
    (found : a[i]? = some committee)
    (grown : nodeList.Perm (committee.NodeList ++ x)) :
    Redistribution a (a.set i { committee with NodeList := nodeList }) x where
  length_eq := List.length_set
  shardIDs_perm := by rw [List.map_set_of_eq (·.ShardID) { committee with NodeList := nodeList } found rfl]
  members_perm := by
    have moved := List.flatMap_set_perm (·.NodeList) { committee with NodeList := nodeList } found
      (show (nodeList ++ []).Perm (committee.NodeList ++ x) by simpa using grown)
    simpa only [members, List.append_nil] using moved

/-- Taking members out of one committee, keeping its shard, is what adding them back undoes. -/
theorem set_shrink {i : Nat} {committee : Committee} (nodeList : List NodeID)
    (found : a[i]? = some committee)
    (shrunk : (nodeList ++ x).Perm committee.NodeList) :
    Redistribution (a.set i { committee with NodeList := nodeList }) a x where
  length_eq := List.length_set.symm
  shardIDs_perm := by rw [List.map_set_of_eq (·.ShardID) { committee with NodeList := nodeList } found rfl]
  members_perm := by
    have moved := List.flatMap_set_perm (·.NodeList) { committee with NodeList := nodeList } found
      (show (nodeList ++ x).Perm (committee.NodeList ++ []) by simpa using shrunk)
    simpa only [members, List.append_nil] using moved.symm

end Redistribution

/-- A committee member with account `account` and a one-byte BLS key. -/
def memberWithKey (account : String) (key : UInt8) : NodeID :=
  ⟨account, FixedBytes.ofBytes 96 [key]⟩

/-- A source whose shuffles leave every list as it is. -/
def inOrder : Go.Rand Unit := ⟨fun _ => (), fun s n => (List.range n, s), fun _ _ => List.Perm.refl _⟩

/-- Two committees of two members each, seeded with seven. -/
def twoShards : ShardingState :=
  ⟨0, 7, 2, [⟨0, [memberWithKey "one1a" 1, memberWithKey "one1b" 2]⟩,
    ⟨1, [memberWithKey "one1c" 3, memberWithKey "one1d" 4]⟩]⟩

section Stages

variable {σ : Type} (R : Go.Rand σ)

namespace ShardingState

/-- Larger first is a strict weak order, so `sort.Slice` sorts the committees by it. -/
theorem bySize_strictWeak :
    Heap.StrictWeak fun a b : Committee => decide (a.NodeList.length > b.NodeList.length) :=
  ⟨fun a b larger => by simp only [decide_eq_true_eq, decide_eq_false_iff_not] at larger ⊢; omega,
    fun a b c first second => by
      simp only [decide_eq_false_iff_not, not_lt] at first second ⊢
      omega⟩

/-- Sorting by size only reorders the committees. -/
theorem sortCommitteeBySize_perm (ss : ShardingState) :
    ss.sortCommitteeBySize.shardState.Perm ss.shardState := by
  unfold sortCommitteeBySize
  exact (Sorting.Slice_sorted bySize_strictWeak ss.shardState).1

/-- Sorting by size leaves the count of committees. -/
@[simp] theorem sortCommitteeBySize_numShards (ss : ShardingState) :
    ss.sortCommitteeBySize.numShards = ss.numShards := rfl

/-- Sorting by size only reorders the committees. -/
theorem sortCommitteeBySize_redistributes (ss : ShardingState) :
    Redistribution ss.shardState ss.sortCommitteeBySize.shardState [] :=
  .of_perm (sortCommitteeBySize_perm ss)

/--
What `Reshard`'s first loop keeps after `k` iterations over the committees `start`: it has taken
one leader per committee, adding them back gives `start`, and committees it has not reached yet
are untouched.
-/
def LeadersTaken (start : ShardState) (k : Nat) (state : List NodeID × ShardState × σ) : Prop :=
  state.1.length = k ∧ Redistribution state.2.1 start state.1 ∧
    ∀ j, k ≤ j → state.2.1[j]? = start[j]?

/-- One iteration of the first loop takes the leader of a committee it has not touched. -/
theorem takeLeaderStep_keeps {start : ShardState} (staffed : ∀ c ∈ start, c.NodeList ≠ [])
    {k : Nat} (within : k < start.length) {state : List NodeID × ShardState × σ}
    (holds : LeadersTaken start k state) :
    ∃ state', takeLeaderStep R state k = .ok state' ∧ LeadersTaken start (k + 1) state' := by
  obtain ⟨leaders, S, s⟩ := state
  obtain ⟨counted, taken, untouched⟩ := holds
  have found : S[k]? = some start[k] :=
    (untouched k (Nat.le_refl k)).trans (List.getElem?_eq_getElem within)
  -- Every committee has a leader to take.
  obtain ⟨leader, rest, listed⟩ := List.exists_cons_of_ne_nil (staffed _ (List.getElem_mem within))
  let rest' := (Shuffle R s rest).1
  refine ⟨(leaders ++ [leader], S.set k { start[k] with NodeList := rest' }, (Shuffle R s rest).2),
    ?_, ?_, ?_, ?_⟩
  · simp only [takeLeaderStep, found, listed]
    rfl
  · simp [counted]
  · -- The leader, with the shuffled rest, is what the committee held.
    have shrunk : (rest' ++ [leader]).Perm start[k].NodeList := by
      rw [listed]
      exact ((Shuffle_perm R s rest).append_right [leader]).trans (List.perm_append_singleton _ _)
    exact ((Redistribution.set_shrink rest' found shrunk).trans taken).perm_added
      List.perm_append_comm
  · intro j later
    rw [List.getElem?_set_ne (by omega)]
    exact untouched j (by omega)

/-- `Reshard`'s first loop takes one leader from every committee, and nothing else. -/
theorem takeLeaders_redistributes (start : ShardState) (staffed : ∀ c ∈ start, c.NodeList ≠ [])
    {numShards : Nat} (counted : numShards = start.length) (s : σ) :
    ∃ leaders S s', (List.range numShards).foldlM (takeLeaderStep R) ([], start, s) =
        .ok (leaders, S, s') ∧ leaders.length = numShards ∧ Redistribution S start leaders := by
  have loop : ∃ state, (List.range numShards).foldlM (takeLeaderStep R) ([], start, s) = .ok state ∧
      LeadersTaken start numShards state :=
    Except.foldlM_range (LeadersTaken start) ⟨rfl, Redistribution.refl start, fun _ _ => rfl⟩
      fun k state below holds => takeLeaderStep_keeps R staffed (counted ▸ below) holds
  obtain ⟨⟨leaders, S, s'⟩, ran, counted', taken, -⟩ := loop
  exact ⟨leaders, S, s', ran, counted', taken⟩

/-- One iteration of `assignNewNodes` adds the new node to an active committee. -/
theorem assignStep_redistributes {numActiveShards : Nat} {S : ShardState} (nonempty : 0 < S.length)
    (active : numActiveShards ≤ S.length) (entry : NodeID × Nat) :
    Redistribution S (assignStep numActiveShards S entry) [entry.1] := by
  let id := if numActiveShards > 0 then entry.2 % numActiveShards else 0
  have fits : id < S.length := by
    by_cases positive : numActiveShards > 0
    · have := Nat.mod_lt entry.2 positive
      simp only [id, if_pos positive]
      omega
    · simp only [id, if_neg positive]
      exact nonempty
  have found : S[id]? = some S[id] := List.getElem?_eq_getElem fits
  have placed : assignStep numActiveShards S entry = S.set id (appendNode entry.1 S[id]) := by
    simp only [assignStep]
    rw [if_pos fits, List.modify_of_getElem? _ found]
  rw [placed]
  exact Redistribution.set_grow _ found (List.Perm.refl _)

/-- `assignNewNodes`' loop adds every new node, and nothing else. -/
theorem assignLoop_redistributes (numActiveShards : Nat) :
    ∀ (entries : List (NodeID × Nat)) (S : ShardState), 0 < S.length →
      numActiveShards ≤ S.length →
      Redistribution S (entries.foldl (assignStep numActiveShards) S) (entries.map Prod.fst)
  | [], S, _, _ => Redistribution.refl S
  | entry :: entries, S, nonempty, active => by
    have first := assignStep_redistributes nonempty active entry
    have rest := assignLoop_redistributes numActiveShards entries _
      (first.length_eq ▸ nonempty) (first.length_eq ▸ active)
    simpa using first.trans rest

/-- `assignNewNodes` adds the new nodes to the committees, and nothing else. -/
theorem assignNewNodes_redistributes (ss : ShardingState) (newNodeList : List NodeID) (s : σ)
    (counted : ss.numShards = ss.shardState.length) (sharded : 1 ≤ ss.numShards) :
    (assignNewNodes R ss newNodeList s).1.numShards = ss.numShards ∧
      Redistribution ss.shardState (assignNewNodes R ss newNodeList s).1.shardState newNodeList := by
  have sorted := sortCommitteeBySize_redistributes ss
  have dealt := assignLoop_redistributes (ss.numShards / 2) (Shuffle R s newNodeList).1.zipIdx
    ss.sortCommitteeBySize.shardState (by rw [sorted.length_eq]; omega)
    (by rw [sorted.length_eq]; omega)
  rw [List.zipIdx_map_fst] at dealt
  exact ⟨rfl, (sorted.trans dealt).perm_added (by simpa using Shuffle_perm R s newNodeList)⟩

/-- A non-negative share never gives a negative kick count. -/
theorem kickCount_nonneg {percent : ℚ} (nonnegative : 0 ≤ percent) (n : Nat) :
    0 ≤ kickCount percent n :=
  Int.tdiv_nonneg (Rat.num_nonneg.mpr (mul_nonneg nonnegative (Nat.cast_nonneg n)))
    (Int.natCast_nonneg _)

/-- One iteration of the kicking loop moves a committee's tail to the kicked nodes. -/
theorem kickStep_keeps {percent : ℚ} (nonnegative : 0 ≤ percent) {start : ShardState} {i : Nat}
    (within : i < start.length) {state : List NodeID × ShardState}
    (holds : Redistribution state.2 start state.1) :
    ∃ state', kickStep percent state i = .ok state' ∧ Redistribution state'.2 start state'.1 := by
  obtain ⟨kicked, S⟩ := state
  have fits : i < S.length := holds.length_eq ▸ within
  have found : S[i]? = some S[i] := List.getElem?_eq_getElem fits
  -- At least one node is kicked, and never a negative number.
  have positive : 0 ≤ if kickCount percent S[i].NodeList.length = 0 then 1
      else kickCount percent S[i].NodeList.length := by
    have := kickCount_nonneg nonnegative S[i].NodeList.length
    split <;> omega
  simp only [kickStep, found]
  generalize (if kickCount percent S[i].NodeList.length = 0 then 1
    else kickCount percent S[i].NodeList.length) = numKicked at positive ⊢
  by_cases emptied : (S[i].NodeList.length : Int) - numKicked ≤ 0
  · -- Never empty a shard: the committee is left as it is.
    rw [if_pos emptied]
    exact ⟨_, rfl, holds⟩
  · rw [if_neg emptied, if_neg (not_lt.mpr positive)]
    refine ⟨_, rfl, ?_⟩
    -- The committee keeps its head, and its tail joins the kicked nodes.
    have split : ∀ cut, (S[i].NodeList.take cut ++ S[i].NodeList.drop cut).Perm S[i].NodeList := by
      intro cut
      rw [List.take_append_drop]
    exact ((Redistribution.set_shrink _ found (split _)).trans holds).perm_added
      List.perm_append_comm

/-- The kicking loop only moves nodes out of committees into the kicked list. -/
theorem kickLoop_redistributes {percent : ℚ} (nonnegative : 0 ≤ percent) (start : ShardState)
    {n : Nat} (within : n ≤ start.length) :
    ∃ kicked S, (List.range n).foldlM (kickStep percent) ([], start) = .ok (kicked, S) ∧
      Redistribution S start kicked := by
  have loop : ∃ state, (List.range n).foldlM (kickStep percent) ([], start) = .ok state ∧
      Redistribution state.2 start state.1 :=
    Except.foldlM_range_const _ (Redistribution.refl start)
      fun k state below holds => kickStep_keeps nonnegative (by omega) holds
  obtain ⟨⟨kicked, S⟩, ran, kept⟩ := loop
  exact ⟨kicked, S, ran, kept⟩

/-- One iteration of the placing loop adds a kicked node to an inactive committee. -/
theorem placeKickedStep_keeps {numActiveShards numInactiveShards : Nat} {S : ShardState}
    (inactive : 0 < numInactiveShards) (fits : numActiveShards + numInactiveShards ≤ S.length)
    (entry : NodeID × Nat) :
    ∃ S', placeKickedStep numActiveShards numInactiveShards S entry = .ok S' ∧
      Redistribution S S' [entry.1] := by
  let id := numActiveShards + entry.2 % numInactiveShards
  have below : id < S.length := by
    have := Nat.mod_lt entry.2 inactive
    omega
  have found : S[id]? = some S[id] := List.getElem?_eq_getElem below
  refine ⟨S.set id (appendNode entry.1 S[id]), ?_, Redistribution.set_grow _ found (List.Perm.refl _)⟩
  simp only [placeKickedStep, if_pos inactive]
  rw [if_pos below, List.modify_of_getElem? _ found]
  rfl

/-- The placing loop adds every kicked node, and nothing else. -/
theorem placeKickedLoop_redistributes (numActiveShards numInactiveShards : Nat)
    (inactive : 0 < numInactiveShards) :
    ∀ (entries : List (NodeID × Nat)) (S : ShardState),
      numActiveShards + numInactiveShards ≤ S.length →
      ∃ S', entries.foldlM (placeKickedStep numActiveShards numInactiveShards) S = .ok S' ∧
        Redistribution S S' (entries.map Prod.fst)
  | [], S, _ => ⟨S, rfl, Redistribution.refl S⟩
  | entry :: entries, S, fits => by
    obtain ⟨S₁, stepped, first⟩ := placeKickedStep_keeps inactive fits entry
    obtain ⟨S₂, ran, rest⟩ :=
      placeKickedLoop_redistributes numActiveShards numInactiveShards inactive entries S₁
        (first.length_eq ▸ fits)
    refine ⟨S₂, ?_, by simpa using first.trans rest⟩
    rw [List.foldlM_cons, stepped]
    exact ran

/-- `cuckooResharding` only moves nodes between committees. -/
theorem cuckooResharding_redistributes (ss : ShardingState) {percent : ℚ} (nonnegative : 0 ≤ percent)
    (s : σ) (counted : ss.numShards = ss.shardState.length) (sharded : 1 ≤ ss.numShards) :
    ∃ ss' s', cuckooResharding R ss percent s = .ok (ss', s') ∧ ss'.numShards = ss.numShards ∧
      Redistribution ss.shardState ss'.shardState [] := by
  obtain ⟨kicked, S, kickRan, kickedOut⟩ :=
    kickLoop_redistributes nonnegative ss.shardState (n := min (ss.numShards / 2) ss.shardState.length)
      (Nat.min_le_right _ _)
  -- Kicked node `i` goes to committee `N/2 + i mod (N - N/2)`, below `N`.
  obtain ⟨S', placeRan, placed⟩ :=
    placeKickedLoop_redistributes (ss.numShards / 2) (ss.numShards - ss.numShards / 2) (by omega)
      (Shuffle R s kicked).1.zipIdx S (by rw [← kickedOut.length_eq]; omega)
  refine ⟨{ ss with shardState := S' }, (Shuffle R s kicked).2, ?_, rfl, ?_⟩
  · simp only [cuckooResharding, kickRan, Except.ok_bind, placeRan]
    rfl
  · rw [List.zipIdx_map_fst] at placed
    exact kickedOut.cancel (placed.perm_added (Shuffle_perm R s kicked) |>.perm_added
      (List.Perm.of_eq (List.append_nil kicked).symm))

/-- One iteration of `Reshard`'s last loop puts leader `k` back in front of committee `k`. -/
theorem putLeaderBackStep_keeps {leaders : List NodeID} {start S : ShardState} {k : Nat}
    (enough : k < leaders.length) (within : k < start.length)
    (holds : Redistribution start S (leaders.take k)) :
    ∃ S', putLeaderBackStep leaders S k = .ok S' ∧ Redistribution start S' (leaders.take (k + 1)) := by
  have fits : k < S.length := holds.length_eq ▸ within
  have found : S[k]? = some S[k] := List.getElem?_eq_getElem fits
  refine ⟨S.set k { S[k] with NodeList := leaders[k] :: S[k].NodeList }, ?_, ?_⟩
  · simp only [putLeaderBackStep, List.getElem?_eq_getElem enough, found]
    rfl
  · have grown := Redistribution.set_grow (leaders[k] :: S[k].NodeList) found
      (List.perm_append_singleton _ _).symm
    rw [List.take_add_one, List.getElem?_eq_getElem enough]
    exact holds.trans grown

/-- `Reshard`'s last loop gives every committee its leader back. -/
theorem putLeadersBack_redistributes (leaders : List NodeID) (start : ShardState) {numShards : Nat}
    (counted : numShards = start.length) (enough : leaders.length = numShards) :
    ∃ S, (List.range numShards).foldlM (putLeaderBackStep leaders) start = .ok S ∧
      Redistribution start S leaders := by
  have loop : ∃ S, (List.range numShards).foldlM (putLeaderBackStep leaders) start = .ok S ∧
      Redistribution start S (leaders.take numShards) :=
    Except.foldlM_range (fun k S => Redistribution start S (leaders.take k))
      (Redistribution.refl start)
      fun k S below holds => putLeaderBackStep_keeps (by omega) (by omega) holds
  obtain ⟨S, ran, placed⟩ := loop
  rw [← enough, List.take_length] at placed
  exact ⟨S, ran, placed⟩

/--
`Reshard` only redistributes: on committees that all have members and are counted by `numShards`,
it returns, and its committees are the old ones, by shard ID, holding the old members and the new
nodes.
-/
theorem Reshard_redistributes (ss : ShardingState) (newNodeList : List NodeID) {percent : ℚ}
    (counted : ss.numShards = ss.shardState.length) (sharded : 1 ≤ ss.numShards)
    (staffed : ∀ c ∈ ss.shardState, c.NodeList ≠ []) (nonnegative : 0 ≤ percent) :
    ∃ ss', ss.Reshard R newNodeList percent = .ok ss' ∧
      ss'.shardState.length = ss.shardState.length ∧
      (ss'.shardState.map (·.ShardID)).Perm (ss.shardState.map (·.ShardID)) ∧
      (ss'.shardState.flatMap (·.NodeList)).Perm
        (ss.shardState.flatMap (·.NodeList) ++ newNodeList) := by
  have sorted := sortCommitteeBySize_redistributes ss
  -- Sorting only reorders, so every committee still has a leader to take.
  have staffed₁ : ∀ c ∈ ss.sortCommitteeBySize.shardState, c.NodeList ≠ [] := fun c listed =>
    staffed c ((sortCommitteeBySize_perm ss).mem_iff.mp listed)
  obtain ⟨leaders, S₂, s₂, takeRan, enough, taken⟩ := takeLeaders_redistributes R
    ss.sortCommitteeBySize.shardState staffed₁ (counted.trans sorted.length_eq.symm) (R.Seed ss.rnd)
  -- Every stage keeps the count of committees, and `numShards` with it.
  have length₂ : S₂.length = ss.numShards := by
    rw [← taken.length_eq, sorted.length_eq, counted]
  obtain ⟨kept₃, assigned⟩ := assignNewNodes_redistributes R
    { ss.sortCommitteeBySize with shardState := S₂ } newNodeList s₂ length₂.symm sharded
  generalize assignEq : assignNewNodes R { ss.sortCommitteeBySize with shardState := S₂ }
    newNodeList s₂ = assignment at kept₃ assigned
  obtain ⟨ss₃, s₃⟩ := assignment
  simp only [sortCommitteeBySize_numShards] at assignEq
  have counted₃ : ss₃.numShards = ss₃.shardState.length := by
    rw [kept₃, assigned.length_eq]
    exact length₂.symm
  obtain ⟨ss₄, s₄, cuckooRan, kept₄, cuckooed⟩ :=
    cuckooResharding_redistributes R ss₃ nonnegative s₃ counted₃ (by rw [kept₃]; exact sharded)
  obtain ⟨S₅, putRan, put⟩ := putLeadersBack_redistributes leaders ss₄.shardState
    (kept₄.trans (counted₃.trans cuckooed.length_eq.symm)) (enough.trans (kept₄.trans kept₃).symm)
  refine ⟨{ ss₄ with shardState := S₅ }, ?_, ?_⟩
  · simp only [Reshard, sortCommitteeBySize_numShards, takeRan, Except.ok_bind, assignEq, cuckooRan,
      putRan]
    rfl
  · -- Taking the leaders out is undone by putting them back; only the new nodes remain added.
    have whole := (assigned.trans cuckooed).trans put
    have total := sorted.trans (taken.cancel (whole.perm_added (by simpa using List.perm_append_comm)))
    exact ⟨total.length_eq, total.shardIDs_perm, by simpa [members] using total.members_perm⟩

end ShardingState

end Stages

theorem Reshard_redistributes_two_shards :
    ∃ ss', twoShards.Reshard inOrder [memberWithKey "one1e" 5] (1 / 10) = .ok ss' ∧
      ss'.shardState.length = twoShards.shardState.length ∧
      (ss'.shardState.map (·.ShardID)).Perm (twoShards.shardState.map (·.ShardID)) ∧
      (ss'.shardState.flatMap (·.NodeList)).Perm
        (twoShards.shardState.flatMap (·.NodeList) ++ [memberWithKey "one1e" 5]) :=
  ShardingState.Reshard_redistributes inOrder twoShards _ rfl (by decide) (by decide) (by norm_num)

section BeaconProposal

/-- The leader of the beacon committee; its BLS key sorts after its member's. -/
def beaconLeader : NodeID := memberWithKey "one1leader" 2

/-- The other member of the beacon committee. -/
def beaconMember : NodeID := memberWithKey "one1member" 1

/-- A beacon chain whose epoch zero has one committee, shard zero: the leader, then the member. -/
def beaconChain : ShardingChain where
  ReadShardState _ := .ok [⟨0, [beaconLeader, beaconMember]⟩]
  GetRandSeedByNumber _ := FixedBytes.zero 32
  GetInitShardState := []

/-- The last block of epoch zero on the beacon chain. -/
def epochLastBlock : Block where
  header := {
    ParentHash := FixedBytes.zero 32, Root := FixedBytes.zero 32, TxHash := FixedBytes.zero 32
    ReceiptHash := FixedBytes.zero 32, Bloom := [], Number := BlocksPerEpoch - 1, GasLimit := 0
    GasUsed := 0, Epoch := 0, ShardID := 0, PrepareSignature := FixedBytes.zero 48
    PrepareBitmap := [], CommitSignature := FixedBytes.zero 48, CommitBitmap := []
    RandSeed := FixedBytes.zero 32, ShardStateHash := FixedBytes.zero 32, ShardState := [] }
  transactions := []

variable {σ : Type} (R : Go.Rand σ)

/--
A lone committee with no new nodes keeps its leader first: there is no active committee to kick
from, and the rest is only shuffled.
-/
theorem Reshard_lone_committee (epoch : Nat) (rnd : UInt64) (shardID : Nat) (leader : NodeID)
    (rest : List NodeID) (percent : ℚ) :
    ShardingState.Reshard R ⟨epoch, rnd, 1, [⟨shardID, leader :: rest⟩]⟩ [] percent =
      .ok ⟨epoch, rnd, 1, [⟨shardID, leader :: (Shuffle R (R.Seed rnd) rest).1⟩]⟩ := by
  simp [ShardingState.Reshard, ShardingState.sortCommitteeBySize, Sorting.Slice_singleton,
    ShardingState.takeLeaderStep, ShardingState.assignNewNodes, Shuffle_nil, ShardingState.cuckooResharding,
    ShardingState.putLeaderBackStep]

/-- With no active committee, every new node joins the first committee, in order. -/
theorem assignLoop_inactive (c : Committee) (others : ShardState) (entries : List (NodeID × Nat)) :
    entries.foldl (ShardingState.assignStep 0) (c :: others) =
      { c with NodeList := c.NodeList ++ entries.map Prod.fst } :: others := by
  induction entries generalizing c with
  | nil => simp
  | cons entry entries ih =>
    -- Index zero is the only one the loop picks when no committee is active.
    have joined : ShardingState.assignStep 0 (c :: others) entry =
        ShardingState.appendNode entry.1 c :: others := by
      simp [ShardingState.assignStep]
    rw [List.foldl_cons, joined, ih]
    simp [ShardingState.appendNode]

/--
A lone committee takes the new nodes after its shuffled members, shuffled in turn: with one shard
there is no active committee, so the new nodes go to the first one and nobody is kicked.
-/
theorem Reshard_lone_committee_joined (epoch : Nat) (rnd : UInt64) (shardID : Nat)
    (leader : NodeID) (rest newNodeList : List NodeID) (percent : ℚ) :
    ShardingState.Reshard R ⟨epoch, rnd, 1, [⟨shardID, leader :: rest⟩]⟩ newNodeList percent =
      .ok ⟨epoch, rnd, 1, [⟨shardID, leader :: ((Shuffle R (R.Seed rnd) rest).1 ++
        (Shuffle R (Shuffle R (R.Seed rnd) rest).2 newNodeList).1)⟩]⟩ := by
  simp [ShardingState.Reshard, ShardingState.sortCommitteeBySize, Sorting.Slice_singleton,
    ShardingState.takeLeaderStep, ShardingState.assignNewNodes, Shuffle_nil, ShardingState.cuckooResharding,
    ShardingState.putLeaderBackStep, assignLoop_inactive]

/-- Recomputing the beacon committee keeps its leader first, whatever the source draws. -/
theorem beaconChain_recomputed (Hex : Address → String) :
    CalculateNewShardState R Hex beaconChain 1 [] = .ok (.ok [⟨0, [beaconLeader, beaconMember]⟩]) := by
  have updated : ∀ ss, ShardingState.UpdateShardingState Hex ss [] = [] := fun _ => rfl
  simp only [CalculateNewShardState, GenesisEpoch, one_ne_zero, ↓reduceIte, Nat.sub_self,
    GetShardingStateFromBlockChain, beaconChain, List.length_singleton, Except.pure_eq_ok,
    Except.ok_bind, updated, Reshard_lone_committee, Shuffle_singleton]

/-- A proposal that reaches the header was stored as `Hash` leaves it. -/
theorem beaconChain_proposed (Keccak256 : Bytes → Bytes) (Hex : Address → String) :
    ∃ proposal, proposeBeaconShardState R Keccak256 Hex beaconChain [] epochLastBlock =
        .ok (.ok proposal) ∧
      proposal.header.ShardState = (ShardState.Hash Keccak256 [⟨0, [beaconLeader, beaconMember]⟩]).2 := by
  have last : IsEpochLastBlock epochLastBlock = true := by decide
  have recomputed := beaconChain_recomputed R Hex
  refine ⟨epochLastBlock.AddShardState Keccak256 [⟨0, [beaconLeader, beaconMember]⟩], ?_, rfl⟩
  simp only [proposeBeaconShardState, last, Bool.not_true, Bool.false_eq_true, ↓reduceIte]
  rw [show epochLastBlock.header.Epoch + 1 = 1 from rfl, recomputed]
  rfl

/--
The beacon leader's proposal and a validator's recomputation differ on a chain with one committee
whose leader's BLS key sorts after its member's, for every random source, hash and account
encoding: the recomputation keeps the leader first, and the header stores the committee sorted by
BLS key. The stake map is empty, so its iteration order plays no part.
-/
theorem beacon_recomputation_differs_from_proposal (Keccak256 : Bytes → Bytes)
    (Hex : Address → String) :
    ∃ proposal,
      CalculateNewShardState R Hex beaconChain (epochLastBlock.header.Epoch + 1) [] =
        .ok (.ok [⟨0, [beaconLeader, beaconMember]⟩]) ∧
      proposeBeaconShardState R Keccak256 Hex beaconChain [] epochLastBlock = .ok (.ok proposal) ∧
      proposal.header.ShardState = [⟨0, [beaconMember, beaconLeader]⟩] ∧
      CompareShardState [⟨0, [beaconLeader, beaconMember]⟩] proposal.header.ShardState ≠ .eq := by
  obtain ⟨proposal, proposed, stored⟩ := beaconChain_proposed R Keccak256 Hex
  -- `Hash` sorts the member, whose BLS key is smaller, before the leader.
  have swapped : CompareNodeIDByBLSKey beaconMember beaconLeader = .lt := by decide
  have sorted : (ShardState.Hash Keccak256 [⟨0, [beaconLeader, beaconMember]⟩]).2 =
      [⟨0, [beaconMember, beaconLeader]⟩] := by
    simp [ShardState.Hash, GetHashFromNodeList, sortByBLSKey, Sorting.Slice_singleton,
      Sorting.Slice_pair, swapped]
  rw [sorted] at stored
  refine ⟨proposal, beaconChain_recomputed R Hex, proposed, stored, ?_⟩
  rw [stored]
  decide

end BeaconProposal

section ListingOrder

variable {σ : Type} (R : Go.Rand σ)

/-- Two nodes with one BLS key and two accounts. -/
def sharedKeyNodes : NodeID × NodeID := (memberWithKey "one1x" 9, memberWithKey "one1y" 9)

/--
`Shuffle`'s result depends on the order of its input when two distinct nodes share a BLS key, for
every source and state: its sort compares BLS keys alone. So does `Reshard`'s: a lone committee
takes the new nodes in the order `Shuffle` leaves them, and two such nodes listed the other way
round end in the other order.
-/
theorem Shuffle_depends_on_listing_order (s : σ) {a b : NodeID} (different : a ≠ b)
    (sameKey : a.BlsPublicKey = b.BlsPublicKey) (epoch : Nat) (rnd : UInt64) (shardID : Nat)
    (leader : NodeID) (rest : List NodeID) (percent : ℚ) :
    (Shuffle R s [a, b]).1 ≠ (Shuffle R s [b, a]).1 ∧
      ShardingState.Reshard R ⟨epoch, rnd, 1, [⟨shardID, leader :: rest⟩]⟩ [a, b] percent ≠
        ShardingState.Reshard R ⟨epoch, rnd, 1, [⟨shardID, leader :: rest⟩]⟩ [b, a] percent := by
  refine ⟨Shuffle_tie R s different sameKey, ?_⟩
  rw [Reshard_lone_committee_joined, Reshard_lone_committee_joined]
  -- The committees differ in the new nodes' order, which the shuffle after the members decides.
  intro same
  simp only [Except.ok.injEq, ShardingState.mk.injEq, List.cons.injEq, Committee.mk.injEq,
    List.append_cancel_left_eq, and_true, true_and] at same
  exact Shuffle_tie R _ different sameKey same

theorem Shuffle_depends_on_listing_order_in_order :
    (sharedKeyNodes.1 ≠ sharedKeyNodes.2 ∧
      sharedKeyNodes.1.BlsPublicKey = sharedKeyNodes.2.BlsPublicKey) ∧
    (Shuffle inOrder () [sharedKeyNodes.1, sharedKeyNodes.2]).1 ≠
        (Shuffle inOrder () [sharedKeyNodes.2, sharedKeyNodes.1]).1 ∧
      ShardingState.Reshard inOrder ⟨1, 7, 1, [⟨0, [beaconLeader]⟩]⟩
          [sharedKeyNodes.1, sharedKeyNodes.2] (1 / 10) ≠
        ShardingState.Reshard inOrder ⟨1, 7, 1, [⟨0, [beaconLeader]⟩]⟩
          [sharedKeyNodes.2, sharedKeyNodes.1] (1 / 10) := by
  have different : sharedKeyNodes.1 ≠ sharedKeyNodes.2 := by decide
  have sameKey : sharedKeyNodes.1.BlsPublicKey = sharedKeyNodes.2.BlsPublicKey := rfl
  exact ⟨⟨different, sameKey⟩, Shuffle_depends_on_listing_order inOrder () different sameKey 1 7 0
    beaconLeader [] (1 / 10)⟩

end ListingOrder

end Core

end Harmony
