import Harmony.Proofs.Core.Resharding
import Harmony.Lib.RoundRobin

/-!
Where `Reshard` (`core/resharding.go`) puts every node, committee by committee.

`Reshard_redistributes` follows the multiset of members; the lemmas here follow each position of
the committee list through the stages. The leaders are taken out by position after the sort by
size and put back by position at the end. In between, the second sort finds the committees still
in order, since each lost one member, and the other stages only shorten or lengthen member lists
in place. For at most 12 committees Go's `sort.Slice` is an insertion sort, which leaves them
where they are, so every committee gets its own leader back. Past 12 it partitions round a pivot
and may exchange committees of one size, and a leader can land on another shard. The new nodes are
dealt round the largest committees and the kicked nodes round the others, as a round robin
(`List.roundRobin`), so no two receiving committees get counts more than one apart.
-/

namespace Harmony

/-- A committee with `nodes` appended to its members. -/
def Committee.withNodes (c : Committee) (nodes : List NodeID) : Committee :=
  { c with NodeList := c.NodeList ++ nodes }

@[simp] theorem Committee.withNodes_nil (c : Committee) : c.withNodes [] = c := by
  simp [Committee.withNodes]

@[simp] theorem Committee.withNodes_withNodes (c : Committee) (nodes more : List NodeID) :
    (c.withNodes nodes).withNodes more = c.withNodes (nodes ++ more) := by
  simp [Committee.withNodes]

namespace Core

/--
How many members the cuckoo rule leaves a committee of `size`: it kicks out
`max(1, ⌊percent * size⌋)`, unless that would leave none.
-/
def keptAfterKick (percent : ℚ) (size : Nat) : Nat :=
  if max 1 ⌊percent * size⌋₊ < size then size - max 1 ⌊percent * size⌋₊ else size

/-- A committee after the cuckoo rule: its first `keptAfterKick` members. -/
def kickedCommittee (percent : ℚ) (c : Committee) : Committee :=
  { c with NodeList := c.NodeList.take (keptAfterKick percent c.NodeList.length) }

/-- The members the cuckoo rule kicks out of a committee: the rest. -/
def kickedTail (percent : ℚ) (c : Committee) : List NodeID :=
  c.NodeList.drop (keptAfterKick percent c.NodeList.length)

/-- For a share of at least zero, Go's truncation of the product is its floor. -/
theorem kickCount_eq_floor {percent : ℚ} (nonnegative : 0 ≤ percent) (n : Nat) :
    kickCount percent n = ⌊percent * n⌋₊ := by
  have product : 0 ≤ percent * n := mul_nonneg nonnegative (Nat.cast_nonneg n)
  rw [kickCount, Int.tdiv_eq_ediv, if_pos (.inl (Rat.num_nonneg.mpr product)), Int.add_zero,
    ← Rat.floor_def', Int.natCast_floor_eq_floor product]

namespace ShardingState

/--
One iteration of the kicking loop on a committee it holds: the committee keeps its head, and its
tail joins the kicked nodes.
-/
theorem kickStep_eq {percent : ℚ} (nonnegative : 0 ≤ percent) (kicked : List NodeID)
    {S : ShardState} {i : Nat} {c : Committee} (found : S[i]? = some c) :
    kickStep percent (kicked, S) i =
      .ok (kicked ++ kickedTail percent c, S.set i (kickedCommittee percent c)) := by
  -- Go's count: at least one, and the floor of the share otherwise.
  generalize counted : max 1 ⌊percent * c.NodeList.length⌋₊ = numKicked
  have count : (if kickCount percent c.NodeList.length = 0 then 1
      else kickCount percent c.NodeList.length) = (numKicked : Int) := by
    rw [kickCount_eq_floor nonnegative, ← counted]
    split <;> omega
  simp only [kickStep, found, count, kickedTail, kickedCommittee, keptAfterKick, counted]
  by_cases emptied : numKicked < c.NodeList.length
  · rw [if_neg (by omega), if_neg (by omega), if_pos emptied, Int.toNat_natCast]
    rfl
  · -- Never empty a shard: the committee keeps all it has, and nothing is kicked.
    obtain ⟨within, rfl⟩ := List.getElem?_eq_some_iff.mp found
    rw [if_pos (by omega), if_neg emptied, List.drop_length, List.take_length, List.append_nil]
    rw [show ({ S[i] with NodeList := S[i].NodeList } : Committee) = S[i] from rfl,
      List.set_getElem_self within]
    rfl

/--
The kicking loop over the first `n` committees: each of them is cut to what the cuckoo rule keeps,
and their tails, in order, are the kicked nodes.
-/
theorem kickLoop_eq {percent : ℚ} (nonnegative : 0 ≤ percent) (S : ShardState) {n : Nat}
    (within : n ≤ S.length) :
    (List.range n).foldlM (kickStep percent) ([], S) =
      .ok ((S.take n).flatMap (kickedTail percent),
        (S.take n).map (kickedCommittee percent) ++ S.drop n) := by
  induction n with
  | zero => simp
  | succ n ih =>
    -- Iteration `n` finds committee `n` as it was, and cuts it.
    have below : n < S.length := by omega
    have found : ((S.take n).map (kickedCommittee percent) ++ S.drop n)[n]? = some S[n] := by
      rw [List.getElem?_map_take_append_drop, List.getElem?_eq_getElem below]
      simp
    rw [List.range_succ, List.foldlM_append, ih (by omega)]
    show List.foldlM (kickStep percent) _ [n] = _
    rw [List.foldlM_cons, kickStep_eq nonnegative _ found, List.set_map_take_append_drop _ below,
      @List.take_add_one _ S n, List.getElem?_eq_getElem below]
    simp only [Option.toList_some, List.flatMap_append, List.flatMap_cons, List.flatMap_nil,
      List.append_nil, List.foldlM_nil, Except.ok_bind]
    rfl

@[simp] theorem appendNode_eq (nid : NodeID) (c : Committee) :
    appendNode nid c = c.withNodes [nid] :=
  rfl

/-- Node number `j` of a deal joins committee `off + j % m`. -/
def dealStep (off m : Nat) (S : ShardState) (entry : NodeID × Nat) : ShardState :=
  S.modify (off + entry.2 % m) (appendNode entry.1)

/--
Dealing `xs`, counted from `k`, round committees `off` to `off + m - 1`: committee `off + b` gets
seat `b` of the round robin, and the others nothing.
-/
theorem dealLoop_getElem? (off : Nat) {m : Nat} (seated : 0 < m) (xs : List NodeID) (k : Nat)
    (S : ShardState) (i : Nat) :
    ((xs.zipIdx k).foldl (dealStep off m) S)[i]? = S[i]?.map fun c =>
      if off ≤ i ∧ i < off + m then c.withNodes (xs.roundRobin m k (i - off)) else c := by
  induction xs generalizing k S with
  | nil => simp
  | cons x xs ih =>
    rw [List.zipIdx_cons, List.foldl_cons, ih, dealStep, List.getElem?_modify]
    cases S[i]? with
    | none => rfl
    | some c =>
      -- The first node goes to seat `k % m`, which is committee `i` exactly when `i - off` is it.
      have seat := Nat.mod_lt k seated
      by_cases within : off ≤ i ∧ i < off + m
      · by_cases here : off + k % m = i
        · simp [within, List.roundRobin_cons, show k % m = i - off by omega]
        · simp [within, here, List.roundRobin_cons, show k % m ≠ i - off by omega]
      · have elsewhere : off + k % m ≠ i := by omega
        simp [within, elsewhere]

/-- `assignNewNodes`' step deals round the active committees, or round committee 0 alone. -/
theorem assignStep_eq (numActiveShards : Nat) :
    assignStep numActiveShards = dealStep 0 (max 1 numActiveShards) := by
  funext S entry
  have seat : (if numActiveShards > 0 then entry.2 % numActiveShards else 0) =
      0 + entry.2 % max 1 numActiveShards := by
    by_cases active : numActiveShards > 0
    · simp [active, Nat.max_eq_right active]
    · have none : numActiveShards = 0 := by omega
      simp [none, Nat.mod_one]
  simp only [assignStep, dealStep, seat]
  split
  · rfl
  · -- A committee past the end is only logged: the list is left as it was.
    rename_i past
    exact (List.modify_eq_self (Nat.le_of_not_lt past)).symm

/-- With room for every inactive committee, the placing loop never panics: it is a deal. -/
theorem placeKickedLoop_eq {numActiveShards numInactiveShards : Nat}
    (inactive : 0 < numInactiveShards) (xs : List NodeID) (k : Nat) (S : ShardState)
    (fits : numActiveShards + numInactiveShards ≤ S.length) :
    (xs.zipIdx k).foldlM (placeKickedStep numActiveShards numInactiveShards) S =
      .ok ((xs.zipIdx k).foldl (dealStep numActiveShards numInactiveShards) S) := by
  induction xs generalizing k S with
  | nil => rfl
  | cons x xs ih =>
    have seat := Nat.mod_lt k inactive
    have placed : placeKickedStep numActiveShards numInactiveShards S (x, k) =
        .ok (dealStep numActiveShards numInactiveShards S (x, k)) := by
      simp only [placeKickedStep, if_pos inactive, dealStep]
      rw [if_pos (by omega)]
      rfl
    rw [List.zipIdx_cons, List.foldlM_cons, List.foldl_cons, placed, Except.ok_bind,
      ih (k + 1) _ (by simpa [dealStep] using fits)]

section Cuckoo

variable {σ : Type} (R : Go.Rand σ)

/--
`cuckooResharding` committee by committee: each of the first `N/2` committees is cut to what the
cuckoo rule keeps, and committee `N/2 + b` of the rest gets seat `b` of the kicked nodes, shuffled
and dealt round the `N - N/2` inactive committees.
-/
theorem cuckooResharding_getElem? (ss : ShardingState) {percent : ℚ} (nonnegative : 0 ≤ percent)
    (s : σ) (counted : ss.numShards = ss.shardState.length) :
    ∃ (ss' : ShardingState) (s' : σ) (dealt : List NodeID),
      cuckooResharding R ss percent s = .ok (ss', s') ∧
      ss'.numShards = ss.numShards ∧
      dealt.Perm ((ss.shardState.take (ss.numShards / 2)).flatMap (kickedTail percent)) ∧
      ∀ i, ss'.shardState[i]? = ss.shardState[i]?.map fun c =>
        if i < ss.numShards / 2 then kickedCommittee percent c
        else c.withNodes (dealt.roundRobin (ss.numShards - ss.numShards / 2) 0
          (i - ss.numShards / 2)) := by
  generalize active : ss.numShards / 2 = a
  generalize inactive : ss.numShards - a = b
  have kickRan := kickLoop_eq nonnegative ss.shardState (n := a) (by omega)
  generalize kickedOut : (ss.shardState.take a).map (kickedCommittee percent) ++
    ss.shardState.drop a = S₁ at kickRan
  generalize dealing : Shuffle R s ((ss.shardState.take a).flatMap (kickedTail percent)) = shuffled
  obtain ⟨dealt, s'⟩ := shuffled
  have dealtPerm : dealt.Perm ((ss.shardState.take a).flatMap (kickedTail percent)) := by
    have := Shuffle_perm R s ((ss.shardState.take a).flatMap (kickedTail percent))
    rwa [dealing] at this
  have length₁ : S₁.length = ss.shardState.length := by
    rw [← kickedOut]
    simp
    omega
  -- With no committee at all there is nothing to kick, and the placing loop does not run.
  obtain ⟨S₂, placeRan, placed⟩ : ∃ S₂, dealt.zipIdx.foldlM (placeKickedStep a b) S₁ = .ok S₂ ∧
      ∀ i, S₂[i]? = S₁[i]?.map fun c =>
        if a ≤ i ∧ i < a + b then c.withNodes (dealt.roundRobin b 0 (i - a)) else c := by
    by_cases seated : 0 < b
    · exact ⟨_, placeKickedLoop_eq seated dealt 0 S₁ (by omega),
        dealLoop_getElem? a seated dealt 0 S₁⟩
    · have none : ss.shardState = [] := List.eq_nil_of_length_eq_zero (by omega)
      have noneDealt : dealt = [] := by simpa [none] using dealtPerm
      refine ⟨S₁, by rw [noneDealt]; rfl, fun i => ?_⟩
      rw [noneDealt]
      cases S₁[i]? <;> simp
  refine ⟨{ ss with shardState := S₂ }, s', dealt, ?_, rfl, dealtPerm, fun i => ?_⟩
  · simp only [cuckooResharding, active, Nat.min_eq_left (by omega : a ≤ ss.shardState.length),
      kickRan, Except.ok_bind, dealing, inactive, placeRan]
    rfl
  · show S₂[i]? = _
    rw [placed, ← kickedOut, List.getElem?_map_take_append_drop]
    -- Committee `i` is below the count: among the first `a` it was cut, otherwise it is dealt to.
    cases found : ss.shardState[i]? with
    | none => rfl
    | some c =>
      have within : i < ss.shardState.length := (List.getElem?_eq_some_iff.mp found).1
      by_cases kicking : i < a
      · simp [kicking]
      · simp [kicking, show a ≤ i ∧ i < a + b by omega]

/--
`Reshard`'s first loop after `k` iterations over the committees `start`, position by position: the
leaders taken are the heads of the first `k` committees, each of those committees has lost one
member and kept its shard, and the committees from `k` on are untouched.
-/
def LeadersTakenAt (start : ShardState) (k : Nat) (state : List NodeID × ShardState × σ) : Prop :=
  state.1.map some = (start.take k).map (·.NodeList.head?) ∧
    (∀ i, k ≤ i → state.2.1[i]? = start[i]?) ∧
    ∀ i, i < k → state.2.1[i]?.map (fun c => (c.ShardID, c.NodeList.length)) =
      start[i]?.map (fun c => (c.ShardID, c.NodeList.length - 1))

/-- One iteration of the first loop takes the head of the next committee. -/
theorem takeLeaderStep_at {start : ShardState} (staffed : ∀ c ∈ start, c.NodeList ≠ [])
    {k : Nat} (within : k < start.length) {state : List NodeID × ShardState × σ}
    (holds : LeadersTakenAt start k state) :
    ∃ state', takeLeaderStep R state k = .ok state' ∧ LeadersTakenAt start (k + 1) state' := by
  obtain ⟨leaders, S, s⟩ := state
  obtain ⟨taken, untouched, shrunk⟩ := holds
  simp only at taken untouched shrunk
  have found : S[k]? = some start[k] :=
    (untouched k (Nat.le_refl k)).trans (List.getElem?_eq_getElem within)
  have held : k < S.length := (List.getElem?_eq_some_iff.mp found).1
  obtain ⟨leader, rest, listed⟩ := List.exists_cons_of_ne_nil (staffed _ (List.getElem_mem within))
  refine ⟨(leaders ++ [leader], S.set k { start[k] with NodeList := (Shuffle R s rest).1 },
    (Shuffle R s rest).2), ?_, ?_, ?_, ?_⟩
  · simp only [takeLeaderStep, found, listed]
    rfl
  · -- The new leader is the head of committee `k`.
    show (leaders ++ [leader]).map some = _
    rw [List.map_append, taken, List.take_add_one, List.map_append, List.getElem?_eq_getElem within,
      Option.toList_some, List.map_singleton, List.map_singleton, listed]
    rfl
  · intro i later
    rw [List.getElem?_set_ne (by omega)]
    exact untouched i (by omega)
  · intro i below
    by_cases here : i = k
    · -- Committee `k` keeps its shard and the shuffled rest, one member fewer.
      subst here
      rw [List.getElem?_set_self held, List.getElem?_eq_getElem within]
      simp [listed, (Shuffle_perm R s rest).length_eq]
    · rw [List.getElem?_set_ne (Ne.symm here)]
      exact shrunk i (by omega)

/--
`Reshard`'s first loop, position by position: the leaders are the heads of the committees in
order, and each committee keeps its shard and loses one member.
-/
theorem takeLeaders_getElem? (start : ShardState) (staffed : ∀ c ∈ start, c.NodeList ≠ [])
    {numShards : Nat} (counted : numShards = start.length) (s : σ) :
    ∃ (leaders : List NodeID) (S : ShardState) (s' : σ),
      (List.range numShards).foldlM (takeLeaderStep R) ([], start, s) = .ok (leaders, S, s') ∧
      leaders.map some = start.map (·.NodeList.head?) ∧
      ∀ i : Nat, S[i]?.map (fun c => (c.ShardID, c.NodeList.length)) =
        start[i]?.map (fun c => (c.ShardID, c.NodeList.length - 1)) := by
  have loop : ∃ state, (List.range numShards).foldlM (takeLeaderStep R) ([], start, s) =
      .ok state ∧ LeadersTakenAt start numShards state :=
    Except.foldlM_range (LeadersTakenAt start) ⟨rfl, fun _ _ => rfl, fun _ below => by omega⟩
      fun k state below holds => takeLeaderStep_at R staffed (counted ▸ below) holds
  obtain ⟨⟨leaders, S, s'⟩, ran, taken, untouched, shrunk⟩ := loop
  refine ⟨leaders, S, s', ran, by rwa [counted, List.take_length] at taken, fun i => ?_⟩
  by_cases below : i < numShards
  · exact shrunk i below
  · -- Past the last committee there is nothing on either side.
    rw [untouched i (by omega), List.getElem?_eq_none (by omega)]
    rfl

/-- Sorting by size leaves no committee before a larger one. -/
theorem sortCommitteeBySize_sorted (ss : ShardingState) :
    ss.sortCommitteeBySize.shardState.Pairwise
      (fun c d => d.NodeList.length ≤ c.NodeList.length) := by
  have sorted := (Go.Sorting.Slice_sorted bySize_strictWeak ss.shardState).2
  simpa [sortCommitteeBySize] using sorted

/--
`assignNewNodes` committee by committee: after sorting by size, committee `b` of the first
`max(1, N/2)` gets seat `b` of the new nodes, shuffled and dealt round them, and the others nothing.
-/
theorem assignNewNodes_getElem? (ss : ShardingState) (newNodeList : List NodeID) (s : σ) :
    ∃ dealt : List NodeID, dealt.Perm newNodeList ∧
      (assignNewNodes R ss newNodeList s).1.numShards = ss.numShards ∧
      ∀ i : Nat, (assignNewNodes R ss newNodeList s).1.shardState[i]? =
        ss.sortCommitteeBySize.shardState[i]?.map fun c =>
          if i < max 1 (ss.numShards / 2) then
            c.withNodes (dealt.roundRobin (max 1 (ss.numShards / 2)) 0 i)
          else c := by
  refine ⟨(Shuffle R s newNodeList).1, Shuffle_perm R s newNodeList, rfl, fun i => ?_⟩
  simp only [assignNewNodes, assignStep_eq, sortCommitteeBySize_numShards]
  rw [dealLoop_getElem? 0 (by omega)]
  simp

/-- `assignNewNodes` leaves the committees sorted by size, the largest first. -/
theorem assignNewNodes_sorted (ss : ShardingState) (newNodeList : List NodeID) (s : σ) :
    (assignNewNodes R ss newNodeList s).1.shardState.Pairwise
      (fun c d => d.NodeList.length ≤ c.NodeList.length) := by
  obtain ⟨dealt, -, -, pointwise⟩ := assignNewNodes_getElem? R ss newNodeList s
  generalize seats : max 1 (ss.numShards / 2) = m at pointwise
  have seated : 0 < m := by omega
  have shape : (assignNewNodes R ss newNodeList s).1.shardState =
      ss.sortCommitteeBySize.shardState.mapIdx fun i c =>
        if i < m then c.withNodes (dealt.roundRobin m 0 i) else c :=
    List.ext_getElem? fun i => by rw [pointwise, List.getElem?_mapIdx]
  rw [shape, List.pairwise_iff_getElem]
  intro i j first second order
  have base := List.pairwise_iff_getElem.mp (sortCommitteeBySize_sorted ss) i j
    (by simpa using first) (by simpa using second) order
  simp only [List.getElem_mapIdx]
  -- An earlier committee was no smaller, and an earlier seat gets no fewer new nodes.
  by_cases later : j < m
  · have fewer := List.length_roundRobin_antitone seated dealt (Nat.le_of_lt order) later
    simp [Committee.withNodes, later, show i < m by omega]
    omega
  · by_cases earlier : i < m
    · simp [Committee.withNodes, later, earlier]
      omega
    · simp [later, earlier]
      exact base

/-- A committee with `leader` put back in front. -/
def withLeader (leader : NodeID) (c : Committee) : Committee :=
  { c with NodeList := leader :: c.NodeList }

/--
`Reshard`'s last loop after `k` iterations over the committees `S`: the first `k` have their
leaders back in front, and the rest are as they were.
-/
def LeadersPutBack (leaders : List NodeID) (S : ShardState) (k : Nat) (T : ShardState) : Prop :=
  ∀ i, T[i]? = if i < k then (List.zipWith withLeader leaders S)[i]? else S[i]?

/-- One iteration of the last loop puts the next leader back. -/
theorem putLeaderBackStep_at {leaders : List NodeID} {S T : ShardState} {k : Nat}
    (enough : S.length ≤ leaders.length) (below : k < S.length)
    (holds : LeadersPutBack leaders S k T) :
    ∃ T', putLeaderBackStep leaders T k = .ok T' ∧ LeadersPutBack leaders S (k + 1) T' := by
  have found : T[k]? = some S[k] := by
    rw [holds, if_neg (by omega), List.getElem?_eq_getElem below]
  have held : k < T.length := (List.getElem?_eq_some_iff.mp found).1
  refine ⟨T.set k (withLeader leaders[k] S[k]), ?_, fun i => ?_⟩
  · simp only [putLeaderBackStep, List.getElem?_eq_getElem (by omega : k < leaders.length), found]
    rfl
  · by_cases here : i = k
    · subst here
      rw [List.getElem?_set_self held, if_pos (by omega), List.getElem?_zipWith,
        List.getElem?_eq_getElem (by omega : i < leaders.length), List.getElem?_eq_getElem below]
    · rw [List.getElem?_set_ne (Ne.symm here), holds]
      by_cases earlier : i < k
      · rw [if_pos earlier, if_pos (by omega)]
      · rw [if_neg earlier, if_neg (by omega)]

/--
`Reshard`'s last loop, with a leader for every committee, puts leader `i` in front of
committee `i`.
-/
theorem putLeadersBack_eq (leaders : List NodeID) (S : ShardState)
    (enough : S.length ≤ leaders.length) :
    (List.range S.length).foldlM (putLeaderBackStep leaders) S =
      .ok (List.zipWith withLeader leaders S) := by
  have start : LeadersPutBack leaders S 0 S := by simp [LeadersPutBack]
  obtain ⟨T, ran, placed⟩ :=
    Except.foldlM_range (LeadersPutBack leaders S) start fun k T below holds =>
      putLeaderBackStep_at enough below holds
  rw [ran]
  congr 1
  apply List.ext_getElem?
  intro i
  rw [placed]
  split
  · rfl
  · -- Past the last committee there is nothing on either side.
    rw [List.getElem?_eq_none (by omega), List.getElem?_eq_none (by simp; omega)]

/-- A committee with its leader put back is never empty. -/
theorem withLeader_staffed {leaders : List NodeID} {S : ShardState} {c : Committee}
    (listed : c ∈ List.zipWith withLeader leaders S) : c.NodeList ≠ [] := by
  induction leaders generalizing S with
  | nil => simp at listed
  | cons leader leaders ih =>
    cases S with
    | nil => simp at listed
    | cons d S =>
      rcases List.mem_cons.mp listed with rfl | later
      · simp [withLeader]
      · exact ih later

/--
Leaders put back by position onto committees that kept their shards by position: each shard gets
the head it had.
-/
theorem zipWith_withLeader_heads {leaders : List NodeID} {S T : ShardState}
    (heads : leaders.map some = T.map (·.NodeList.head?))
    (shards : S.map (·.ShardID) = T.map (·.ShardID)) :
    (List.zipWith withLeader leaders S).map (fun c => (c.ShardID, c.NodeList.head?)) =
      T.map (fun c => (c.ShardID, c.NodeList.head?)) := by
  apply List.ext_getElem?
  intro i
  have head := congrArg (·[i]?) heads
  have shard := congrArg (·[i]?) shards
  simp only [List.getElem?_map] at head shard
  rw [List.getElem?_map, List.getElem?_zipWith, List.getElem?_map]
  cases leader : leaders[i]? <;> cases committee : S[i]? <;> cases target : T[i]? <;>
    simp_all [withLeader]

/--
At most 12 committees already in order of size are left where they are by the sort; past 12,
Go's `sort.Slice` may exchange committees of one size.
-/
theorem sortCommitteeBySize_of_sorted (ss : ShardingState) (short : ss.shardState.length ≤ 12)
    (sorted : ss.shardState.Pairwise (fun c d => d.NodeList.length ≤ c.NodeList.length)) :
    ss.sortCommitteeBySize = ss := by
  have ordered : Go.Sorting.Sorted (fun a b : Committee => decide (a.NodeList.length > b.NodeList.length))
      0 ss.shardState.length ss.shardState :=
    Go.Sorting.sorted_of_pairwise (sorted.imp fun smaller => by simpa using smaller)
  simp only [sortCommitteeBySize, Go.Sorting.Slice_of_sorted _ short ordered]

/-- What the first loop leaves, read as lists: the same shards, each one member smaller. -/
theorem taken_shape {S T : ShardState}
    (shrunk : ∀ i : Nat, S[i]?.map (fun c => (c.ShardID, c.NodeList.length)) =
      T[i]?.map (fun c => (c.ShardID, c.NodeList.length - 1))) :
    S.map (·.ShardID) = T.map (·.ShardID) ∧
      S.map (·.NodeList.length) = T.map (·.NodeList.length - 1) := by
  constructor <;> apply List.ext_getElem? <;> intro i
  · have shard := congrArg (Option.map Prod.fst) (shrunk i)
    simpa [Option.map_map, Function.comp_def] using shard
  · have size := congrArg (Option.map Prod.snd) (shrunk i)
    simpa [Option.map_map, Function.comp_def] using size

/--
Committees in order of size, each with one member taken out, are still in order of size: `Reshard`'s
second sort leaves them where the first sort put them.
-/
theorem taken_sorted {S T : ShardState}
    (sorted : T.Pairwise (fun c d => d.NodeList.length ≤ c.NodeList.length))
    (sizes : S.map (·.NodeList.length) = T.map (·.NodeList.length - 1)) :
    S.Pairwise (fun c d => d.NodeList.length ≤ c.NodeList.length) := by
  have mapped : (S.map (·.NodeList.length)).Pairwise (fun x y => y ≤ x) := by
    rw [sizes, List.pairwise_map]
    exact sorted.imp fun smaller => by omega
  exact List.pairwise_map.mp mapped

/--
`Reshard` gives every committee back its leader: on committees that all have members and are
counted by `numShards`, it returns, and each shard ID heads the same node as before, with no
committee left empty.
-/
theorem Reshard_restores_leaders (ss : ShardingState) (newNodeList : List NodeID) {percent : ℚ}
    (counted : ss.numShards = ss.shardState.length) (short : ss.numShards ≤ 12)
    (staffed : ∀ c ∈ ss.shardState, c.NodeList ≠ []) (nonnegative : 0 ≤ percent) :
    ∃ ss', ss.Reshard R newNodeList percent = .ok ss' ∧
      (ss'.shardState.map fun c => (c.ShardID, c.NodeList.head?)).Perm
        (ss.shardState.map fun c => (c.ShardID, c.NodeList.head?)) ∧
      ∀ c ∈ ss'.shardState, c.NodeList ≠ [] := by
  -- The first sort only reorders, so every committee still has a leader to take.
  have reordered := sortCommitteeBySize_perm ss
  have staffed₁ : ∀ c ∈ ss.sortCommitteeBySize.shardState, c.NodeList ≠ [] := fun c listed =>
    staffed c (reordered.mem_iff.mp listed)
  obtain ⟨leaders, S₂, s₂, takeRan, heads, shrunk⟩ := takeLeaders_getElem? R
    ss.sortCommitteeBySize.shardState staffed₁ (counted.trans reordered.length_eq.symm)
    (R.Seed ss.rnd)
  obtain ⟨shards₂, sizes₂⟩ := taken_shape shrunk
  have length₂ : S₂.length = ss.shardState.length :=
    (List.length_eq_of_map_eq shards₂).trans reordered.length_eq
  -- Each committee lost one member, so the second sort, of at most 12, leaves them in place.
  have resorted :
      ({ ss.sortCommitteeBySize with shardState := S₂ } : ShardingState).sortCommitteeBySize =
        { ss.sortCommitteeBySize with shardState := S₂ } :=
    sortCommitteeBySize_of_sorted _ (by simp only; omega)
      (taken_sorted (sortCommitteeBySize_sorted ss) sizes₂)
  -- The new nodes only lengthen member lists, in place.
  obtain ⟨dealtNew, -, kept₃, assigned⟩ :=
    assignNewNodes_getElem? R { ss.sortCommitteeBySize with shardState := S₂ } newNodeList s₂
  rw [resorted] at assigned
  generalize assignEq : assignNewNodes R { ss.sortCommitteeBySize with shardState := S₂ }
    newNodeList s₂ = assignment at kept₃ assigned
  obtain ⟨ss₃, s₃⟩ := assignment
  simp only [sortCommitteeBySize_numShards] at assignEq
  have shards₃ : ss₃.shardState.map (·.ShardID) = S₂.map (·.ShardID) :=
    List.map_eq_map_of_getElem? assigned _ fun i c => by split <;> rfl
  have length₃ : ss₃.shardState.length = ss.shardState.length :=
    (List.length_eq_of_map_eq shards₃).trans length₂
  have counted₃ : ss₃.numShards = ss₃.shardState.length := by
    rw [show ss₃.numShards = ss.numShards from kept₃, counted, length₃]
  -- The cuckoo rule only shortens and lengthens member lists, in place.
  obtain ⟨ss₄, s₄, dealtKicked, cuckooRan, kept₄, -, cuckooed⟩ :=
    cuckooResharding_getElem? R ss₃ nonnegative s₃ counted₃
  have shards₄ : ss₄.shardState.map (·.ShardID) = ss₃.shardState.map (·.ShardID) :=
    List.map_eq_map_of_getElem? cuckooed _ fun i c => by split <;> rfl
  have length₄ : ss₄.shardState.length = ss.shardState.length :=
    (List.length_eq_of_map_eq shards₄).trans length₃
  have counted₄ : ss₄.numShards = ss₄.shardState.length := by
    rw [kept₄, counted₃, length₃, length₄]
  -- One leader was taken per committee.
  have enough : ss₄.shardState.length ≤ leaders.length := by
    rw [length₄, List.length_eq_of_map_eq heads]
    exact reordered.length_eq.ge
  have putRan := putLeadersBack_eq leaders ss₄.shardState enough
  rw [← counted₄] at putRan
  refine ⟨{ ss₄ with shardState := List.zipWith withLeader leaders ss₄.shardState }, ?_, ?_,
    fun c listed => withLeader_staffed listed⟩
  · simp only [Reshard, sortCommitteeBySize_numShards, takeRan, Except.ok_bind, assignEq, cuckooRan,
      putRan]
    rfl
  · -- Leader `i` goes back onto committee `i`, which is still the shard it was taken from.
    rw [zipWith_withLeader_heads heads (shards₄.trans (shards₃.trans shards₂))]
    exact reordered.map _

theorem Reshard_restores_leaders_two_shards :
    twoShards.numShards = twoShards.shardState.length ∧ twoShards.numShards ≤ 12 ∧
      (∀ c ∈ twoShards.shardState, c.NodeList ≠ []) ∧ (0 : ℚ) ≤ 1 / 10 ∧
      ∃ ss', twoShards.Reshard inOrder [memberWithKey "one1e" 5] (1 / 10) = .ok ss' ∧
        (ss'.shardState.map fun c => (c.ShardID, c.NodeList.head?)).Perm
          (twoShards.shardState.map fun c => (c.ShardID, c.NodeList.head?)) ∧
        ∀ c ∈ ss'.shardState, c.NodeList ≠ [] :=
  ⟨rfl, by decide, by decide, by norm_num,
    Reshard_restores_leaders inOrder twoShards _ rfl (by decide) (by decide) (by norm_num)⟩

/-- The committee of shard `i` whose one member has key `i`. -/
def loneCommittee (i : Nat) : Committee :=
  ⟨i, [memberWithKey "one1" i.toUInt8]⟩

/-- Thirteen committees: shards 0 to 11 of one member each, and shard 12 of two. -/
def thirteenShards : ShardingState :=
  ⟨0, 7, 13, (List.range 12).map loneCommittee ++
    [⟨12, [memberWithKey "one1" 12, memberWithKey "one1" 13]⟩]⟩

/--
Past 12 committees the leaders can land on other shards. The first `sort.Slice` of the thirteen
committees puts shard 12 in front and exchanges shards 1 and 6 on the way; with their leaders
taken out the twelve others are all empty, and the second sort puts shard 1 back before shard 6.
The leaders go back by position, so shard 1 comes out led by the node that led shard 6.
-/
theorem Reshard_moves_leader_of_thirteen_shards :
    thirteenShards.numShards = thirteenShards.shardState.length ∧
      (∀ c ∈ thirteenShards.shardState, c.NodeList ≠ []) ∧
      loneCommittee 1 ∈ thirteenShards.shardState ∧
      (thirteenShards.Reshard inOrder [] (1 / 10)).toOption.map
          (fun ss' => ss'.shardState.find? (·.ShardID = 1)) =
        some (some ⟨1, [memberWithKey "one1" 6]⟩) :=
  ⟨rfl, by decide, by decide, by decide +kernel⟩

/--
What `assignNewNodes` does, as the design describes it: the committees come out in order of size,
largest first, and the new nodes, shuffled, are dealt round the first `max(1, N/2)` of them, so
that the counts any two of them get differ by at most one.
-/
def DealsNewNodes : Prop :=
  ∀ (ss : ShardingState) (newNodeList : List NodeID) (s : σ),
    ∃ dealt : List NodeID, dealt.Perm newNodeList ∧
      (assignNewNodes R ss newNodeList s).1.shardState.Pairwise
        (fun c d => d.NodeList.length ≤ c.NodeList.length) ∧
      (∀ i : Nat, (assignNewNodes R ss newNodeList s).1.shardState[i]? =
        ss.sortCommitteeBySize.shardState[i]?.map fun c =>
          if i < max 1 (ss.numShards / 2) then
            c.withNodes (dealt.roundRobin (max 1 (ss.numShards / 2)) 0 i)
          else c) ∧
      ∀ b b', b < max 1 (ss.numShards / 2) → b' < max 1 (ss.numShards / 2) →
        (dealt.roundRobin (max 1 (ss.numShards / 2)) 0 b).length ≤
          (dealt.roundRobin (max 1 (ss.numShards / 2)) 0 b').length + 1

/-- `assignNewNodes` deals the new nodes as the design says. -/
theorem assignNewNodes_deals : DealsNewNodes R := by
  intro ss newNodeList s
  obtain ⟨dealt, reordered, -, pointwise⟩ := assignNewNodes_getElem? R ss newNodeList s
  exact ⟨dealt, reordered, assignNewNodes_sorted R ss newNodeList s, pointwise,
    fun b b' seat seat' => List.length_roundRobin_le_succ (by omega) dealt seat seat'⟩

end Cuckoo

end ShardingState

end Core
end Harmony
