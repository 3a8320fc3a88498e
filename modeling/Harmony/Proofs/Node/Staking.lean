import Harmony.Node.Staking

/-!
Which stakes `UpdateStakingList` keeps. With parallel arrays and distinct stakers, the node keeps
exactly the stakers whose lock passes Go's `uint64` test. That test is the lock-period test over
unbounded integers as long as the lock period count stays small enough for its product with
`lockPeriodInEpochs` not to wrap. The stake lock contract's `lock()` sets every count to one, and
its `listLockedAddresses` returns parallel arrays over distinct stakers, so on every answer of the
contract the node keeps exactly the stakes that are still locked.
-/

namespace Harmony

open Go Harmony.Core

/-- The lock-period test over unbounded integers: locked in an earlier epoch, and still within its periods. -/
def lockedWithinPeriods (currentBlockNumber blockNum lockPeriodCount : Nat) : Prop :=
  blockNum / BlocksPerEpoch < currentBlockNumber / BlocksPerEpoch ∧
    currentBlockNumber / BlocksPerEpoch - blockNum / BlocksPerEpoch ≤ lockPeriodCount * 3

instance (currentBlockNumber blockNum lockPeriodCount : Nat) :
    Decidable (lockedWithinPeriods currentBlockNumber blockNum lockPeriodCount) :=
  inferInstanceAs (Decidable (_ ∧ _))

/-- The contract's arrays are parallel: every array has an entry for every locked address. -/
def StakeInfoReturnValue.Parallel (value : StakeInfoReturnValue) : Prop :=
  ∀ i < value.LockedAddresses.length, i < value.BlsPubicKeys1.length ∧
    i < value.BlsPubicKeys2.length ∧ i < value.BlsPubicKeys3.length ∧
    i < value.BlockNums.length ∧ i < value.LockPeriodCounts.length ∧ i < value.Amounts.length

/-- Whether the loop keeps the staker of an entry: its lock passes the code's test. -/
def keeps (value : StakeInfoReturnValue) (currentBlockNumber : UInt64) (entry : Address × Nat) :
    Bool :=
  match value.BlockNums[entry.2]?, value.LockPeriodCounts[entry.2]? with
  | some blockNum, some lockPeriodCount => stillLocked currentBlockNumber blockNum lockPeriodCount
  | _, _ => false

/-! ## The test over `uint64` -/

@[simp] theorem bigUint64_toNat (x : Nat) : (bigUint64 x).toNat = x % 2 ^ 64 := by
  simp [bigUint64]

@[simp] theorem GetEpochFromBlockNumber_toNat (blockNumber : UInt64) :
    (GetEpochFromBlockNumber blockNumber).toNat = blockNumber.toNat / BlocksPerEpoch := by
  simp [GetEpochFromBlockNumber, BlocksPerEpoch]

/--
Go's test is the unbounded one for a block number that fits `uint64` and a lock period count whose
product with `lockPeriodInEpochs` stays below every wrapped difference of epochs.
-/
theorem stillLocked_iff {currentBlockNumber : UInt64} {blockNum lockPeriodCount : Nat}
    (fits : blockNum < 2 ^ 64) (small : lockPeriodCount * 3 + 2 ^ 64 / BlocksPerEpoch < 2 ^ 64) :
    stillLocked currentBlockNumber blockNum lockPeriodCount = true ↔
      lockedWithinPeriods currentBlockNumber.toNat blockNum lockPeriodCount := by
  have three : lockPeriodInEpochs.toNat = 3 := rfl
  replace small : lockPeriodCount * 3 + 18446744 < 2 ^ 64 := by
    simpa only [BlocksPerEpoch, Nat.reducePow, Nat.reduceDiv] using small
  have product : (bigUint64 lockPeriodCount * lockPeriodInEpochs).toNat = lockPeriodCount * 3 := by
    rw [UInt64.toNat_mul, bigUint64_toNat, three, Nat.mod_eq_of_lt (by omega : lockPeriodCount < 2 ^ 64),
      Nat.mod_eq_of_lt (by omega)]
  -- Both epochs are below `2^64 / BlocksPerEpoch`, so a wrapped difference is larger than the product.
  have current : currentBlockNumber.toNat / BlocksPerEpoch ≤ 2 ^ 64 / BlocksPerEpoch :=
    Nat.div_le_div_right currentBlockNumber.toNat_lt.le
  have start : blockNum / BlocksPerEpoch ≤ 2 ^ 64 / BlocksPerEpoch := Nat.div_le_div_right fits.le
  simp only [stillLocked, lockedWithinPeriods, Bool.and_eq_true, ne_eq,
    decide_eq_true_eq, UInt64.le_iff_toNat_le, UInt64.toNat_sub, product, ← UInt64.toNat_inj,
    GetEpochFromBlockNumber_toNat, bigUint64_toNat, Nat.mod_eq_of_lt fits]
  simp only [BlocksPerEpoch, Nat.reducePow, Nat.reduceDiv] at small current start ⊢
  omega

/-! ## The loop -/

theorem mapPut_keys {κ ν : Type} [DecidableEq κ] (m : List (κ × ν)) (k : κ) (v : ν) :
    (mapPut m k v).map Prod.fst = (m.map Prod.fst).filter (· ≠ k) ++ [k] := by
  simp only [mapPut, List.map_append, List.map_singleton, List.filter_map]
  rfl

/-- One step of the loop adds the staker when it keeps it, and changes nothing otherwise. -/
theorem updateStake_keys {value : StakeInfoReturnValue} (parallel : value.Parallel)
    (currentBlockNumber : UInt64) (stakes : List (Address × StakeInfo)) (addr : Address) {i : Nat}
    (within : i < value.LockedAddresses.length) :
    ∃ stakes', updateStake value currentBlockNumber stakes (addr, i) = some stakes' ∧
      stakes'.map Prod.fst = if keeps value currentBlockNumber (addr, i) then
        (stakes.map Prod.fst).filter (· ≠ addr) ++ [addr] else stakes.map Prod.fst := by
  obtain ⟨key1, key2, key3, block, count, amount⟩ := parallel i within
  -- Every array has an entry at `i`, so no index panics.
  simp only [updateStake, keeps, List.getElem?_eq_getElem block, List.getElem?_eq_getElem count,
    List.getElem?_eq_getElem key1, List.getElem?_eq_getElem key2, List.getElem?_eq_getElem key3,
    List.getElem?_eq_getElem amount, Option.bind_eq_bind, Option.bind_some, Option.pure_def]
  split
  · exact ⟨_, rfl, mapPut_keys _ _ _⟩
  · exact ⟨_, rfl, rfl⟩

/-- Over entries with fresh and distinct stakers, the loop appends the stakers it keeps. -/
theorem foldlM_updateStake_keys {value : StakeInfoReturnValue} (parallel : value.Parallel)
    (currentBlockNumber : UInt64) :
    ∀ (entries : List (Address × Nat)) (stakes : List (Address × StakeInfo)),
      (∀ entry ∈ entries, entry.2 < value.LockedAddresses.length) →
      (∀ entry ∈ entries, entry.1 ∉ stakes.map Prod.fst) → (entries.map Prod.fst).Nodup →
      ∃ stakes', entries.foldlM (updateStake value currentBlockNumber) stakes = some stakes' ∧
        stakes'.map Prod.fst = stakes.map Prod.fst ++
          (entries.filter (keeps value currentBlockNumber)).map Prod.fst := by
  intro entries
  induction entries with
  | nil => exact fun stakes _ _ _ => ⟨stakes, rfl, by simp⟩
  | cons entry entries ih =>
    intro stakes within fresh distinct
    obtain ⟨addr, i⟩ := entry
    rw [List.map_cons, List.nodup_cons] at distinct
    obtain ⟨first, firstIsNew⟩ := distinct
    obtain ⟨stakes₁, stepped, keys₁⟩ :=
      updateStake_keys parallel currentBlockNumber stakes addr (within (addr, i) List.mem_cons_self)
    -- The staker is new, so the step's filter removes nothing.
    have unseen : (stakes.map Prod.fst).filter (· ≠ addr) = stakes.map Prod.fst :=
      List.filter_eq_self.mpr fun key listed => by
        have := fresh (addr, i) (by simp)
        simp only [ne_eq, decide_eq_true_eq]
        rintro rfl
        exact this listed
    rw [unseen] at keys₁
    have fresh₁ : ∀ entry ∈ entries, entry.1 ∉ stakes₁.map Prod.fst := by
      intro entry member listed
      rw [keys₁] at listed
      have other : entry.1 ≠ addr := fun same => first (List.mem_map.mpr ⟨entry, member, same⟩)
      split at listed
      · simp only [List.mem_append, List.mem_singleton] at listed
        exact listed.elim (fresh entry (by simp [member])) other
      · exact fresh entry (by simp [member]) listed
    obtain ⟨stakes', rest, keys'⟩ := ih stakes₁ (fun entry member => within entry (by simp [member]))
      fresh₁ firstIsNew
    refine ⟨stakes', by simp [List.foldlM_cons, stepped, rest], ?_⟩
    rw [keys', keys₁, List.filter_cons]
    split <;> simp_all

/--
With parallel arrays and distinct stakers, `UpdateStakingList` keeps exactly the stakers whose lock
passes the code's test, in the contract's order.
-/
theorem UpdateStakingList_keys (currentBlockNumber : UInt64)
    (currentStakes : List (Address × StakeInfo)) {value : StakeInfoReturnValue}
    (parallel : value.Parallel) (distinct : value.LockedAddresses.Nodup) :
    ∃ stakes, UpdateStakingList currentBlockNumber currentStakes (some value) = some stakes ∧
      stakes.map Prod.fst =
        (value.LockedAddresses.zipIdx.filter (keeps value currentBlockNumber)).map Prod.fst := by
  have within : ∀ entry ∈ value.LockedAddresses.zipIdx, entry.2 < value.LockedAddresses.length := by
    rintro ⟨addr, i⟩ member
    have := (List.mem_zipIdx member).2.1
    omega
  have keys := foldlM_updateStake_keys parallel currentBlockNumber value.LockedAddresses.zipIdx []
    within (by simp) (by simpa using distinct)
  simpa [UpdateStakingList] using keys

/-! ## The answers of the stake lock contract -/

/--
What `listLockedAddresses` of `StakeLockContract.sol` can return: parallel arrays over distinct
stakers (`lock()` refuses an address that holds a lock), each locked at a block number of the
chain, for the one lock period `lock()` sets.
-/
structure StakeInfoReturnValue.Issued (value : StakeInfoReturnValue) : Prop where
  parallel : value.Parallel
  distinct : value.LockedAddresses.Nodup
  fits : ∀ blockNum ∈ value.BlockNums, blockNum < 2 ^ 64
  onePeriod : ∀ lockPeriodCount ∈ value.LockPeriodCounts, lockPeriodCount = 1

/-- Whether the staker of an entry is still locked, by the test over unbounded integers. -/
def lockedEntry (value : StakeInfoReturnValue) (currentBlockNumber : Nat) (entry : Address × Nat) :
    Bool :=
  match value.BlockNums[entry.2]?, value.LockPeriodCounts[entry.2]? with
  | some blockNum, some lockPeriodCount =>
    decide (lockedWithinPeriods currentBlockNumber blockNum lockPeriodCount)
  | _, _ => false

/-- On an answer of the contract, Go's test on each entry is the test over unbounded integers. -/
theorem keeps_eq_lockedEntry {value : StakeInfoReturnValue} (issued : value.Issued)
    (currentBlockNumber : UInt64) (entry : Address × Nat) :
    keeps value currentBlockNumber entry = lockedEntry value currentBlockNumber.toNat entry := by
  unfold keeps lockedEntry
  cases block : value.BlockNums[entry.2]? with
  | none => rfl
  | some blockNum =>
    cases count : value.LockPeriodCounts[entry.2]? with
    | none => rfl
    | some lockPeriodCount =>
      -- A count of one times three epochs is far from wrapping.
      have one : lockPeriodCount = 1 := issued.onePeriod _ (List.mem_of_getElem? count)
      have fits : blockNum < 2 ^ 64 := issued.fits _ (List.mem_of_getElem? block)
      subst one
      exact Bool.eq_iff_iff.mpr (by
        rw [decide_eq_true_iff]
        exact stillLocked_iff fits (by simp [BlocksPerEpoch]))

/-- One staker, locked at block 0 for the one period `lock()` sets. -/
def lockedAtGenesis : StakeInfoReturnValue :=
  ⟨[FixedBytes.zero 20], [FixedBytes.zero 32], [FixedBytes.zero 32], [FixedBytes.zero 32], [0], [1],
    [1]⟩

/--
On every answer of the stake lock contract and at every block, `UpdateStakingList` keeps exactly
the stakers locked in an earlier epoch whose lock periods have not all run out, counted over
unbounded integers, in the contract's order.
-/
theorem UpdateStakingList_keeps_locked_stakes (currentBlockNumber : UInt64)
    (currentStakes : List (Address × StakeInfo)) {value : StakeInfoReturnValue}
    (issued : value.Issued) :
    ∃ stakes, UpdateStakingList currentBlockNumber currentStakes (some value) = some stakes ∧
      stakes.map Prod.fst = (value.LockedAddresses.zipIdx.filter
        (lockedEntry value currentBlockNumber.toNat)).map Prod.fst := by
  obtain ⟨stakes, updated, keys⟩ :=
    UpdateStakingList_keys currentBlockNumber currentStakes issued.parallel issued.distinct
  refine ⟨stakes, updated, ?_⟩
  rw [keys, List.filter_congr fun entry _ => keeps_eq_lockedEntry issued currentBlockNumber entry]

/-- Three epochs after its lock the staker is kept, and four epochs after it is dropped. -/
theorem UpdateStakingList_keeps_locked_stakes_genesis :
    lockedAtGenesis.Issued ∧
      (∃ stakes, UpdateStakingList (3 * BlocksPerEpoch).toUInt64 [] (some lockedAtGenesis) =
          some stakes ∧ stakes.map Prod.fst = [FixedBytes.zero 20]) ∧
      ∃ stakes, UpdateStakingList (4 * BlocksPerEpoch).toUInt64 [] (some lockedAtGenesis) =
          some stakes ∧ stakes.map Prod.fst = [] := by
  have issued : lockedAtGenesis.Issued :=
    ⟨fun i within => by simp_all [lockedAtGenesis], by simp [lockedAtGenesis],
      by simp [lockedAtGenesis], by simp [lockedAtGenesis]⟩
  obtain ⟨kept, keptRun, keptKeys⟩ :=
    UpdateStakingList_keeps_locked_stakes (3 * BlocksPerEpoch).toUInt64 [] issued
  obtain ⟨dropped, droppedRun, droppedKeys⟩ :=
    UpdateStakingList_keeps_locked_stakes (4 * BlocksPerEpoch).toUInt64 [] issued
  refine ⟨issued, ⟨kept, keptRun, ?_⟩, ⟨dropped, droppedRun, ?_⟩⟩
  · rw [keptKeys]
    decide
  · rw [droppedKeys]
    decide

end Harmony
