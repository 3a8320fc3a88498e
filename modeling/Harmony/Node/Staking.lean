import Harmony.Core.Resharding

/-!
The node's list of current stakes, `node/staking.go`: `UpdateStakingList` reads the stake lock
contract's answer, parallel arrays indexed by staker, and keeps each stake locked in an earlier
epoch whose lock periods have not all run out.

The test is Go's, over `uint64`: `big.Int.Uint64()` keeps the low 64 bits of the lock period count,
and the product with `lockPeriodInEpochs` and the difference of epochs wrap. An index past the end
of one of the arrays panics in Go, and is `none` here.
-/

namespace Harmony

open Go Harmony.Core

/-- Go's `lockPeriodInEpochs`, which the stake lock contract has too. -/
def lockPeriodInEpochs : UInt64 := 3

/-- Go's `structs.StakeInfoReturnValue`: what the stake contract's `listLockedAddresses` returns. -/
structure StakeInfoReturnValue where
  LockedAddresses : List Address
  BlsPubicKeys1 : List (FixedBytes 32)
  BlsPubicKeys2 : List (FixedBytes 32)
  BlsPubicKeys3 : List (FixedBytes 32)
  /-- The blocks the stakes were locked in, `*big.Int`s decoded from `uint256`. -/
  BlockNums : List Nat
  /-- How many lock periods each stake is locked for, `*big.Int`s decoded from `uint256`. -/
  LockPeriodCounts : List Nat
  Amounts : List Nat

/-- Go's `big.Int.Uint64()` on a nonnegative value: its low 64 bits. -/
def bigUint64 (x : Nat) : UInt64 := x.toUInt64

/-- Go's `m[k] = v` on a map held as its entries: the entry for `k` replaced. -/
def mapPut {κ ν : Type} [DecidableEq κ] (m : List (κ × ν)) (k : κ) (v : ν) : List (κ × ν) :=
  m.filter (fun entry => entry.1 ≠ k) ++ [(k, v)]

/-- Whether `UpdateStakingList` keeps a stake locked at `blockNum` for `lockPeriodCount` periods. -/
def stillLocked (currentBlockNumber : UInt64) (blockNum lockPeriodCount : Nat) : Bool :=
  let startEpoch := GetEpochFromBlockNumber (bigUint64 blockNum)
  let curEpoch := GetEpochFromBlockNumber currentBlockNumber
  -- The tokens count from the beginning of the next epoch.
  startEpoch ≠ curEpoch && curEpoch - startEpoch ≤ bigUint64 lockPeriodCount * lockPeriodInEpochs

/-- One iteration of `UpdateStakingList`'s loop: the staker at index `i`. -/
def updateStake (value : StakeInfoReturnValue) (currentBlockNumber : UInt64)
    (stakes : List (Address × StakeInfo)) (entry : Address × Nat) :
    Option (List (Address × StakeInfo)) := do
  let (addr, i) := entry
  let blockNum ← value.BlockNums[i]?
  let lockPeriodCount ← value.LockPeriodCounts[i]?
  if stillLocked currentBlockNumber blockNum lockPeriodCount then
    let key1 ← value.BlsPubicKeys1[i]?
    let key2 ← value.BlsPubicKeys2[i]?
    let key3 ← value.BlsPubicKeys3[i]?
    let amount ← value.Amounts[i]?
    let blsPubKey := FixedBytes.ofBytes 96 (key1.bytes ++ key2.bytes ++ key3.bytes)
    pure (mapPut stakes addr ⟨addr, blsPubKey, blockNum, lockPeriodCount, amount⟩)
  else pure stakes

/--
Go's `Node.UpdateStakingList`: the node's new `CurrentStakes` for the block the chain is at. A nil
result leaves the stakes as they were.
-/
def UpdateStakingList (currentBlockNumber : UInt64) (currentStakes : List (Address × StakeInfo))
    (stakeInfoReturnValue : Option StakeInfoReturnValue) : Option (List (Address × StakeInfo)) :=
  match stakeInfoReturnValue with
  | none => pure currentStakes
  | some value => value.LockedAddresses.zipIdx.foldlM (updateStake value currentBlockNumber) []

end Harmony
