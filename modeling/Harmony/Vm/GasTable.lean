import Harmony.Lib.GoBytes

/-!
The memory-expansion fee of `core/vm/gas_table.go` in Go's `uint64` arithmetic, and the fee
schedule it computes over unbounded naturals.

`MemoryGas` and `QuadCoeffDiv` come from go-ethereum's `params`; their values are the ones the
repository's `TestMemoryGasCost` expectation is computed from.
-/

namespace Harmony

open Go

namespace Vm

/-- The linear memory fee per word, go-ethereum's `params.MemoryGas`. -/
def MemoryGas : UInt64 := 3

/-- The divisor of the quadratic memory fee, go-ethereum's `params.QuadCoeffDiv`. -/
def QuadCoeffDiv : UInt64 := 512

/-- The interpreter's memory and the fee already charged for its size, Go's `Memory`. -/
structure Memory where
  store : Bytes
  lastGasCost : UInt64
  deriving DecidableEq

/-- The memory's size in bytes, Go's `Memory.Len`. -/
def Memory.Len (mem : Memory) : Nat := mem.store.length

/-- The words a size occupies, rounded up, Go's `toWordSize`. -/
def toWordSize (size : UInt64) : UInt64 :=
  -- Sizes within 31 of the maximum would wrap in `size + 31`.
  if size > 0xffffffffffffffff - 31 then 0xffffffffffffffff / 32 + 1
  else (size + 31) / 32

/--
The fee for growing memory to `newMemSize` bytes, Go's `memoryGasCost`: the fee of the new size
less the fee already charged, with the new size's fee recorded in the memory.
-/
def memoryGasCost (mem : Memory) (newMemSize : UInt64) : Except String (UInt64 × Memory) :=
  if newMemSize = 0 then .ok (0, mem)
  else if newMemSize > 0xffffffffe0 then .error "gas uint64 overflow"
  else
    let newMemSizeWords := toWordSize newMemSize
    let newMemSize := newMemSizeWords * 32
    if newMemSize > UInt64.ofNat mem.Len then
      let square := newMemSizeWords * newMemSizeWords
      let linCoef := newMemSizeWords * MemoryGas
      let quadCoef := square / QuadCoeffDiv
      let newTotalFee := linCoef + quadCoef
      let fee := newTotalFee - mem.lastGasCost
      .ok (fee, { mem with lastGasCost := newTotalFee })
    else .ok (0, mem)

/-- Go's `gasReturn`: `RETURN` pays for the memory it reads and nothing else. -/
def gasReturn (mem : Memory) (memorySize : UInt64) : Except String (UInt64 × Memory) :=
  memoryGasCost mem memorySize

/-- Grow the memory with zero bytes to `size` bytes, Go's `Memory.Resize`. -/
def Memory.Resize (mem : Memory) (size : UInt64) : Memory :=
  if UInt64.ofNat mem.Len < size then
    { mem with store := mem.store ++ List.replicate (size - UInt64.ofNat mem.Len).toNat 0 }
  else mem

/--
The memory part of one step of `EVMInterpreter.Run` for an operation whose gas is its memory fee
(`RETURN`, `REVERT`): the size it touches is rounded up to words, the fee is charged and the
memory grown. The size arrives as a `uint64`, after `bigUint64` has rejected larger stack values;
what the contract's gas pays for the fee is not modelled here.
-/
def expandMemory (mem : Memory) (memSize : UInt64) : Except String (UInt64 × Memory) :=
  -- `math.SafeMul(toWordSize(memSize), 32)` reports a product of 2^64 or more.
  if 2 ^ 64 ≤ (toWordSize memSize).toNat * 32 then .error "gas uint64 overflow"
  else
    let memorySize := toWordSize memSize * 32
    match gasReturn mem memorySize with
    -- The interpreter reports every failed gas computation as running out of gas.
    | .error _ => .error "out of gas"
    | .ok (cost, mem) => .ok (cost, if memorySize > 0 then mem.Resize memorySize else mem)

/-- One interpreter step over the memory, charging `fee` for touching `memSize` bytes. -/
def MemoryStep (mem : Memory) (memSize fee : UInt64) (mem' : Memory) : Prop :=
  expandMemory mem memSize = .ok (fee, mem')

/-- The fee schedule's cost of `words` words of memory, over unbounded naturals. -/
def memoryCost (words : Nat) : Nat :=
  MemoryGas.toNat * words + words * words / QuadCoeffDiv.toNat

end Vm

end Harmony
