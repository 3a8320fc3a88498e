import Harmony.Vm.Analysis
import Harmony.Vm.GasTable
import Harmony.Consensus.State

/-!
The data of `EVMInterpreter.Run` (`core/vm`): 256-bit words as Go's `*big.Int` values, the stack
(`stack.go`), the memory's reads and writes (`memory.go`), the helpers of `common.go` and
go-ethereum's `common/math`, the errors of `errors.go`, and the EVM a run calls into.

A stack item is a natural number, as every `*big.Int` the operations push is non-negative; the
stack is a list read top first, so Go's `data[len(data)-1]` is its head. Go indexes slices and
panics past their ends; here such a read or write is `Fault.panic`. An error a Go function returns
is `Fault.error`. The world state is a state type with the `vm.StateDB` operations the
instructions call, and the EVM's nested `Call`s and `Create`s are parameters, as in
`Harmony.Core.StateTransition`. A nested call shares the caller's map of jump-destination analyses
in Go; what the callee adds to it is not modelled, since the callee only adds analyses of code
under that code's hash.
-/

namespace Harmony

open Go

namespace Vm

/-! ## Errors -/

/-- The errors the interpreter and the EVM return, `errors.go` and the interpreter's own. -/
inductive VmError where
  | ErrOutOfGas
  | ErrCodeStoreOutOfGas
  | ErrDepth
  | ErrTraceLimitReached
  | ErrInsufficientBalance
  | ErrContractAddressCollision
  | ErrNoCompatibleInterpreter
  | errGasUintOverflow
  | errWriteProtection
  | errReturnDataOutOfBounds
  | errExecutionReverted
  | errMaxCodeSizeExceeded
  /-- `fmt.Errorf("invalid opcode 0x%x", int(op))`. -/
  | invalidOpcode (op : UInt8)
  /-- `fmt.Errorf("stack underflow (%d <=> %d)", len(st.data), n)`. -/
  | stackUnderflow (len required : Nat)
  /-- `fmt.Errorf("stack limit reached %d (%d)", stack.len(), params.StackLimit)`. -/
  | stackLimitReached (len limit : Nat)
  /-- `fmt.Errorf("invalid jump destination (%v) %v", nop, pos)`. -/
  | invalidJump (nop : UInt8) (pos : Nat)
  /-- An error of a precompiled contract or another part of the EVM the model does not name. -/
  | other (text : String)
  deriving DecidableEq

/-- How a Go function of the interpreter stops early: a runtime panic, or an error it returns. -/
inductive Fault where
  | panic (what : GoPanic)
  | error (err : VmError)
  deriving DecidableEq

/-- A step of the interpreter that may stop early. -/
abbrev Exec := Except Fault

/-! ## Words: `common.go` and go-ethereum's `common/math` -/

/-- go-ethereum's `params.StackLimit`. -/
def StackLimit : Nat := 1024

/-- `math.U256`: the value modulo `2^256`, a negative one read as its two's complement bits. -/
def U256 (x : Int) : Nat := (x % 2 ^ 256).toNat

/-- `math.S256`: a value from `2^255` on read as negative. -/
def S256 (x : Nat) : Int := if x < 2 ^ 255 then x else (x : Int) - 2 ^ 256

/-- `bigUint64`: the low 64 bits, and whether the value needs more (`v.BitLen() > 64`). -/
def bigUint64 (v : Nat) : UInt64 × Bool := (UInt64.ofNat v, 64 < v.size)

/-- `big.Int.Int64` of a non-negative value: its low 64 bits as a signed `int64`. -/
def toInt64 (v : Nat) : Int := intOfUint64 (v % 2 ^ 64)

/-- go-ethereum's `math.SafeAdd`: the wrapped sum and whether it wrapped. -/
def SafeAdd (x y : UInt64) : UInt64 × Bool := (x + y, y > 0xffffffffffffffff - x)

/-- go-ethereum's `math.SafeMul`: the wrapped product and whether it wrapped. -/
def SafeMul (x y : UInt64) : UInt64 × Bool :=
  if x = 0 ∨ y = 0 then (0, false) else (x * y, y > 0xffffffffffffffff / x)

/-- `calcMemSize`: the end of the memory a read or write of `l` bytes from `off` touches. -/
def calcMemSize (off l : Nat) : Nat := if l = 0 then 0 else off + l

/-- go-ethereum's `common.RightPadBytes`: zeros appended up to length `l`. -/
def RightPadBytes (slice : Bytes) (l : Int) : Bytes :=
  if l ≤ slice.length then slice else slice ++ List.replicate (l.toNat - slice.length) 0

/--
`getDataBig`: `size` bytes of `data` from `start`, padded with zeros. Both ends are clamped to the
data, so the slice `data[s:e]` is always in range.
-/
def getDataBig (data : Bytes) (start size : Nat) : Bytes :=
  let s := min start data.length
  let e := min (s + size) data.length
  RightPadBytes ((data.drop s).take (e - s)) (intOfUint64 (size % 2 ^ 64))

/-- `new(big.Int).SetBytes(b)`: the bytes read as a big-endian number. -/
def SetBytes (b : Bytes) : Nat := b.foldl (fun acc byte => acc * 256 + byte.toNat) 0

/-- The low `n` bytes of a number, big-endian: what `BigToHash`, `BigToAddress` and `ReadBits` keep. -/
def lowBytes (n v : Nat) : Bytes := (List.range n).reverse.map fun i => UInt8.ofNat (v / 256 ^ i)

@[simp] theorem length_lowBytes (n v : Nat) : (lowBytes n v).length = n := by
  simp [lowBytes]

/-- go-ethereum's `common.BigToHash`: the value's low 32 bytes. -/
def BigToHash (v : Nat) : Hash := ⟨lowBytes 32 v, length_lowBytes 32 v⟩

/-- go-ethereum's `common.BigToAddress`: the value's low 20 bytes. -/
def BigToAddress (v : Nat) : Address := ⟨lowBytes 20 v, length_lowBytes 20 v⟩

/-- go-ethereum's `math.Byte(bigint, 32, n)` for `n < 32`: byte `n` of the 32-byte big-endian form. -/
def byteAt (v n : Nat) : Nat := v / 256 ^ (31 - n) % 256

/-! ## The stack: `stack.go` -/

/-- Go's `Stack`, read top first: the head is `data[len(data)-1]`. -/
abbrev Stack := List Nat

namespace Stack

/-- Go's `push`. -/
def push (d : Nat) (st : Stack) : Stack := d :: st

/-- Go's `pop`: the top item and the rest; an empty stack panics. -/
def pop : Stack → Exec (Nat × Stack)
  | [] => throw (.panic "index out of range")
  | d :: st => pure (d, st)

/-- Go's `Back(n)`: the `n`-th item below the top. -/
def Back (st : Stack) (n : Nat) : Exec Nat :=
  match st[n]? with
  | some d => pure d
  | none => throw (.panic "index out of range")

/-- Go's `swap(n)`: exchanges the top with the `n`-th item from the top, counting the top as 1. -/
def swap (st : Stack) (n : Nat) : Exec Stack :=
  if h : 0 < n ∧ n ≤ st.length then pure ((st.set 0 st[n - 1]).set (n - 1) st[0])
  else throw (.panic "index out of range")

/-- Go's `dup(n)`: pushes a copy of the `n`-th item from the top, counting the top as 1. -/
def dup (st : Stack) (n : Nat) : Exec Stack :=
  if 0 < n then do
    let d ← st.Back (n - 1)
    pure (st.push d)
  else throw (.panic "index out of range")

/-- Go's `require(n)`: at least `n` items, or the underflow error. -/
def require (st : Stack) (n : Nat) : Exec Unit :=
  if st.length < n then throw (.error (.stackUnderflow st.length n)) else pure ()

/-- Pops `n` items, topmost first, as `makeLog` pops its topics. -/
def popN : Nat → Stack → Exec (List Nat × Stack)
  | 0, st => pure ([], st)
  | n + 1, st => do
    let (d, st) ← st.pop
    let (ds, st) ← popN n st
    pure (d :: ds, st)

end Stack

/-! ## Memory reads and writes: `memory.go` -/

/-- Go's `s[lo:hi]` with `int` bounds: negative bounds panic as bounds past the slice do. -/
def sliceInt? {α : Type} (s : List α) (lo hi : Int) : Option (List α) :=
  if 0 ≤ lo ∧ 0 ≤ hi then slice? s lo.toNat hi.toNat else none

/-- Go's `copy(s[offset:], src)` of `n` bytes: the window's bytes are replaced by `src`'s first `n`. -/
def writeWindow (store : Bytes) (offset n : Nat) (src : Bytes) : Bytes :=
  store.take offset ++ (src.take n ++ (store.drop offset).drop (src.take n).length)

namespace Memory

/--
Go's `Memory.Set`: copies `value` into `size` bytes from `offset`. The store must already hold
them; the bound is checked on the wrapped `uint64` sum, and a wrapped sum panics in the slice.
-/
def Set (m : Memory) (offset size : UInt64) (value : Bytes) : Exec Memory :=
  if size > 0 then
    if offset + size > UInt64.ofNat m.store.length then throw (.panic "invalid memory: store empty")
    else
      match slice? m.store offset.toNat (offset + size).toNat with
      | none => throw (.panic "slice bounds out of range")
      | some window => pure { m with store := writeWindow m.store offset.toNat window.length value }
  else pure m

/-- Go's `Memory.Set32`: the value's low 32 bytes, big-endian, from `offset`. -/
def Set32 (m : Memory) (offset : UInt64) (val : Nat) : Exec Memory :=
  if offset + 32 > UInt64.ofNat m.store.length then throw (.panic "invalid memory: store empty")
  else
    match slice? m.store offset.toNat (offset + 32).toNat with
    | none => throw (.panic "slice bounds out of range")
    | some _ => pure { m with store := writeWindow m.store offset.toNat 32 (lowBytes 32 val) }

/--
Go's `Memory.Get`: a copy of `size` bytes from `offset`, or nothing when the offset is past the
store. The `int64` sum `offset+size` wraps.
-/
def Get (m : Memory) (offset size : Int) : Exec Bytes :=
  if size = 0 then pure []
  else if offset < m.store.length then
    -- `make([]byte, size)` panics on a negative length.
    if size < 0 then throw (.panic "makeslice: len out of range")
    else
      match sliceInt? m.store offset (intOfUint64 ((offset + size) % 2 ^ 64).toNat) with
      | none => throw (.panic "slice bounds out of range")
      | some window => pure window
  else pure []

/-- Go's `Memory.GetPtr`: the same bytes as `Get`, as a slice of the store. -/
def GetPtr (m : Memory) (offset size : Int) : Exec Bytes :=
  if size = 0 then pure []
  else if offset < m.store.length then
    match sliceInt? m.store offset (intOfUint64 ((offset + size) % 2 ^ 64).toNat) with
    | none => throw (.panic "slice bounds out of range")
    | some window => pure window
  else pure []

/-- `memory.store[off] = b`, as `opMstore8` writes: the index must be inside the store. -/
def setByte (m : Memory) (off : Int) (b : UInt8) : Exec Memory :=
  if 0 ≤ off ∧ off < m.store.length then pure { m with store := m.store.set off.toNat b }
  else throw (.panic "index out of range")

end Memory

/-! ## The world the interpreter runs in: `interface.go`, `evm.go`, go-ethereum's `params` -/

/-- A log the interpreter emits: the fields `makeLog` fills; the state database fills the rest. -/
structure Log where
  Address : Address
  Topics : List Hash
  Data : Bytes
  BlockNumber : UInt64

/-- The operations of Go's `vm.StateDB` the instructions and their gas functions call. -/
structure StateDB (S : Type) where
  GetBalance : S → Address → Nat
  AddBalance : S → Address → Nat → S
  GetCodeHash : S → Address → Hash
  GetCode : S → Address → Bytes
  GetCodeSize : S → Address → Nat
  AddRefund : S → UInt64 → S
  SubRefund : S → UInt64 → S
  GetCommittedState : S → Address → Hash → Hash
  GetState : S → Address → Hash → Hash
  SetState : S → Address → Hash → Hash → S
  Suicide : S → Address → S
  HasSuicided : S → Address → Bool
  Exist : S → Address → Bool
  Empty : S → Address → Bool
  AddLog : S → Log → S
  AddPreimage : S → Hash → Bytes → S

/-- The fields of Go's `Contract` a run reads and never changes. -/
structure Invocation where
  /-- `contract.Address()`, the account whose code runs. -/
  self : Address
  CallerAddress : Address
  /-- The value sent with the call. -/
  value : Nat
  Input : Bytes

/-- What a nested call gives back: the state after it, its returned data, its gas left, its error. -/
structure CallResult (S : Type) where
  state : S
  ret : Bytes
  leftOverGas : UInt64
  err : Option VmError

/-- What a nested creation gives back, with the new contract's address. -/
structure CreateResult (S : Type) where
  state : S
  ret : Bytes
  contractAddr : Address
  leftOverGas : UInt64
  err : Option VmError

/--
Go's `EVM` as its interpreter sees it: the block and message context, the chain rules at the
block, the state database, Keccak-256, and the nested calls and creations, which run in the
caller's state with the caller's invocation.
-/
structure EVM (S : Type) where
  StateDB : StateDB S
  /-- `Context.GetHash`. -/
  GetHash : UInt64 → Hash
  Origin : Address
  GasPrice : Nat
  Coinbase : Address
  GasLimit : UInt64
  BlockNumber : Nat
  Time : Nat
  Difficulty : Nat
  IsHomestead : Bool
  IsEIP150 : Bool
  IsEIP158 : Bool
  IsByzantium : Bool
  IsConstantinople : Bool
  /-- `vmConfig.EnablePreimageRecording`. -/
  EnablePreimageRecording : Bool
  /-- The interpreter's Keccak-256 hasher. -/
  Keccak256 : Bytes → Hash
  Call : S → Invocation → Address → Bytes → UInt64 → Nat → CallResult S
  CallCode : S → Invocation → Address → Bytes → UInt64 → Nat → CallResult S
  DelegateCall : S → Invocation → Address → Bytes → UInt64 → CallResult S
  StaticCall : S → Invocation → Address → Bytes → UInt64 → CallResult S
  Create : S → Invocation → Bytes → UInt64 → Nat → CreateResult S
  Create2 : S → Invocation → Bytes → UInt64 → Nat → Nat → CreateResult S

/-- go-ethereum's `params.GasTable`: the gas prices that changed with forks. -/
structure GasTable where
  ExtcodeSize : UInt64
  ExtcodeCopy : UInt64
  ExtcodeHash : UInt64
  Balance : UInt64
  SLoad : UInt64
  Calls : UInt64
  Suicide : UInt64
  ExpByte : UInt64
  CreateBySuicide : UInt64

/-! ## A run's mutable state -/

/--
What one iteration of `EVMInterpreter.Run`'s loop reads and changes: the contract's code and
analyses and its gas, the program counter, the stack, the memory, the interpreter's last return
data, the EVM's `callGasTemp`, and the state database.
-/
structure Frame (S : Type) where
  contract : Contract
  Gas : UInt64
  pc : Nat
  stack : Stack
  mem : Memory
  returnData : Bytes
  callGasTemp : UInt64
  state : S

/-- Go's `Contract.GetOp`: the byte at `n`, and `STOP` past the code. -/
def Contract.GetOp (c : Contract) (n : Nat) : UInt8 := c.Code[n]?.getD 0

end Vm

end Harmony
