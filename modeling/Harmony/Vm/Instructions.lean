import Harmony.Vm.Machine

/-!
The operations of `core/vm/instructions.go`, one function per opcode or opcode family, each
taking the frame to the frame after it and the bytes it returns.

Go operations read their operands with `stack.pop()` and `stack.peek()` and overwrite the peeked
item in place; popping it and pushing the result is the same change, so the operations that
compute one item from their operands are written with `peekOp`, `binaryOp` and `ternaryOp`, and
those that push a value of the context with `pushOp`. Nothing here checks the stack's depth:
`EVMInterpreter.Run` validates it before an operation runs, and a pop of an empty stack panics.
-/

namespace Harmony

open Go

namespace Vm

variable {S : Type}

/-- go-ethereum's `params.CallStipend`: the gas a call that sends value gives for free. -/
def CallStipend : UInt64 := 2300

/-- Go's `executionFunc`: the frame after the operation, and the bytes it returns. -/
abbrev ExecutionFunc (S : Type) := EVM S → Invocation → Frame S → Exec (Frame S × Bytes)

/-! ## Shapes of operations -/

/-- Replace the top item by `f` of it: `x := stack.peek()` overwritten, or `stack.push(f(stack.pop()))`. -/
def peekOp (f : EVM S → Invocation → Frame S → Nat → Nat) : ExecutionFunc S := fun evm inv frame => do
  let (x, stack) ← frame.stack.pop
  pure ({ frame with stack := stack.push (f evm inv frame x) }, [])

/-- `x, y := stack.pop(), stack.peek()` with `y` overwritten by `f x y`. -/
def binaryOp (f : Nat → Nat → Nat) : ExecutionFunc S := fun _ _ frame => do
  let (x, stack) ← frame.stack.pop
  let (y, stack) ← stack.pop
  pure ({ frame with stack := stack.push (f x y) }, [])

/-- `x, y, z := stack.pop(), stack.pop(), stack.pop()` and `f x y z` pushed. -/
def ternaryOp (f : Nat → Nat → Nat → Nat) : ExecutionFunc S := fun _ _ frame => do
  let (x, stack) ← frame.stack.pop
  let (y, stack) ← stack.pop
  let (z, stack) ← stack.pop
  pure ({ frame with stack := stack.push (f x y z) }, [])

/-- Push a value of the context or the frame. -/
def pushOp (value : EVM S → Invocation → Frame S → Nat) : ExecutionFunc S := fun evm inv frame =>
  pure ({ frame with stack := frame.stack.push (value evm inv frame) }, [])

/-! ## Arithmetic, comparison and bits -/

def opAdd : ExecutionFunc S := binaryOp fun x y => U256 (x + y)

def opSub : ExecutionFunc S := binaryOp fun x y => U256 ((x : Int) - y)

def opMul : ExecutionFunc S := binaryOp fun x y => U256 (x * y)

def opDiv : ExecutionFunc S := binaryOp fun x y => if y ≠ 0 then U256 (x / y) else 0

/-- Go's `opSdiv`: the quotient of the magnitudes, negated when the signs differ. -/
def opSdiv : ExecutionFunc S := binaryOp fun x y =>
  let x := S256 x
  let y := S256 y
  if y.sign = 0 ∨ x.sign = 0 then 0
  else if x.sign ≠ y.sign then U256 (-((x.natAbs / y.natAbs : Nat) : Int))
  else U256 (x.natAbs / y.natAbs)

def opMod : ExecutionFunc S := binaryOp fun x y => if y = 0 then 0 else U256 (x % y)

/-- Go's `opSmod`: the remainder of the magnitudes, with the sign of the dividend. -/
def opSmod : ExecutionFunc S := binaryOp fun x y =>
  let x := S256 x
  let y := S256 y
  if y.sign = 0 then 0
  else if x < 0 then U256 (-((x.natAbs % y.natAbs : Nat) : Int))
  else U256 (x.natAbs % y.natAbs)

/-- Go's `opExp`, whose `math.Exp` truncates every product to 256 bits. -/
def opExp : ExecutionFunc S := binaryOp fun base exponent =>
  if exponent < 1 then 1
  else if base = 0 then 0
  else if exponent = 1 then base
  else base ^ exponent % 2 ^ 256

/--
Go's `opSignExtend`: the byte count is popped, and the number only when the count is below 31;
otherwise the number stays on the stack as it is.
-/
def opSignExtend : ExecutionFunc S := fun _ _ frame => do
  let (back, stack) ← frame.stack.pop
  if back < 31 then
    let bit := back * 8 + 7
    let (num, stack) ← stack.pop
    let mask : Int := 2 ^ bit - 1
    let num : Int := if num.testBit bit then Int.lor num (Int.lnot mask) else Int.land num mask
    pure ({ frame with stack := stack.push (U256 num) }, [])
  else pure ({ frame with stack }, [])

def opNot : ExecutionFunc S := peekOp fun _ _ _ x => U256 (-(x : Int) - 1)

def opLt : ExecutionFunc S := binaryOp fun x y => if x < y then 1 else 0

def opGt : ExecutionFunc S := binaryOp fun x y => if x > y then 1 else 0

/-- Go's `opSlt`: items from `2^255` on are negative. -/
def opSlt : ExecutionFunc S := binaryOp fun x y =>
  if 2 ^ 255 ≤ x ∧ y < 2 ^ 255 then 1
  else if x < 2 ^ 255 ∧ 2 ^ 255 ≤ y then 0
  else if x < y then 1 else 0

/-- Go's `opSgt`: items from `2^255` on are negative. -/
def opSgt : ExecutionFunc S := binaryOp fun x y =>
  if 2 ^ 255 ≤ x ∧ y < 2 ^ 255 then 0
  else if x < 2 ^ 255 ∧ 2 ^ 255 ≤ y then 1
  else if x > y then 1 else 0

def opEq : ExecutionFunc S := binaryOp fun x y => if x = y then 1 else 0

def opIszero : ExecutionFunc S := peekOp fun _ _ _ x => if x > 0 then 0 else 1

def opAnd : ExecutionFunc S := binaryOp fun x y => x &&& y

def opOr : ExecutionFunc S := binaryOp fun x y => x ||| y

def opXor : ExecutionFunc S := binaryOp fun x y => x ^^^ y

def opByte : ExecutionFunc S := binaryOp fun th val => if th < 32 then byteAt val th else 0

def opAddmod : ExecutionFunc S := ternaryOp fun x y z => if z > 0 then U256 ((x + y) % z) else 0

def opMulmod : ExecutionFunc S := ternaryOp fun x y z => if z > 0 then U256 (x * y % z) else 0

/-- Go's `opSHL`: shifts of 256 bits or more give zero. -/
def opSHL : ExecutionFunc S := binaryOp fun shift value =>
  let shift := U256 shift
  let value := U256 value
  if shift ≥ 256 then 0 else U256 (value <<< shift)

/-- Go's `opSHR`: shifts of 256 bits or more give zero. -/
def opSHR : ExecutionFunc S := binaryOp fun shift value =>
  let shift := U256 shift
  let value := U256 value
  if shift ≥ 256 then 0 else U256 (value >>> shift)

/-- Go's `opSAR`: the signed value shifted with its sign, all ones or zero past 255 bits. -/
def opSAR : ExecutionFunc S := binaryOp fun shift value =>
  let shift := U256 shift
  let value := S256 value
  if shift ≥ 256 then (if value ≥ 0 then 0 else U256 (-1))
  else U256 (value >>> shift)

/-! ## Hashing and the context -/

/-- Go's `opSha3`: Keccak-256 of the memory range, recorded as a preimage when configured. -/
def opSha3 : ExecutionFunc S := fun evm _ frame => do
  let (offset, stack) ← frame.stack.pop
  let (size, stack) ← stack.pop
  let data ← frame.mem.Get (toInt64 offset) (toInt64 size)
  let hash := evm.Keccak256 data
  let state := if evm.EnablePreimageRecording then evm.StateDB.AddPreimage frame.state hash data
    else frame.state
  pure ({ frame with stack := stack.push (SetBytes hash.bytes), state }, [])

def opAddress : ExecutionFunc S := pushOp fun _ inv _ => SetBytes inv.self.bytes

def opBalance : ExecutionFunc S :=
  peekOp fun evm _ frame slot => evm.StateDB.GetBalance frame.state (BigToAddress slot)

def opOrigin : ExecutionFunc S := pushOp fun evm _ _ => SetBytes evm.Origin.bytes

def opCaller : ExecutionFunc S := pushOp fun _ inv _ => SetBytes inv.CallerAddress.bytes

def opCallValue : ExecutionFunc S := pushOp fun _ inv _ => inv.value

def opCallDataLoad : ExecutionFunc S :=
  peekOp fun _ inv _ offset => SetBytes (getDataBig inv.Input offset 32)

def opCallDataSize : ExecutionFunc S := pushOp fun _ inv _ => inv.Input.length

/-- Go's `opCallDataCopy`: input bytes, padded with zeros, into memory. -/
def opCallDataCopy : ExecutionFunc S := fun _ inv frame => do
  let (memOffset, stack) ← frame.stack.pop
  let (dataOffset, stack) ← stack.pop
  let (length, stack) ← stack.pop
  let mem ← frame.mem.Set (UInt64.ofNat memOffset) (UInt64.ofNat length)
    (getDataBig inv.Input dataOffset length)
  pure ({ frame with stack, mem }, [])

def opReturnDataSize : ExecutionFunc S := pushOp fun _ _ frame => frame.returnData.length

/-- Go's `opReturnDataCopy`: a range past the last call's return data is an error. -/
def opReturnDataCopy : ExecutionFunc S := fun _ _ frame => do
  let (memOffset, stack) ← frame.stack.pop
  let (dataOffset, stack) ← stack.pop
  let (length, stack) ← stack.pop
  let last := dataOffset + length
  if 64 < last.size ∨ frame.returnData.length < last % 2 ^ 64 then
    throw (.error .errReturnDataOutOfBounds)
  match slice? frame.returnData (dataOffset % 2 ^ 64) (last % 2 ^ 64) with
  | none => throw (.panic "slice bounds out of range")
  | some data =>
    let mem ← frame.mem.Set (UInt64.ofNat memOffset) (UInt64.ofNat length) data
    pure ({ frame with stack, mem }, [])

def opExtCodeSize : ExecutionFunc S :=
  peekOp fun evm _ frame slot => evm.StateDB.GetCodeSize frame.state (BigToAddress slot)

def opCodeSize : ExecutionFunc S := pushOp fun _ _ frame => frame.contract.Code.length

/-- Go's `opCodeCopy`: code bytes, padded with zeros, into memory. -/
def opCodeCopy : ExecutionFunc S := fun _ _ frame => do
  let (memOffset, stack) ← frame.stack.pop
  let (codeOffset, stack) ← stack.pop
  let (length, stack) ← stack.pop
  let mem ← frame.mem.Set (UInt64.ofNat memOffset) (UInt64.ofNat length)
    (getDataBig frame.contract.Code codeOffset length)
  pure ({ frame with stack, mem }, [])

/-- Go's `opExtCodeCopy`: another account's code bytes, padded with zeros, into memory. -/
def opExtCodeCopy : ExecutionFunc S := fun evm _ frame => do
  let (addr, stack) ← frame.stack.pop
  let (memOffset, stack) ← stack.pop
  let (codeOffset, stack) ← stack.pop
  let (length, stack) ← stack.pop
  let code := evm.StateDB.GetCode frame.state (BigToAddress addr)
  let mem ← frame.mem.Set (UInt64.ofNat memOffset) (UInt64.ofNat length)
    (getDataBig code codeOffset length)
  pure ({ frame with stack, mem }, [])

def opExtCodeHash : ExecutionFunc S :=
  peekOp fun evm _ frame slot => SetBytes (evm.StateDB.GetCodeHash frame.state (BigToAddress slot)).bytes

def opGasprice : ExecutionFunc S := pushOp fun evm _ _ => evm.GasPrice

/-- Go's `opBlockhash`: the hash of one of the 256 blocks before this one, or zero. -/
def opBlockhash : ExecutionFunc S := peekOp fun evm _ _ num =>
  let n : Int := (evm.BlockNumber : Int) - 257
  if (num : Int) > n ∧ num < evm.BlockNumber then SetBytes (evm.GetHash (UInt64.ofNat num)).bytes
  else 0

def opCoinbase : ExecutionFunc S := pushOp fun evm _ _ => SetBytes evm.Coinbase.bytes

def opTimestamp : ExecutionFunc S := pushOp fun evm _ _ => U256 evm.Time

def opNumber : ExecutionFunc S := pushOp fun evm _ _ => U256 evm.BlockNumber

def opDifficulty : ExecutionFunc S := pushOp fun evm _ _ => U256 evm.Difficulty

def opGasLimit : ExecutionFunc S := pushOp fun evm _ _ => U256 evm.GasLimit.toNat

/-! ## Stack, memory, storage and flow -/

def opPop : ExecutionFunc S := fun _ _ frame => do
  let (_, stack) ← frame.stack.pop
  pure ({ frame with stack }, [])

def opMload : ExecutionFunc S := fun _ _ frame => do
  let (offset, stack) ← frame.stack.pop
  let val ← frame.mem.Get (toInt64 offset) 32
  pure ({ frame with stack := stack.push (SetBytes val) }, [])

def opMstore : ExecutionFunc S := fun _ _ frame => do
  let (mStart, stack) ← frame.stack.pop
  let (val, stack) ← stack.pop
  let mem ← frame.mem.Set32 (UInt64.ofNat mStart) val
  pure ({ frame with stack, mem }, [])

/-- Go's `opMstore8`; the low byte of the `int64` value is the value's low byte. -/
def opMstore8 : ExecutionFunc S := fun _ _ frame => do
  let (off, stack) ← frame.stack.pop
  let (val, stack) ← stack.pop
  let mem ← frame.mem.setByte (toInt64 off) (UInt8.ofNat val)
  pure ({ frame with stack, mem }, [])

def opSload : ExecutionFunc S := peekOp fun evm inv frame loc =>
  SetBytes (evm.StateDB.GetState frame.state inv.self (BigToHash loc)).bytes

def opSstore : ExecutionFunc S := fun evm inv frame => do
  let (loc, stack) ← frame.stack.pop
  let (val, stack) ← stack.pop
  let state := evm.StateDB.SetState frame.state inv.self (BigToHash loc) (BigToHash val)
  pure ({ frame with stack, state }, [])

/--
The jump of `opJump` and `opJumpi` to `pos`, with `stack` already popped: a destination that is
not a valid `JUMPDEST` is an error naming the opcode there.
-/
def jumpTo (frame : Frame S) (stack : Stack) (pos : Nat) : Exec (Frame S × Bytes) :=
  match frame.contract.validJumpdest pos with
  | none => throw (.panic "index out of range")
  | some (false, contract) => throw (.error (.invalidJump (contract.GetOp (pos % 2 ^ 64)) pos))
  | some (true, contract) => pure ({ frame with stack, contract, pc := pos % 2 ^ 64 }, [])

def opJump : ExecutionFunc S := fun _ _ frame => do
  let (pos, stack) ← frame.stack.pop
  jumpTo frame stack pos

/-- Go's `opJumpi`: a jump when the condition is nonzero, the next byte otherwise. -/
def opJumpi : ExecutionFunc S := fun _ _ frame => do
  let (pos, stack) ← frame.stack.pop
  let (cond, stack) ← stack.pop
  if cond ≠ 0 then jumpTo frame stack pos
  else pure ({ frame with stack, pc := frame.pc + 1 }, [])

def opJumpdest : ExecutionFunc S := fun _ _ frame => pure (frame, [])

def opPc : ExecutionFunc S := pushOp fun _ _ frame => frame.pc

def opMsize : ExecutionFunc S := pushOp fun _ _ frame => frame.mem.Len

def opGas : ExecutionFunc S := pushOp fun _ _ frame => frame.Gas.toNat

/-! ## Calls and creations -/

/--
Go's `opCreate`: the contract gives the creation all its gas, all but a 64th after EIP-150, and
gets back what the creation leaves. The new address is pushed unless the creation failed, where
running out of gas for the code's storage counts as success before Homestead.
-/
def opCreate : ExecutionFunc S := fun evm inv frame => do
  let (value, stack) ← frame.stack.pop
  let (offset, stack) ← stack.pop
  let (size, stack) ← stack.pop
  let input ← frame.mem.Get (toInt64 offset) (toInt64 size)
  let gas := if evm.IsEIP150 then frame.Gas - frame.Gas / 64 else frame.Gas
  -- `contract.UseGas(gas)`
  let Gas := if frame.Gas < gas then frame.Gas else frame.Gas - gas
  let created := evm.Create frame.state inv input gas value
  let pushed :=
    if evm.IsHomestead ∧ created.err = some .ErrCodeStoreOutOfGas then 0
    else if created.err.isSome ∧ created.err ≠ some .ErrCodeStoreOutOfGas then 0
    else SetBytes created.contractAddr.bytes
  let after : Frame S :=
    { frame with
      stack := stack.push pushed
      Gas := Gas + created.leftOverGas
      state := created.state }
  pure (after, if created.err = some .errExecutionReverted then created.ret else [])

/-- Go's `opCreate2`: as `opCreate` with a salt, and always under EIP-150's rule. -/
def opCreate2 : ExecutionFunc S := fun evm inv frame => do
  let (endowment, stack) ← frame.stack.pop
  let (offset, stack) ← stack.pop
  let (size, stack) ← stack.pop
  let (salt, stack) ← stack.pop
  let input ← frame.mem.Get (toInt64 offset) (toInt64 size)
  let gas := frame.Gas - frame.Gas / 64
  -- `contract.UseGas(gas)`
  let Gas := if frame.Gas < gas then frame.Gas else frame.Gas - gas
  let created := evm.Create2 frame.state inv input gas endowment salt
  let pushed := if created.err.isSome then 0 else SetBytes created.contractAddr.bytes
  let after : Frame S :=
    { frame with
      stack := stack.push pushed
      Gas := Gas + created.leftOverGas
      state := created.state }
  pure (after, if created.err = some .errExecutionReverted then created.ret else [])

/--
Go's `opCall` and `opCallCode`: the gas given is what the gas function left in `callGasTemp`,
with the stipend added when value is sent. The call's output goes to memory unless it failed
other than by reverting, and the gas it leaves comes back to the contract.
-/
def callOp (call : EVM S → S → Invocation → Address → Bytes → UInt64 → Nat → CallResult S) :
    ExecutionFunc S := fun evm inv frame => do
  -- The requested gas is popped and dropped.
  let (_, stack) ← frame.stack.pop
  let gas := frame.callGasTemp
  let (addr, stack) ← stack.pop
  let (value, stack) ← stack.pop
  let (inOffset, stack) ← stack.pop
  let (inSize, stack) ← stack.pop
  let (retOffset, stack) ← stack.pop
  let (retSize, stack) ← stack.pop
  let value := U256 value
  let args ← frame.mem.Get (toInt64 inOffset) (toInt64 inSize)
  let gas := if value ≠ 0 then gas + CallStipend else gas
  let result := call evm frame.state inv (BigToAddress addr) args gas value
  let stack := stack.push (if result.err.isSome then 0 else 1)
  let mem ← if result.err = none ∨ result.err = some .errExecutionReverted then
      frame.mem.Set (UInt64.ofNat retOffset) (UInt64.ofNat retSize) result.ret
    else pure frame.mem
  let after : Frame S :=
    { frame with stack, mem, Gas := frame.Gas + result.leftOverGas, state := result.state }
  pure (after, result.ret)

def opCall : ExecutionFunc S := callOp EVM.Call

def opCallCode : ExecutionFunc S := callOp EVM.CallCode

/-- Go's `opDelegateCall` and `opStaticCall`: `callOp` without a value. -/
def delegateOp (call : EVM S → S → Invocation → Address → Bytes → UInt64 → CallResult S) :
    ExecutionFunc S := fun evm inv frame => do
  let (_, stack) ← frame.stack.pop
  let gas := frame.callGasTemp
  let (addr, stack) ← stack.pop
  let (inOffset, stack) ← stack.pop
  let (inSize, stack) ← stack.pop
  let (retOffset, stack) ← stack.pop
  let (retSize, stack) ← stack.pop
  let args ← frame.mem.Get (toInt64 inOffset) (toInt64 inSize)
  let result := call evm frame.state inv (BigToAddress addr) args gas
  let stack := stack.push (if result.err.isSome then 0 else 1)
  let mem ← if result.err = none ∨ result.err = some .errExecutionReverted then
      frame.mem.Set (UInt64.ofNat retOffset) (UInt64.ofNat retSize) result.ret
    else pure frame.mem
  let after : Frame S :=
    { frame with stack, mem, Gas := frame.Gas + result.leftOverGas, state := result.state }
  pure (after, result.ret)

def opDelegateCall : ExecutionFunc S := delegateOp EVM.DelegateCall

def opStaticCall : ExecutionFunc S := delegateOp EVM.StaticCall

/-- Go's `opReturn`: the memory range to return. -/
def opReturn : ExecutionFunc S := fun _ _ frame => do
  let (offset, stack) ← frame.stack.pop
  let (size, stack) ← stack.pop
  let ret ← frame.mem.GetPtr (toInt64 offset) (toInt64 size)
  pure ({ frame with stack }, ret)

/-- Go's `opRevert`, whose body is `opReturn`'s. -/
def opRevert : ExecutionFunc S := opReturn

def opStop : ExecutionFunc S := fun _ _ frame => pure (frame, [])

/-- Go's `opSuicide`: the balance goes to the beneficiary and the account is marked. -/
def opSuicide : ExecutionFunc S := fun evm inv frame => do
  let balance := evm.StateDB.GetBalance frame.state inv.self
  let (beneficiary, stack) ← frame.stack.pop
  let state := evm.StateDB.AddBalance frame.state (BigToAddress beneficiary) balance
  pure ({ frame with stack, state := evm.StateDB.Suicide state inv.self }, [])

/-! ## The families -/

/-- Go's `makeLog(size)`: a log of a memory range with `size` topics. -/
def makeLog (size : Nat) : ExecutionFunc S := fun evm inv frame => do
  let (mStart, stack) ← frame.stack.pop
  let (mSize, stack) ← stack.pop
  let (topics, stack) ← stack.popN size
  let d ← frame.mem.Get (toInt64 mStart) (toInt64 mSize)
  let state := evm.StateDB.AddLog frame.state
    { Address := inv.self, Topics := topics.map BigToHash, Data := d,
      BlockNumber := UInt64.ofNat evm.BlockNumber }
  pure ({ frame with stack, state }, [])

/--
Go's `makePush(size, pushByteSize)`: the bytes after the opcode, cut at the code's end and padded
with zeros, are pushed, and the program counter moves over them.
-/
def makePush (size pushByteSize : Nat) : ExecutionFunc S := fun _ _ frame =>
  let codeLen := frame.contract.Code.length
  let startMin := if frame.pc + 1 < codeLen then frame.pc + 1 else codeLen
  let endMin := if startMin + pushByteSize < codeLen then startMin + pushByteSize else codeLen
  match slice? frame.contract.Code startMin endMin with
  | none => throw (.panic "slice bounds out of range")
  | some data =>
    let after : Frame S :=
      { frame with
        stack := frame.stack.push (SetBytes (RightPadBytes data pushByteSize))
        pc := frame.pc + size }
    pure (after, [])

/-- Go's `makeDup(size)`. -/
def makeDup (size : Nat) : ExecutionFunc S := fun _ _ frame => do
  let stack ← frame.stack.dup size
  pure ({ frame with stack }, [])

/-- Go's `makeSwap(size)`, which swaps with the item `size + 1` from the top. -/
def makeSwap (size : Nat) : ExecutionFunc S := fun _ _ frame => do
  let stack ← frame.stack.swap (size + 1)
  pure ({ frame with stack }, [])

end Vm

end Harmony
