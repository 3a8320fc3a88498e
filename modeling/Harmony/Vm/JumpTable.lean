import Harmony.Vm.Instructions

/-!
The jump table of `core/vm/jump_table.go`: for each opcode its execution, its gas function
(`gas_table.go`, `gas.go`), its stack bounds (`stack_table.go`), the memory it touches
(`memory_table.go`) and its flags, in the four instruction sets from Frontier to Constantinople.

Go's table is an array of 256 operations indexed by the opcode byte, and the entries it does not
list are zero operations whose `valid` is false. Here the bytes Go names are decoded to `OpCode`
as `opcodes.go` numbers them, and an instruction set gives `none` for an invalid entry. The gas
prices are go-ethereum's `params` at the version the repository builds against.
-/

namespace Harmony

open Go

namespace Vm

variable {S : Type}

/-! ## Gas prices: `gas.go` and go-ethereum's `params` -/

def GasQuickStep : UInt64 := 2
def GasFastestStep : UInt64 := 3
def GasFastStep : UInt64 := 5
def GasMidStep : UInt64 := 8
def GasSlowStep : UInt64 := 10
def GasExtStep : UInt64 := 20

def JumpdestGas : UInt64 := 1
def CopyGas : UInt64 := 3
def Sha3Gas : UInt64 := 30
def Sha3WordGas : UInt64 := 6
def LogGas : UInt64 := 375
def LogTopicGas : UInt64 := 375
def LogDataGas : UInt64 := 8
def CreateGas : UInt64 := 32000
def Create2Gas : UInt64 := 32000
def CallNewAccountGas : UInt64 := 25000
def CallValueTransferGas : UInt64 := 9000
def SstoreSetGas : UInt64 := 20000
def SstoreResetGas : UInt64 := 5000
def SstoreClearGas : UInt64 := 5000
def SstoreRefundGas : UInt64 := 15000
def NetSstoreNoopGas : UInt64 := 200
def NetSstoreInitGas : UInt64 := 20000
def NetSstoreCleanGas : UInt64 := 5000
def NetSstoreDirtyGas : UInt64 := 200
def NetSstoreClearRefund : UInt64 := 15000
def NetSstoreResetRefund : UInt64 := 4800
def NetSstoreResetClearRefund : UInt64 := 19800
def SuicideRefundGas : UInt64 := 24000

/-! ## Gas functions: `gas_table.go` -/

/--
Go's `gasFunc`: the gas an operation costs before it runs, given the memory size it needs. It may
record the memory's new fee, refunds in the state and the gas of a call in `callGasTemp`.
-/
abbrev GasFunc (S : Type) := GasTable → EVM S → Invocation → Frame S → UInt64 → Exec (UInt64 × Frame S)

/-- `math.SafeAdd` with Go's `if overflow { return 0, errGasUintOverflow }`. -/
def checkedAdd (x y : UInt64) : Exec UInt64 :=
  let (sum, overflow) := SafeAdd x y
  if overflow then throw (.error .errGasUintOverflow) else pure sum

/-- `math.SafeMul` with Go's `if overflow { return 0, errGasUintOverflow }`. -/
def checkedMul (x y : UInt64) : Exec UInt64 :=
  let (product, overflow) := SafeMul x y
  if overflow then throw (.error .errGasUintOverflow) else pure product

/-- `bigUint64` with Go's `if overflow { return 0, errGasUintOverflow }`. -/
def checkedUint64 (v : Nat) : Exec UInt64 :=
  let (low, overflow) := bigUint64 v
  if overflow then throw (.error .errGasUintOverflow) else pure low

/-- `memoryGasCost(mem, memorySize)` on the frame's memory; its error is `errGasUintOverflow`. -/
def Frame.memoryGasCost (frame : Frame S) (memorySize : UInt64) : Exec (UInt64 × Frame S) :=
  match Vm.memoryGasCost frame.mem memorySize with
  | .error _ => throw (.error .errGasUintOverflow)
  | .ok (fee, mem) => pure (fee, { frame with mem })

/-- Go's `constGasFunc(gas)`. -/
def constGasFunc (gas : UInt64) : GasFunc S := fun _ _ _ frame _ => pure (gas, frame)

/-- The gas functions that return one price of the gas table. -/
def tableGas (price : GasTable → UInt64) : GasFunc S := fun gt _ _ frame _ => pure (price gt, frame)

def gasBalance : GasFunc S := tableGas GasTable.Balance

def gasExtCodeSize : GasFunc S := tableGas GasTable.ExtcodeSize

def gasSLoad : GasFunc S := tableGas GasTable.SLoad

def gasExtCodeHash : GasFunc S := tableGas GasTable.ExtcodeHash

def gasPush : GasFunc S := constGasFunc GasFastestStep

def gasSwap : GasFunc S := constGasFunc GasFastestStep

def gasDup : GasFunc S := constGasFunc GasFastestStep

/--
The gas of an operation that copies `Back(index)` bytes: the memory fee, a base price, and a
price per word copied, each sum checked for overflow.
-/
def copierGas (base : GasTable → UInt64) (index : Nat) (wordGas : UInt64) : GasFunc S :=
  fun gt _ _ frame memorySize => do
    let (gas, frame) ← frame.memoryGasCost memorySize
    let gas ← checkedAdd gas (base gt)
    let words ← checkedUint64 (← frame.stack.Back index)
    let words ← checkedMul (toWordSize words) wordGas
    let gas ← checkedAdd gas words
    pure (gas, frame)

def gasCallDataCopy : GasFunc S := copierGas (fun _ => GasFastestStep) 2 CopyGas

def gasReturnDataCopy : GasFunc S := copierGas (fun _ => GasFastestStep) 2 CopyGas

def gasSha3 : GasFunc S := copierGas (fun _ => Sha3Gas) 1 Sha3WordGas

def gasCodeCopy : GasFunc S := copierGas (fun _ => GasFastestStep) 2 CopyGas

def gasExtCodeCopy : GasFunc S := copierGas GasTable.ExtcodeCopy 3 CopyGas

def gasCreate2 : GasFunc S := copierGas (fun _ => Create2Gas) 2 Sha3WordGas

/-- The gas of an operation that pays its memory fee and one price. -/
def memoryStepGas (price : UInt64) : GasFunc S := fun _ _ _ frame memorySize => do
  let (gas, frame) ← frame.memoryGasCost memorySize
  let gas ← checkedAdd gas price
  pure (gas, frame)

def gasMLoad : GasFunc S := memoryStepGas GasFastestStep

def gasMStore8 : GasFunc S := memoryStepGas GasFastestStep

def gasMStore : GasFunc S := memoryStepGas GasFastestStep

def gasCreate : GasFunc S := memoryStepGas CreateGas

/-- Go's `gasReturn` on the frame; `Harmony.Vm.gasReturn` is its part on the memory. -/
def frameGasReturn : GasFunc S := fun _ _ _ frame memorySize =>
  match gasReturn frame.mem memorySize with
  | .error _ => throw (.error .errGasUintOverflow)
  | .ok (fee, mem) => pure (fee, { frame with mem })

/-- Go's `gasRevert`: the memory fee alone. -/
def gasRevert : GasFunc S := fun _ _ _ frame memorySize => frame.memoryGasCost memorySize

/-- Go's `makeGasLog(n)`: the data's size is checked first, then the memory fee and the prices. -/
def makeGasLog (n : Nat) : GasFunc S := fun _ _ _ frame memorySize => do
  let requestedSize ← checkedUint64 (← frame.stack.Back 1)
  let (gas, frame) ← frame.memoryGasCost memorySize
  let gas ← checkedAdd gas LogGas
  let gas ← checkedAdd gas (UInt64.ofNat n * LogTopicGas)
  let memorySizeGas ← checkedMul requestedSize LogDataGas
  let gas ← checkedAdd gas memorySizeGas
  pure (gas, frame)

/-- Go's `gasExp`: a price per byte of the exponent, which cannot overflow. -/
def gasExp : GasFunc S := fun gt _ _ frame _ => do
  let exponent ← frame.stack.Back 1
  let expByteLen := UInt64.ofNat ((exponent.size + 7) / 8)
  let gas ← checkedAdd (expByteLen * gt.ExpByte) GasSlowStep
  pure (gas, frame)

/--
Go's `gasSStore`: before Constantinople the price depends on whether the slot goes from or to
zero; after, EIP-1283's net metering compares the new value with the current and the committed
one and moves the refund counter.
-/
def gasSStore : GasFunc S := fun _ evm inv frame _ => do
  let y ← frame.stack.Back 1
  let x ← frame.stack.Back 0
  let db := evm.StateDB
  let current := db.GetState frame.state inv.self (BigToHash x)
  let zero := FixedBytes.zero 32
  if ¬evm.IsConstantinople then
    if current = zero ∧ y ≠ 0 then pure (SstoreSetGas, frame)
    else if current ≠ zero ∧ y = 0 then
      pure (SstoreClearGas, { frame with state := db.AddRefund frame.state SstoreRefundGas })
    else pure (SstoreResetGas, frame)
  else
    let value := BigToHash y
    if current = value then pure (NetSstoreNoopGas, frame)
    else
      let original := db.GetCommittedState frame.state inv.self (BigToHash x)
      if original = current then
        if original = zero then pure (NetSstoreInitGas, frame)
        else
          let state := if value = zero then db.AddRefund frame.state NetSstoreClearRefund
            else frame.state
          pure (NetSstoreCleanGas, { frame with state })
      else
        let state :=
          if original ≠ zero then
            if current = zero then db.SubRefund frame.state NetSstoreClearRefund
            else if value = zero then db.AddRefund frame.state NetSstoreClearRefund
            else frame.state
          else frame.state
        let state :=
          if original = value then
            if original = zero then db.AddRefund state NetSstoreResetClearRefund
            else db.AddRefund state NetSstoreResetRefund
          else state
        pure (NetSstoreDirtyGas, { frame with state })

/--
Go's `callGas`: with EIP-150's gas table a call gets at most all but a 64th of the gas left after
the call's own price, and asking for more is no error.
-/
def callGas (gasTable : GasTable) (availableGas base : UInt64) (callCost : Nat) : Exec UInt64 :=
  let capped : Option UInt64 :=
    if gasTable.CreateBySuicide > 0 then
      let availableGas := availableGas - base
      let gas := availableGas - availableGas / 64
      if 64 < callCost.size ∨ gas < UInt64.ofNat callCost then some gas else none
    else none
  match capped with
  | some gas => pure gas
  | none =>
    if 64 < callCost.size then throw (.error .errGasUintOverflow) else pure (UInt64.ofNat callCost)

/--
Go's `gasCall`: the call price, a new account's price when the call creates one, the value
transfer's price, the memory fee, and the gas given to the call, which is kept in `callGasTemp`.
-/
def gasCall : GasFunc S := fun gt evm _ frame memorySize => do
  let transfersValue := (← frame.stack.Back 2) ≠ 0
  let address := BigToAddress (← frame.stack.Back 1)
  let gas := gt.Calls
  let gas :=
    if evm.IsEIP158 then
      if transfersValue ∧ evm.StateDB.Empty frame.state address then gas + CallNewAccountGas
      else gas
    else if ¬evm.StateDB.Exist frame.state address then gas + CallNewAccountGas
    else gas
  let gas := if transfersValue then gas + CallValueTransferGas else gas
  let (memoryGas, frame) ← frame.memoryGasCost memorySize
  let gas ← checkedAdd gas memoryGas
  let callGasTemp ← callGas gt frame.Gas gas (← frame.stack.Back 0)
  let gas ← checkedAdd gas callGasTemp
  pure (gas, { frame with callGasTemp })

/-- Go's `gasCallCode`: `gasCall` without the new account's price. -/
def gasCallCode : GasFunc S := fun gt _ _ frame memorySize => do
  let gas := gt.Calls
  let gas := if (← frame.stack.Back 2) ≠ 0 then gas + CallValueTransferGas else gas
  let (memoryGas, frame) ← frame.memoryGasCost memorySize
  let gas ← checkedAdd gas memoryGas
  let callGasTemp ← callGas gt frame.Gas gas (← frame.stack.Back 0)
  let gas ← checkedAdd gas callGasTemp
  pure (gas, { frame with callGasTemp })

/-- Go's `gasDelegateCall`: the memory fee, the call price and the gas given to the call. -/
def gasDelegateCall : GasFunc S := fun gt _ _ frame memorySize => do
  let (gas, frame) ← frame.memoryGasCost memorySize
  let gas ← checkedAdd gas gt.Calls
  let callGasTemp ← callGas gt frame.Gas gas (← frame.stack.Back 0)
  let gas ← checkedAdd gas callGasTemp
  pure (gas, { frame with callGasTemp })

/-- Go's `gasStaticCall`, whose body is `gasDelegateCall`'s. -/
def gasStaticCall : GasFunc S := gasDelegateCall

/--
Go's `gasSuicide`: after EIP-150 a price, and a new account's price when the beneficiary is
created; the refund is recorded once per account.
-/
def gasSuicide : GasFunc S := fun gt evm inv frame _ => do
  let db := evm.StateDB
  let gas ←
    if evm.IsEIP150 then do
      let address := BigToAddress (← frame.stack.Back 0)
      let creates :=
        if evm.IsEIP158 then db.Empty frame.state address ∧ db.GetBalance frame.state inv.self ≠ 0
        else ¬db.Exist frame.state address
      pure (if creates then gt.Suicide + gt.CreateBySuicide else gt.Suicide)
    else pure 0
  let state := if ¬db.HasSuicided frame.state inv.self then db.AddRefund frame.state SuicideRefundGas
    else frame.state
  pure (gas, { frame with state })

/-! ## Memory sizes: `memory_table.go` -/

/-- The end of the memory range at offset `Back(offsetAt)` of length `Back(sizeAt)`. -/
def memoryRange (offsetAt sizeAt : Nat) (stack : Stack) : Exec Nat := do
  let off ← stack.Back offsetAt
  let l ← stack.Back sizeAt
  pure (calcMemSize off l)

/-- The end of the memory range of `size` bytes at offset `Back(0)`. -/
def memoryFixed (size : Nat) (stack : Stack) : Exec Nat := do
  pure (calcMemSize (← stack.Back 0) size)

/-- The larger end of a call's output range at `retAt` and its input range at `argsAt`. -/
def memoryCalls (retAt argsAt : Nat) (stack : Stack) : Exec Nat := do
  let x ← memoryRange retAt (retAt + 1) stack
  let y ← memoryRange argsAt (argsAt + 1) stack
  pure (max x y)

def memorySha3 : Stack → Exec Nat := memoryRange 0 1
def memoryCallDataCopy : Stack → Exec Nat := memoryRange 0 2
def memoryReturnDataCopy : Stack → Exec Nat := memoryRange 0 2
def memoryCodeCopy : Stack → Exec Nat := memoryRange 0 2
def memoryExtCodeCopy : Stack → Exec Nat := memoryRange 1 3
def memoryMLoad : Stack → Exec Nat := memoryFixed 32
def memoryMStore8 : Stack → Exec Nat := memoryFixed 1
def memoryMStore : Stack → Exec Nat := memoryFixed 32
def memoryCreate : Stack → Exec Nat := memoryRange 1 2
def memoryCreate2 : Stack → Exec Nat := memoryRange 1 2
def memoryCall : Stack → Exec Nat := memoryCalls 5 3
def memoryDelegateCall : Stack → Exec Nat := memoryCalls 4 2
def memoryStaticCall : Stack → Exec Nat := memoryCalls 4 2
def memoryReturn : Stack → Exec Nat := memoryRange 0 1
def memoryRevert : Stack → Exec Nat := memoryRange 0 1
def memoryLog : Stack → Exec Nat := memoryRange 0 1

/-! ## Stack bounds: `stack_table.go` -/

/--
Go's `makeStackFunc(pop, push)`: the operation needs `pop` items and may leave at most
`params.StackLimit`.
-/
def makeStackFunc (pop push : Nat) (stack : Stack) : Exec Unit := do
  stack.require pop
  if stack.length + push - pop > StackLimit then
    throw (.error (.stackLimitReached stack.length StackLimit))

def makeDupStackFunc (n : Nat) : Stack → Exec Unit := makeStackFunc n (n + 1)

def makeSwapStackFunc (n : Nat) : Stack → Exec Unit := makeStackFunc n n

/-! ## The table: `jump_table.go`, `opcodes.go` -/

/-- Go's `operation`; an operation that is not `valid` is not in the table at all. -/
structure operation (S : Type) where
  execute : ExecutionFunc S
  gasCost : GasFunc S
  validateStack : Stack → Exec Unit
  memorySize : Option (Stack → Exec Nat) := none
  halts : Bool := false
  jumps : Bool := false
  writes : Bool := false
  reverts : Bool := false
  returns : Bool := false

/-- The opcodes Go names; `PUSH n`, `DUP n`, `SWAP n` and `LOG n` are `PUSH(n+1)`, `DUP(n+1)`,
`SWAP(n+1)` and `LOGn`. -/
inductive OpCode where
  | STOP | ADD | MUL | SUB | DIV | SDIV | MOD | SMOD | ADDMOD | MULMOD | EXP | SIGNEXTEND
  | LT | GT | SLT | SGT | EQ | ISZERO | AND | OR | XOR | NOT | BYTE | SHL | SHR | SAR
  | SHA3
  | ADDRESS | BALANCE | ORIGIN | CALLER | CALLVALUE | CALLDATALOAD | CALLDATASIZE | CALLDATACOPY
  | CODESIZE | CODECOPY | GASPRICE | EXTCODESIZE | EXTCODECOPY | RETURNDATASIZE | RETURNDATACOPY
  | EXTCODEHASH
  | BLOCKHASH | COINBASE | TIMESTAMP | NUMBER | DIFFICULTY | GASLIMIT
  | POP | MLOAD | MSTORE | MSTORE8 | SLOAD | SSTORE | JUMP | JUMPI | PC | MSIZE | GAS | JUMPDEST
  | PUSH (n : Fin 32)
  | DUP (n : Fin 16)
  | SWAP (n : Fin 16)
  | LOG (n : Fin 5)
  | CREATE | CALL | CALLCODE | RETURN | DELEGATECALL | CREATE2 | STATICCALL | REVERT | SELFDESTRUCT
  deriving DecidableEq

/-- The opcodes of the bytes outside the four numbered runs, as `opcodes.go` numbers them. -/
def OpCode.ofNamedByte : Nat → Option OpCode
  | 0x00 => some .STOP
  | 0x01 => some .ADD
  | 0x02 => some .MUL
  | 0x03 => some .SUB
  | 0x04 => some .DIV
  | 0x05 => some .SDIV
  | 0x06 => some .MOD
  | 0x07 => some .SMOD
  | 0x08 => some .ADDMOD
  | 0x09 => some .MULMOD
  | 0x0a => some .EXP
  | 0x0b => some .SIGNEXTEND
  | 0x10 => some .LT
  | 0x11 => some .GT
  | 0x12 => some .SLT
  | 0x13 => some .SGT
  | 0x14 => some .EQ
  | 0x15 => some .ISZERO
  | 0x16 => some .AND
  | 0x17 => some .OR
  | 0x18 => some .XOR
  | 0x19 => some .NOT
  | 0x1a => some .BYTE
  | 0x1b => some .SHL
  | 0x1c => some .SHR
  | 0x1d => some .SAR
  | 0x20 => some .SHA3
  | 0x30 => some .ADDRESS
  | 0x31 => some .BALANCE
  | 0x32 => some .ORIGIN
  | 0x33 => some .CALLER
  | 0x34 => some .CALLVALUE
  | 0x35 => some .CALLDATALOAD
  | 0x36 => some .CALLDATASIZE
  | 0x37 => some .CALLDATACOPY
  | 0x38 => some .CODESIZE
  | 0x39 => some .CODECOPY
  | 0x3a => some .GASPRICE
  | 0x3b => some .EXTCODESIZE
  | 0x3c => some .EXTCODECOPY
  | 0x3d => some .RETURNDATASIZE
  | 0x3e => some .RETURNDATACOPY
  | 0x3f => some .EXTCODEHASH
  | 0x40 => some .BLOCKHASH
  | 0x41 => some .COINBASE
  | 0x42 => some .TIMESTAMP
  | 0x43 => some .NUMBER
  | 0x44 => some .DIFFICULTY
  | 0x45 => some .GASLIMIT
  | 0x50 => some .POP
  | 0x51 => some .MLOAD
  | 0x52 => some .MSTORE
  | 0x53 => some .MSTORE8
  | 0x54 => some .SLOAD
  | 0x55 => some .SSTORE
  | 0x56 => some .JUMP
  | 0x57 => some .JUMPI
  | 0x58 => some .PC
  | 0x59 => some .MSIZE
  | 0x5a => some .GAS
  | 0x5b => some .JUMPDEST
  | 0xf0 => some .CREATE
  | 0xf1 => some .CALL
  | 0xf2 => some .CALLCODE
  | 0xf3 => some .RETURN
  | 0xf4 => some .DELEGATECALL
  | 0xf5 => some .CREATE2
  | 0xfa => some .STATICCALL
  | 0xfd => some .REVERT
  | 0xff => some .SELFDESTRUCT
  | _ => none

/-- The opcode of a byte: `PUSH1`..`PUSH32` from `0x60`, `DUP1`..`DUP16` from `0x80`,
`SWAP1`..`SWAP16` from `0x90`, `LOG0`..`LOG4` from `0xa0`, and the named bytes. -/
def OpCode.ofByte (op : UInt8) : Option OpCode :=
  if h : 0x60 ≤ op.toNat ∧ op.toNat ≤ 0x7f then some (.PUSH ⟨op.toNat - 0x60, by omega⟩)
  else if h : 0x80 ≤ op.toNat ∧ op.toNat ≤ 0x8f then some (.DUP ⟨op.toNat - 0x80, by omega⟩)
  else if h : 0x90 ≤ op.toNat ∧ op.toNat ≤ 0x9f then some (.SWAP ⟨op.toNat - 0x90, by omega⟩)
  else if h : 0xa0 ≤ op.toNat ∧ op.toNat ≤ 0xa4 then some (.LOG ⟨op.toNat - 0xa0, by omega⟩)
  else OpCode.ofNamedByte op.toNat

/-- Go's `newFrontierInstructionSet()`. -/
def newFrontierInstructionSet : OpCode → Option (operation S)
  | .STOP => some
      { execute := opStop, gasCost := constGasFunc 0,
        validateStack := makeStackFunc 0 0, halts := true }
  | .ADD => some
      { execute := opAdd, gasCost := constGasFunc GasFastestStep,
        validateStack := makeStackFunc 2 1 }
  | .MUL => some
      { execute := opMul, gasCost := constGasFunc GasFastStep,
        validateStack := makeStackFunc 2 1 }
  | .SUB => some
      { execute := opSub, gasCost := constGasFunc GasFastestStep,
        validateStack := makeStackFunc 2 1 }
  | .DIV => some
      { execute := opDiv, gasCost := constGasFunc GasFastStep,
        validateStack := makeStackFunc 2 1 }
  | .SDIV => some
      { execute := opSdiv, gasCost := constGasFunc GasFastStep,
        validateStack := makeStackFunc 2 1 }
  | .MOD => some
      { execute := opMod, gasCost := constGasFunc GasFastStep,
        validateStack := makeStackFunc 2 1 }
  | .SMOD => some
      { execute := opSmod, gasCost := constGasFunc GasFastStep,
        validateStack := makeStackFunc 2 1 }
  | .ADDMOD => some
      { execute := opAddmod, gasCost := constGasFunc GasMidStep,
        validateStack := makeStackFunc 3 1 }
  | .MULMOD => some
      { execute := opMulmod, gasCost := constGasFunc GasMidStep,
        validateStack := makeStackFunc 3 1 }
  | .EXP => some
      { execute := opExp, gasCost := gasExp, validateStack := makeStackFunc 2 1 }
  | .SIGNEXTEND => some
      { execute := opSignExtend, gasCost := constGasFunc GasFastStep,
        validateStack := makeStackFunc 2 1 }
  | .LT => some
      { execute := opLt, gasCost := constGasFunc GasFastestStep,
        validateStack := makeStackFunc 2 1 }
  | .GT => some
      { execute := opGt, gasCost := constGasFunc GasFastestStep,
        validateStack := makeStackFunc 2 1 }
  | .SLT => some
      { execute := opSlt, gasCost := constGasFunc GasFastestStep,
        validateStack := makeStackFunc 2 1 }
  | .SGT => some
      { execute := opSgt, gasCost := constGasFunc GasFastestStep,
        validateStack := makeStackFunc 2 1 }
  | .EQ => some
      { execute := opEq, gasCost := constGasFunc GasFastestStep,
        validateStack := makeStackFunc 2 1 }
  | .ISZERO => some
      { execute := opIszero, gasCost := constGasFunc GasFastestStep,
        validateStack := makeStackFunc 1 1 }
  | .AND => some
      { execute := opAnd, gasCost := constGasFunc GasFastestStep,
        validateStack := makeStackFunc 2 1 }
  | .XOR => some
      { execute := opXor, gasCost := constGasFunc GasFastestStep,
        validateStack := makeStackFunc 2 1 }
  | .OR => some
      { execute := opOr, gasCost := constGasFunc GasFastestStep,
        validateStack := makeStackFunc 2 1 }
  | .NOT => some
      { execute := opNot, gasCost := constGasFunc GasFastestStep,
        validateStack := makeStackFunc 1 1 }
  | .BYTE => some
      { execute := opByte, gasCost := constGasFunc GasFastestStep,
        validateStack := makeStackFunc 2 1 }
  | .SHA3 => some
      { execute := opSha3, gasCost := gasSha3, validateStack := makeStackFunc 2 1,
        memorySize := some memorySha3 }
  | .ADDRESS => some
      { execute := opAddress, gasCost := constGasFunc GasQuickStep,
        validateStack := makeStackFunc 0 1 }
  | .BALANCE => some
      { execute := opBalance, gasCost := gasBalance,
        validateStack := makeStackFunc 1 1 }
  | .ORIGIN => some
      { execute := opOrigin, gasCost := constGasFunc GasQuickStep,
        validateStack := makeStackFunc 0 1 }
  | .CALLER => some
      { execute := opCaller, gasCost := constGasFunc GasQuickStep,
        validateStack := makeStackFunc 0 1 }
  | .CALLVALUE => some
      { execute := opCallValue, gasCost := constGasFunc GasQuickStep,
        validateStack := makeStackFunc 0 1 }
  | .CALLDATALOAD => some
      { execute := opCallDataLoad, gasCost := constGasFunc GasFastestStep,
        validateStack := makeStackFunc 1 1 }
  | .CALLDATASIZE => some
      { execute := opCallDataSize, gasCost := constGasFunc GasQuickStep,
        validateStack := makeStackFunc 0 1 }
  | .CALLDATACOPY => some
      { execute := opCallDataCopy, gasCost := gasCallDataCopy,
        validateStack := makeStackFunc 3 0, memorySize := some memoryCallDataCopy }
  | .CODESIZE => some
      { execute := opCodeSize, gasCost := constGasFunc GasQuickStep,
        validateStack := makeStackFunc 0 1 }
  | .CODECOPY => some
      { execute := opCodeCopy, gasCost := gasCodeCopy,
        validateStack := makeStackFunc 3 0, memorySize := some memoryCodeCopy }
  | .GASPRICE => some
      { execute := opGasprice, gasCost := constGasFunc GasQuickStep,
        validateStack := makeStackFunc 0 1 }
  | .EXTCODESIZE => some
      { execute := opExtCodeSize, gasCost := gasExtCodeSize,
        validateStack := makeStackFunc 1 1 }
  | .EXTCODECOPY => some
      { execute := opExtCodeCopy, gasCost := gasExtCodeCopy,
        validateStack := makeStackFunc 4 0, memorySize := some memoryExtCodeCopy }
  | .BLOCKHASH => some
      { execute := opBlockhash, gasCost := constGasFunc GasExtStep,
        validateStack := makeStackFunc 1 1 }
  | .COINBASE => some
      { execute := opCoinbase, gasCost := constGasFunc GasQuickStep,
        validateStack := makeStackFunc 0 1 }
  | .TIMESTAMP => some
      { execute := opTimestamp, gasCost := constGasFunc GasQuickStep,
        validateStack := makeStackFunc 0 1 }
  | .NUMBER => some
      { execute := opNumber, gasCost := constGasFunc GasQuickStep,
        validateStack := makeStackFunc 0 1 }
  | .DIFFICULTY => some
      { execute := opDifficulty, gasCost := constGasFunc GasQuickStep,
        validateStack := makeStackFunc 0 1 }
  | .GASLIMIT => some
      { execute := opGasLimit, gasCost := constGasFunc GasQuickStep,
        validateStack := makeStackFunc 0 1 }
  | .POP => some
      { execute := opPop, gasCost := constGasFunc GasQuickStep,
        validateStack := makeStackFunc 1 0 }
  | .MLOAD => some
      { execute := opMload, gasCost := gasMLoad, validateStack := makeStackFunc 1 1,
        memorySize := some memoryMLoad }
  | .MSTORE => some
      { execute := opMstore, gasCost := gasMStore,
        validateStack := makeStackFunc 2 0, memorySize := some memoryMStore }
  | .MSTORE8 => some
      { execute := opMstore8, gasCost := gasMStore8,
        validateStack := makeStackFunc 2 0, memorySize := some memoryMStore8 }
  | .SLOAD => some
      { execute := opSload, gasCost := gasSLoad, validateStack := makeStackFunc 1 1 }
  | .SSTORE => some
      { execute := opSstore, gasCost := gasSStore,
        validateStack := makeStackFunc 2 0, writes := true }
  | .JUMP => some
      { execute := opJump, gasCost := constGasFunc GasMidStep,
        validateStack := makeStackFunc 1 0, jumps := true }
  | .JUMPI => some
      { execute := opJumpi, gasCost := constGasFunc GasSlowStep,
        validateStack := makeStackFunc 2 0, jumps := true }
  | .PC => some
      { execute := opPc, gasCost := constGasFunc GasQuickStep,
        validateStack := makeStackFunc 0 1 }
  | .MSIZE => some
      { execute := opMsize, gasCost := constGasFunc GasQuickStep,
        validateStack := makeStackFunc 0 1 }
  | .GAS => some
      { execute := opGas, gasCost := constGasFunc GasQuickStep,
        validateStack := makeStackFunc 0 1 }
  | .JUMPDEST => some
      { execute := opJumpdest, gasCost := constGasFunc JumpdestGas,
        validateStack := makeStackFunc 0 0 }
  | .PUSH n => some
      { execute := makePush (n + 1) (n + 1), gasCost := gasPush,
        validateStack := makeStackFunc 0 1 }
  | .DUP n => some
      { execute := makeDup (n + 1), gasCost := gasDup,
        validateStack := makeDupStackFunc (n + 1) }
  | .SWAP n => some
      { execute := makeSwap (n + 1), gasCost := gasSwap,
        validateStack := makeSwapStackFunc (n + 2) }
  | .LOG n => some
      { execute := makeLog n, gasCost := makeGasLog n,
        validateStack := makeStackFunc (n + 2) 0, memorySize := some memoryLog, writes := true }
  | .CREATE => some
      { execute := opCreate, gasCost := gasCreate,
        validateStack := makeStackFunc 3 1, memorySize := some memoryCreate, writes := true,
        returns := true }
  | .CALL => some
      { execute := opCall, gasCost := gasCall, validateStack := makeStackFunc 7 1,
        memorySize := some memoryCall, returns := true }
  | .CALLCODE => some
      { execute := opCallCode, gasCost := gasCallCode,
        validateStack := makeStackFunc 7 1, memorySize := some memoryCall, returns := true }
  | .RETURN => some
      { execute := opReturn, gasCost := frameGasReturn,
        validateStack := makeStackFunc 2 0, memorySize := some memoryReturn, halts := true }
  | .SELFDESTRUCT => some
      { execute := opSuicide, gasCost := gasSuicide,
        validateStack := makeStackFunc 1 0, halts := true, writes := true }
  -- Added by later forks.
  | .DELEGATECALL | .STATICCALL | .RETURNDATASIZE | .RETURNDATACOPY | .REVERT
  | .SHL | .SHR | .SAR | .EXTCODEHASH | .CREATE2 => none

/-- Go's `newHomesteadInstructionSet()`: Frontier's, with `DELEGATECALL`. -/
def newHomesteadInstructionSet : OpCode → Option (operation S)
  | .DELEGATECALL => some
      { execute := opDelegateCall, gasCost := gasDelegateCall,
        validateStack := makeStackFunc 6 1, memorySize := some memoryDelegateCall, returns := true }
  | op => newFrontierInstructionSet op

/-- Go's `newByzantiumInstructionSet()`: Homestead's, with `STATICCALL`, the return data and
`REVERT`. -/
def newByzantiumInstructionSet : OpCode → Option (operation S)
  | .STATICCALL => some
      { execute := opStaticCall, gasCost := gasStaticCall,
        validateStack := makeStackFunc 6 1, memorySize := some memoryStaticCall, returns := true }
  | .RETURNDATASIZE => some
      { execute := opReturnDataSize, gasCost := constGasFunc GasQuickStep,
        validateStack := makeStackFunc 0 1 }
  | .RETURNDATACOPY => some
      { execute := opReturnDataCopy, gasCost := gasReturnDataCopy,
        validateStack := makeStackFunc 3 0, memorySize := some memoryReturnDataCopy }
  | .REVERT => some
      { execute := opRevert, gasCost := gasRevert,
        validateStack := makeStackFunc 2 0, memorySize := some memoryRevert, reverts := true,
        returns := true }
  | op => newHomesteadInstructionSet op

/-- Go's `newConstantinopleInstructionSet()`: Byzantium's, with the shifts, `EXTCODEHASH` and
`CREATE2`. -/
def newConstantinopleInstructionSet : OpCode → Option (operation S)
  | .SHL => some
      { execute := opSHL, gasCost := constGasFunc GasFastestStep,
        validateStack := makeStackFunc 2 1 }
  | .SHR => some
      { execute := opSHR, gasCost := constGasFunc GasFastestStep,
        validateStack := makeStackFunc 2 1 }
  | .SAR => some
      { execute := opSAR, gasCost := constGasFunc GasFastestStep,
        validateStack := makeStackFunc 2 1 }
  | .EXTCODEHASH => some
      { execute := opExtCodeHash, gasCost := gasExtCodeHash,
        validateStack := makeStackFunc 1 1 }
  | .CREATE2 => some
      { execute := opCreate2, gasCost := gasCreate2,
        validateStack := makeStackFunc 4 1, memorySize := some memoryCreate2, writes := true,
        returns := true }
  | op => newByzantiumInstructionSet op

end Vm

end Harmony
