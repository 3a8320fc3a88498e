import Harmony.Vm.JumpTable
import Harmony.Lib.Loop

/-!
`EVMInterpreter.Run` of `core/vm/interpreter.go`: the loop that reads the opcode at the program
counter, checks the stack and the read-only rule, sizes and pays for the memory and the gas, runs
the operation and moves on.

Go's loop runs until an operation halts or fails, or until another goroutine sets the EVM's
`abort` flag, which is not modelled; here the loop is `Loop.run` with fuel. An iteration that
stops with an error leaves the frame as it was before the part that failed: what Go's functions
changed before their error is a cache or nothing. The tracer of `cfg.Debug` and the integer pool
change nothing a run computes and are left out.
-/

namespace Harmony

open Go

namespace Vm

variable {S : Type}

/-- Go's `EVMInterpreter`: its EVM, its jump table, its gas table and its read-only flag. -/
structure EVMInterpreter (S : Type) where
  evm : EVM S
  JumpTable : OpCode → Option (operation S)
  gasTable : GasTable
  readOnly : Bool

/-- The instruction set `NewEVMInterpreter` picks for the chain rules at the block. -/
def instructionSetFor (evm : EVM S) : OpCode → Option (operation S) :=
  if evm.IsConstantinople then newConstantinopleInstructionSet
  else if evm.IsByzantium then newByzantiumInstructionSet
  else if evm.IsHomestead then newHomesteadInstructionSet
  else newFrontierInstructionSet

/-- Go's `NewEVMInterpreter` with no jump table configured. -/
def NewEVMInterpreter (evm : EVM S) (gasTable : GasTable) : EVMInterpreter S :=
  { evm, JumpTable := instructionSetFor evm, gasTable, readOnly := false }

namespace EVMInterpreter

/-- The opcode of a byte and its operation in the jump table, when it is valid. -/
def operationAt (interp : EVMInterpreter S) (byte : UInt8) : Option (OpCode × operation S) :=
  (OpCode.ofByte byte).bind fun op => (interp.JumpTable op).map fun o => (op, o)

/--
Go's `enforceRestrictions`: after Byzantium, a read-only run may not write, nor call with value.
The value, `Back(2)`, is read only for a `CALL` that does not write.
-/
def enforceRestrictions (interp : EVMInterpreter S) (readOnly : Bool) (op : OpCode)
    (o : operation S) (stack : Stack) : Exec Unit :=
  if interp.evm.IsByzantium ∧ readOnly then
    if o.writes then throw (.error .errWriteProtection)
    else if op = .CALL then do
      let value ← stack.Back 2
      if 0 < value.size then throw (.error .errWriteProtection)
    else pure ()
  else pure ()

end EVMInterpreter

/--
The memory an operation needs, in bytes rounded up to words: zero for an operation that touches
none, and an overflow error when the size or its rounding passes 64 bits.
-/
def memorySizeOf (o : operation S) (stack : Stack) : Exec UInt64 :=
  match o.memorySize with
  | none => pure 0
  | some memorySize => do
    let (memSize, overflow) := bigUint64 (← memorySize stack)
    if overflow then throw (.error .errGasUintOverflow)
    let (memorySize, overflow) := SafeMul (toWordSize memSize) 32
    if overflow then throw (.error .errGasUintOverflow)
    pure memorySize

/-- What one iteration of the loop does: go on with a frame, or return bytes, an error and the
frame; a panic passes through. -/
abbrev Iteration (S : Type) := Outcome (Frame S ⊕ (Bytes × Option VmError × Frame S))

namespace Frame

/-- Return from `Run` with the frame as it stands. -/
def stop (frame : Frame S) (ret : Bytes) (err : Option VmError) : Iteration S :=
  .ok (.inr (ret, err, frame))

/-- Pass a sub-step's panic on, return from `Run` with its error, or go on with its value. -/
def checked {α : Type} (frame : Frame S) (x : Exec α) (k : α → Iteration S) : Iteration S :=
  match x with
  | .error (.panic what) => .error what
  | .error (.error err) => frame.stop [] (some err)
  | .ok a => k a

/-- `contract.UseGas(cost)` once it succeeded, and `mem.Resize(memorySize)` for a nonzero size. -/
def charge (frame : Frame S) (cost memorySize : UInt64) : Frame S :=
  { frame with
    Gas := frame.Gas - cost
    mem := if memorySize > 0 then frame.mem.Resize memorySize else frame.mem }

end Frame

namespace EVMInterpreter

/--
One iteration of `Run`'s loop. Any error of the gas function is running out of gas. An operation
that sets the return data sets it to what it returned; one that neither halts nor jumps moves the
program counter to the next byte.
-/
def step (interp : EVMInterpreter S) (readOnly : Bool) (inv : Invocation) (frame : Frame S) :
    Iteration S :=
  let byte := frame.contract.GetOp frame.pc
  match interp.operationAt byte with
  | none => frame.stop [] (some (.invalidOpcode byte))
  | some (op, o) =>
    frame.checked (o.validateStack frame.stack) fun _ =>
    frame.checked (interp.enforceRestrictions readOnly op o frame.stack) fun _ =>
    frame.checked (memorySizeOf o frame.stack) fun memorySize =>
    match o.gasCost interp.gasTable interp.evm inv frame memorySize with
    | .error (.panic what) => .error what
    | .error (.error _) => frame.stop [] (some .ErrOutOfGas)
    | .ok (cost, charged) =>
      if charged.Gas < cost then charged.stop [] (some .ErrOutOfGas)
      else
        let charged := charged.charge cost memorySize
        match o.execute interp.evm inv charged with
        | .error (.panic what) => .error what
        | .error (.error err) => charged.stop [] (some err)
        | .ok (after, res) =>
          let after := if o.returns then { after with returnData := res } else after
          if o.reverts then after.stop res (some .errExecutionReverted)
          else if o.halts then after.stop res none
          else if o.jumps then .ok (.inl after)
          else .ok (.inl { after with pc := after.pc + 1 })

/-- The frame a run starts from: no stack, no memory, no return data, the program counter at 0. -/
def start (contract : Contract) (Gas : UInt64) (callGasTemp : UInt64) (state : S) : Frame S :=
  { contract, Gas, pc := 0, stack := [], mem := ⟨[], 0⟩, returnData := [], callGasTemp, state }

/--
Go's `Run`, with at most `fuel` iterations: a run of no code returns nothing at once; otherwise
the loop runs read-only when the interpreter or the call is.
-/
def Run (interp : EVMInterpreter S) (fuel : Nat) (contract : Contract) (Gas : UInt64)
    (inv : Invocation) (readOnly : Bool) (callGasTemp : UInt64) (state : S) :
    Option (Outcome (Bytes × Option VmError × Frame S)) :=
  let frame := start contract Gas callGasTemp state
  if contract.Code.length = 0 then some (pure ([], none, frame))
  else Loop.run (interp.step (interp.readOnly || readOnly) inv) fuel frame

end EVMInterpreter

end Vm

end Harmony
